import Followup.Engine.Basic

/-! The operations of the engine. An operation on a case that is not registered is refused and
changes nothing. -/

namespace Followup.Engine

/-- Starts an escalation under a new id and looks at its first stage. When scheduling is
unavailable the case is not kept. -/
def start (e : Engine) (id : CaseId) (reason : String) (now : Instant) :
    Checked (Answer CaseId) := do
  match ← e.transition (.fresh id reason now) .initial now with
  | (e, .ok c) => return ({ e with cases := e.cases ++ [c] }, .ok id)
  | (e, .error err) => return (e, .error err)

def wakeCase (e : Engine) (id : CaseId) (seq? : Option Nat) : Checked (Answer Unit) := do
  match e.get? id with
  | none => return (e, .error (.unknownCase id))
  | some c =>
    match ← e.fire c seq? with
    | (e, .ok c) => return (e.update c, .ok ())
    | (e, .error err) => return (e, .error err)

def onTimerFire (e : Engine) (id : CaseId) : Checked (Answer Unit) := e.wakeCase id none

/-- A timer fired. Any but the one that the case is waiting for is stale. -/
def handleTimerFired (e : Engine) (id : CaseId) (seq : Nat) : Checked (Answer Unit) :=
  e.wakeCase id (some seq)

def onExternalResponse (e : Engine) (id : CaseId) (now : Instant) : Checked (Answer Bool) := do
  match e.get? id with
  | none => return (e, .error (.unknownCase id))
  | some c =>
    if c.isResolved then return (e, .ok false)
    let c ← e.accountElapsed c now
    let (e, c) := e.resolve c .resumed none now
    return (e.update c, .ok true)

def evaluateStage (e : Engine) (id : CaseId) (now : Instant) :
    Checked (Except EngineError (Option Decision)) := do
  match e.get? id with
  | none => return .error (.unknownCase id)
  | some c =>
    match ← e.decideStage c c.stage now with
    | .ok d => return .ok d
    | .error err => return .error (.rules err)

def snapshot (e : Engine) (id : CaseId) : Except EngineError Case :=
  match e.get? id with
  | some c => .ok c
  | none => .error (.unknownCase id)

def outcome (e : Engine) (id : CaseId) : Except EngineError (Option Outcome) :=
  (e.snapshot id).map Case.outcome?

def activeCount (e : Engine) : Nat := e.cases.countP fun c => !c.isResolved

def evict (e : Engine) (id : CaseId) : Engine :=
  { e with cases := e.cases.filter fun c => c.id ≠ id }

def remove (e : Engine) (id : CaseId) : Answer (Option Case) :=
  match e.get? id with
  | none => (e, .error (.unknownCase id))
  | some c => if c.isResolved then (e.evict id, .ok (some c)) else (e, .ok none)

def isExpired (cutoff : Instant) (c : Case) : Bool :=
  match c.resolution with
  | some r => decide (r.resolvedAt ≤ cutoff)
  | none => false

def purgeResolved (e : Engine) (cutoff : Instant) : Engine × Nat :=
  ({ e with cases := e.cases.filter fun c => !isExpired cutoff c },
    e.cases.countP (isExpired cutoff))

def purgeExpired (e : Engine) : Checked (Answer Nat) := do
  match e.clock.read with
  | .error err => return (e, .error err)
  | .ok now =>
    let (e, n) := e.purgeResolved (← now.sub e.settings.retention)
    return (e, .ok n)

def setClock (e : Engine) (now : Instant) : Engine :=
  { e with clock := { e.clock with now } }

def setOutage (e : Engine) (outage : Option String) : Engine :=
  { e with clock := { e.clock with outage } }

def setRefusal (e : Engine) (refusal : Option String) : Engine :=
  { e with timers := { e.timers with refusal } }

def stopListening (e : Engine) : Engine := { e with listening := false }

end Followup.Engine
