import Followup.Decision
import Followup.Engine.Case
import Followup.Engine.Clock
import Followup.Engine.Command
import Followup.Engine.Timers
import Followup.Settings

/-! The engine: its cases, its clock and timers, and the commands that it has emitted. A transition
of a case decides first, arms the next wake-up second, and changes the case last, so that a case
is as before when scheduling is unavailable. -/

namespace Followup

structure Engine where
  settings : Settings
  table : Table
  clock : Clock
  timers : TimerBook
  cases : List Case
  /-- The number that the last wake-up was armed with, also where the timers refused it. -/
  lastSeq : Nat
  commands : List Command
  listening : Bool

namespace Engine

abbrev Answer (α : Type) := Engine × Except EngineError α

def create (settings : Settings) (table : Table) (clock : Clock) (timers : TimerBook) :
    Fallible SettingError Engine := do
  settings.validate
  return {
    settings, table, clock, timers
    cases := [], lastSeq := 0, commands := [], listening := true }

def emit (e : Engine) (c : Command) : Engine :=
  if e.listening then { e with commands := e.commands ++ [c] } else e

def get? (e : Engine) (id : CaseId) : Option Case := e.cases.find? (·.id = id)

def update (e : Engine) (c : Case) : Engine :=
  { e with cases := e.cases.map fun d => if d.id = c.id then c else d }

def cancelWake (e : Engine) (c : Case) : Engine :=
  match c.wake with
  | some w => { e with timers := e.timers.cancel w.handle }
  | none => e

def arm (e : Engine) (c : Case) (reason : WakeReason) (wakeAt : Instant) : Answer Case :=
  -- The number is used up even where the timers refuse it.
  let seq := e.lastSeq + 1
  let e := { e with lastSeq := seq }
  match e.timers.arm ⟨c.id, seq, wakeAt⟩ with
  | .error refusal => (e, .error (.schedulingUnavailable refusal))
  | .ok (timers, handle) =>
    ({ e with timers }.cancelWake c, .ok { c with wake := some ⟨reason, wakeAt, seq, handle⟩ })

def notify (e : Engine) (c : Case) (d : Decision) (now : Instant) : Engine :=
  e.emit (.notify c.id c.reason c.stage d.action d.kind now)

def resolve (e : Engine) (c : Case) (outcome : Outcome) (diagnostic : Option String)
    (now : Instant) : Engine × Case :=
  if c.isResolved then (e, c)
  else
    ((e.cancelWake c).emit (.resolved c.id outcome diagnostic now),
      { c with wake := none, resolution := some ⟨outcome, diagnostic, now⟩ })

def close (e : Engine) (c : Case) (now : Instant) (diagnostic : Option String) : Answer Case :=
  let (e, c) := e.resolve c .closed diagnostic now
  (e, .ok c)

/-- What the table decides for a stage. Nothing is sent outside business hours, whatever the
table says. -/
def decideStage (e : Engine) (c : Case) (stage : Stage) (now : Instant) :
    Checked (Except RuleError (Option Decision)) := do
  let inHours ← e.settings.hours.isOpen now
  return (Decision.decide e.table (Decision.facts c.reason stage inHours)).map <| Option.map fun d =>
    if d.action = .sendNow ∧ inHours = false then { d with action := .scheduleNextWindow } else d

/-- When the stage after this one begins: follow-ups wait from this notice on, and the deadline
counts from the first one. -/
def nextStageAt (e : Engine) (stage : Stage) (firstSent now : Instant) :
    Checked (Option Instant) := do
  match stage.next? with
  | none => return none
  | some next =>
    let wakeAt ← match e.settings.waitBefore next with
      | some wait => e.settings.hours.add now wait
      | none => e.settings.hours.add firstSent e.settings.deadline
    -- A deadline that has passed already is due at once.
    return some (wakeAt.max now)

def act (e : Engine) (c : Case) (stage : Stage) (now : Instant) (d : Decision) :
    Checked (Answer Case) := do
  match d.action with
  | .closeWorkflow =>
    let c := c.enter stage
    return (e.notify c d now).close c now none
  | .scheduleNextWindow =>
    match e.arm c .deferred (← e.settings.hours.nextStart now) with
    | (e, .error err) => return (e, .error err)
    | (e, .ok c) =>
      let c := c.enter stage
      return (e.notify c d now, .ok c)
  | .sendNow =>
    let firstSent := c.firstSent.getD now
    match ← e.nextStageAt stage firstSent now with
    | some wakeAt =>
      -- The stage is entered only once the wake-up is armed.
      match e.arm c .nextStage wakeAt with
      | (e, .error err) => return (e, .error err)
      | (e, .ok c) =>
        let c := { c.enter stage with firstSent := some firstSent, lastSent := some now }
        return (e.notify c d now, .ok c)
    | none =>
      let c := { c.enter stage with lastSent := some now }
      return (e.notify c d now).close c now (some s!"no stage after {stage.name}")

/-- Looks at a stage of a case and acts. A table that gives no decision ends the escalation. -/
def transition (e : Engine) (c : Case) (stage : Stage) (now : Instant) :
    Checked (Answer Case) := do
  match ← e.decideStage c stage now with
  | .ok (some d) => e.act c stage now d
  | .ok none => return e.close (c.enter stage) now (some s!"no rule matched stage {stage.name}")
  | .error err => return e.close (c.enter stage) now (some err.message)

def accountElapsed (e : Engine) (c : Case) (now : Instant) : Checked Case := do
  match c.firstSent with
  | some t => return c.recordElapsed (← e.settings.hours.between t now)
  | none => return c

def wakeTarget (c : Case) : Option Stage :=
  match c.wake.map Wake.reason with
  | some .deferred => some c.stage
  | some .nextStage | none => c.stage.next?

/-- Wakes a case. With a number, only the wake-up of that number counts. -/
def fire (e : Engine) (c : Case) (seq? : Option Nat) : Checked (Answer Case) := do
  if c.isResolved then return (e, .ok c)
  if seq?.isSome ∧ seq? ≠ c.wake.map Wake.seq then return (e, .ok c)
  match e.clock.read with
  | .error err => return (e, .error err)
  | .ok now =>
    match wakeTarget c with
    | none =>
      let c ← e.accountElapsed c now
      return e.close c now (some "deadline stage completed")
    | some stage =>
      match ← e.transition c stage now with
      | (e, .error err) => return (e, .error err)
      | (e, .ok c) => return (e, .ok (← e.accountElapsed c now))

end Engine

end Followup
