import Followup.Engine.Bridge

/-! The engine at work in time. A firing is handed to its case when it is due, and tried again while
scheduling is unavailable; resolved cases are purged every minute; and the bridge carries out
each command at once. Time is counted in whole milliseconds from the start, and what is due at
the same time happens in the order in which it was put on the agenda. -/

namespace Followup

inductive Task where
  | fire (handle : Nat)
  | retry (id : CaseId) (seq attempts : Nat)
  | purge
deriving DecidableEq

structure Event where
  due : Nat
  task : Task
deriving DecidableEq

abbrev Agenda := List Event

def Agenda.insert (e : Event) : Agenda → Agenda
  | [] => [e]
  | f :: fs => if f.due ≤ e.due then f :: Agenda.insert e fs else e :: f :: fs

structure Service where
  bridge : Bridge
  startedAt : Instant
  elapsed : Nat
  engine : Engine
  agenda : Agenda
  scheduled : Nat
  handled : Nat
  handlings : List Handling
  isTimed : Bool
  isListening : Bool
  isOpen : Bool

namespace Service

def purgeInterval : Nat := 60000

def backoff (attempts : Nat) : Nat := min attempts 30 * 1000

def receiverClosed : String := "timer receiver closed"

def clockDown : String := "clock down"

def now (s : Service) : Instant := s.startedAt.shift (.ofMillis s.elapsed)

/-- Wake-ups that fire by themselves cannot be armed while the clock is down, nor after the end. -/
def refusal (s : Service) : Option String :=
  if ¬ s.isTimed then none else if s.isOpen then s.engine.clock.outage else some receiverClosed

def create (bridge : Bridge) (engine : Engine) (isTimed isListening : Bool) : Service where
  bridge := bridge
  startedAt := engine.clock.now
  elapsed := 0
  engine := engine
  agenda := [⟨0, .purge⟩]
  scheduled := 0
  handled := 0
  handlings := []
  isTimed := isTimed
  isListening := isListening
  isOpen := true

def delay (s : Service) (r : WakeRequest) : Nat :=
  ((r.wakeAt.since s.now).nanos.toNat + 999999) / 1000000

def schedule (s : Service) : Service :=
  let entries := s.engine.timers.entries
  let added := (entries.drop s.scheduled).zipIdx s.scheduled
  let agenda := if s.isTimed then
      added.foldl (fun a ((r, _), handle) => a.insert ⟨s.elapsed + s.delay r, .fire handle⟩) s.agenda
    else s.agenda
  { s with agenda, scheduled := entries.length }

def carryOut (s : Service) : Service :=
  let done := (s.engine.commands.drop s.handled).map (s.bridge.handle s.engine)
  { s with handled := s.engine.commands.length, handlings := s.handlings ++ done }

def run {α : Type} (s : Service) (operation : Engine → Checked (Engine.Answer α)) :
    Checked (Service × Except EngineError α) := do
  let (engine, answer) ← operation (s.engine.setRefusal s.refusal)
  return ({ s with engine }.schedule.carryOut, answer)

def deliver (s : Service) (id : CaseId) (seq attempts : Nat) : Checked Service := do
  match ← s.run fun e => e.handleTimerFired id seq with
  | (s, .error (.schedulingUnavailable _)) =>
    return { s with agenda :=
      s.agenda.insert ⟨s.elapsed + backoff (attempts + 1), .retry id seq (attempts + 1)⟩ }
  | (s, _) => return s

def perform (s : Service) : Task → Checked Service
  | .fire handle =>
    match s.engine.timers.entries[handle]? with
    | some (r, false) => if s.isListening then s.deliver r.id r.seq 0 else return s
    | _ => return s
  | .retry id seq attempts => s.deliver id seq attempts
  | .purge => do
    if ¬ s.isListening then return s
    let (s, _) ← s.run Engine.purgeExpired
    return { s with agenda := s.agenda.insert ⟨s.elapsed + purgeInterval, .purge⟩ }

def setElapsed (s : Service) (elapsed : Nat) : Service :=
  let s := { s with elapsed }
  { s with engine := s.engine.setClock s.now }

def workUntil : (steps : Nat) → (time : Nat) → Service → Checked Service
  | 0, _, s => return s
  | steps + 1, time, s => do
    match s.agenda with
    | [] => return s
    | e :: rest =>
      if time < e.due then return s
      workUntil steps time (← ({ s with agenda := rest }.setElapsed (max s.elapsed e.due)).perform e.task)

/-- Lets so many milliseconds pass. An event of a case leads to others at the same time for each
of its stages at most, so the steps are enough. -/
def sleep (s : Service) (millis : Nat) : Checked Service := do
  let time := s.elapsed + millis
  let s ← workUntil ((millis + 16) * (s.agenda.length + 16)) time s
  return s.setElapsed time

def settle (s : Service) : Checked Service := s.sleep 0

def operate {α : Type} (s : Service) (operation : Engine → Checked (Engine.Answer α)) :
    Checked (Service × Except EngineError α) := do
  let (s, answer) ← s.run operation
  return (← s.settle, answer)

def handIn (s : Service) (id : CaseId) (seq : Nat) : Checked (Service × Bool) := do
  if s.isListening then return (← (← s.deliver id seq 0).settle, true) else return (s, false)

def setClockDown (s : Service) (isDown : Bool) : Service :=
  { s with engine := s.engine.setOutage (if isDown then some clockDown else none) }

/-- Ends the work: firings are not taken any more, and commands go nowhere. Those that were emitted
before have been carried out. -/
def shutDown (s : Service) : Service :=
  { s with isListening := false, isOpen := false, engine := s.engine.stopListening }

end Service

end Followup
