import Followup.Calendar.Instant
import Followup.Engine.Error

/-! A clock that moves when it is told to. During an outage it moves, but cannot be read. -/

namespace Followup

structure Clock where
  now : Instant
  outage : Option String

namespace Clock

def read (c : Clock) : Except EngineError Instant :=
  match c.outage with
  | none => .ok c.now
  | some reason => .error (.schedulingUnavailable reason)

def advance (c : Clock) (d : Span) : Checked Clock := do
  return { c with now := ← c.now.add d }

end Clock

end Followup
