import Followup.Calendar.Instant
import Followup.CaseId
import Followup.Stage

/-! What the engine asks others to do. It never does any of it by itself. -/

namespace Followup

inductive Command where
  /-- A stage was looked at. Deferrals are told as well. -/
  | notify (id : CaseId) (reason : String) (stage : Stage) (action : Action)
      (kind : Option NoticeKind) (at' : Instant)
  | resolved (id : CaseId) (outcome : Outcome) (diagnostic : Option String) (at' : Instant)
deriving DecidableEq

def Command.caseId : Command → CaseId
  | notify id .. | resolved id .. => id

end Followup
