import Followup.CaseId
import Followup.Rules.Table

/-! What an operation of the engine reports when it does not do what it was asked for. -/

namespace Followup

inductive EngineError where
  /-- The clock or the timers do not work. The case is as before, and trying again may help. -/
  | schedulingUnavailable (reason : String)
  | unknownCase (id : CaseId)
  | collaborator (name reason : String)
  | rules (cause : RuleError)
deriving DecidableEq

def EngineError.message : EngineError → String
  | schedulingUnavailable reason => s!"scheduling unavailable: {reason}"
  | unknownCase id => s!"unknown escalation instance: {id.write}"
  | collaborator name reason => s!"collaborator '{name}' failed: {reason}"
  | rules cause => cause.message

end Followup
