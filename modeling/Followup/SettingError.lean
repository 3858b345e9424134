import Followup.Calendar.TimeOfDay
import Followup.Stage

/-! Why settings are refused, and how that is worded. -/

namespace Followup

inductive SettingError where
  | noWeekday (text : String)
  | unknownWeekday (text : String)
  | badTime (text : String)
  | badOffset (text : String)
  | unknownZone (text : String)
  | emptyWeek
  | startNotBeforeEnd (start finish : TimeOfDay)
  | badWait (entry : String)
  | unknownStage (cause : UnknownName)
  | badSpan (text : String) (stage : Stage)
  | repeatedWait (stage : Stage)
  | badDeadline (text : String)
  | badRetention (text : String)
  | deadlineNotPositive
  | missingWait (stage : Stage)
  | waitNotPositive (stage : Stage)
  | stageTakesNoWait (stage : Stage)
  | waitsReachDeadline (waitHours deadlineHours : Int)
deriving DecidableEq

namespace SettingError

def reason : SettingError → String
  | noWeekday text => s!"no weekdays in '{text}'"
  | unknownWeekday text => s!"unknown weekday '{text}'"
  | badTime text => s!"invalid time of day '{text}', expected HH:MM"
  | badOffset text => s!"invalid timezone offset '{text}', expected UTC or ±HH:MM"
  | unknownZone text => s!"unknown timezone '{text}'"
  | emptyWeek => "business hours need at least one weekday"
  | startNotBeforeEnd start finish =>
    s!"business hours start {start.write} must be before end {finish.write}"
  | badWait entry => s!"stage wait '{entry}' must be STAGE=DURATION"
  | unknownStage cause => cause.message
  | badSpan text stage => s!"invalid duration '{text}' for {stage.name}"
  | repeatedWait stage => s!"duplicate stage wait for {stage.name}"
  | badDeadline text => s!"DEADLINE_BUSINESS_HOURS must be an integer, got '{text}'"
  | badRetention text => s!"invalid RESOLVED_RETENTION '{text}'"
  | deadlineNotPositive => "deadline must be positive"
  | missingWait stage => s!"missing stage wait for {stage.name}"
  | waitNotPositive stage => s!"stage wait for {stage.name} must be positive"
  | stageTakesNoWait stage => s!"stage {stage.name} does not take a wait"
  | waitsReachDeadline waitHours deadlineHours =>
    s!"follow-up waits ({waitHours}h) must finish before the deadline ({deadlineHours}h)"

def message (e : SettingError) : String := "configuration error: " ++ e.reason

end SettingError

end Followup
