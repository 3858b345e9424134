import Followup.BusinessHours.Reader
import Followup.Calendar.Span.Reader
import Followup.Text.LetterCase

/-! The settings of the program, as they are read from named texts. A profile's own settings have
its name and an underscore in front and win over the plain ones. -/

namespace Followup

open Text

abbrev Waits := List (Stage × Span)

def Waits.put (stage : Stage) (wait : Span) : Waits → Waits
  | [] => [(stage, wait)]
  | (s, w) :: rest => if s = stage then (s, wait) :: rest else (s, w) :: put stage wait rest

structure Settings where
  profile : String
  hours : BusinessHours
  /-- Business time from a stage's notice to the next stage. -/
  waits : Waits
  /-- Business time from the first notice to the deadline. -/
  deadline : Span
  tablesDir : Option String
  retention : Span

namespace Settings

def waitedStages : List Stage := [.followUp1, .followUp2]

def standard : Settings where
  profile := ""
  hours := .standard
  waits := [(.followUp1, .ofHours 1), (.followUp2, .ofHours 3)]
  deadline := .ofHours 16
  tablesDir := none
  retention := .ofHours 1

def waitBefore (s : Settings) (stage : Stage) : Option Span := s.waits.lookup stage

def profileLabel (s : Settings) : String := if s.profile = "" then "default" else s.profile

def totalWait (s : Settings) : List Stage → Span → Fallible SettingError Span
  | [], total => return total
  | stage :: stages, total =>
    match s.waitBefore stage with
    | none => throw (.missingWait stage)
    | some wait =>
      if wait ≤ .zero then throw (.waitNotPositive stage)
      else do s.totalWait stages (← (total + wait).checked)

/-- The waits are set for the right stages and positive, and together end before the deadline. -/
def validate (s : Settings) : Fallible SettingError Unit := do
  if s.deadline ≤ .zero then throw .deadlineNotPositive
  let total ← s.totalWait waitedStages .zero
  match (s.waits.map Prod.fst).find? fun stage => !waitedStages.contains stage with
  | some stage => throw (.stageTakesNoWait stage)
  | none =>
    if s.deadline ≤ total then
      throw (.waitsReachDeadline total.wholeHours s.deadline.wholeHours)

def readWait (cs : List Char) : Fallible SettingError (Stage × Span) :=
  match cut? '=' cs with
  | none => throw (.badWait (String.ofList cs))
  | some (name, span) =>
    match Stage.ofName (String.ofList name) with
    | .error e => throw (.unknownStage e)
    | .ok stage => do
      match ← Span.read? (String.ofList span) with
      | some wait => return (stage, wait)
      | none => throw (.badSpan (trimmed (String.ofList span)) stage)

def readWaitsFrom (waits : Waits) : List (List Char) → Fallible SettingError Waits
  | [] => return waits
  | entry :: rest => do
    let (stage, wait) ← readWait entry
    if (waits.lookup stage).isSome then throw (.repeatedWait stage)
    readWaitsFrom (waits ++ [(stage, wait)]) rest

def readWaits (text : String) : Fallible SettingError Waits := readWaitsFrom [] (entries text)

def readDeadline : Option String → Except SettingError Int
  | none => .ok 16
  | some text =>
    match Numeral.word? 64 (trim text.toList) with
    | some n => .ok n
    | none => .error (.badDeadline text)

def readRetention (text : String) : Fallible SettingError Span := do
  match ← Span.read? text with
  | some span => return span
  | none => throw (.badRetention (trimmed text))

def keys : List String :=
  ["BUSINESS_DAYS", "BUSINESS_START", "BUSINESS_END", "BUSINESS_TIMEZONE", "STAGE_WAITS",
    "DEADLINE_BUSINESS_HOURS", "RESOLVED_RETENTION", "TABLES_DIR"]

def ofLookup (lookup : String → Option String) : Fallible SettingError Settings := do
  let get (key standard : String) : String := (lookup key).getD standard
  let hours ← BusinessHours.read (get "BUSINESS_DAYS" "mon-fri") (get "BUSINESS_START" "06:00")
    (get "BUSINESS_END" "22:00") (get "BUSINESS_TIMEZONE" "UTC")
  let waits ← readWaits (get "STAGE_WAITS" "follow_up_1=1h,follow_up_2=3h")
  let hoursToDeadline ← readDeadline (lookup "DEADLINE_BUSINESS_HOURS")
  let retention ← readRetention (get "RESOLVED_RETENTION" "1h")
  let deadline ← (Span.ofHours hoursToDeadline).checked
  let settings : Settings :=
    { profile := "", hours, waits, deadline, tablesDir := lookup "TABLES_DIR", retention }
  settings.validate
  return settings

abbrev Environment := List (String × String)

/-- An empty text counts as not set. -/
def setting? (env : Environment) (key : String) : Option String :=
  (env.lookup key).filter (· ≠ "")

def profiled? (env : Environment) (profile key : String) : Option String :=
  if profile = "" then setting? env key
  else (setting? env (profile ++ "_" ++ key)).or (setting? env key)

/-- The settings of a profile, whose name counts in upper case. -/
def ofProfile (env : Environment) (profile : String) : Fallible SettingError Settings := do
  let settings ← ofLookup (profiled? env (uppered profile))
  return { settings with profile := uppered profile }

def ofEnvironment (env : Environment) : Fallible SettingError Settings :=
  ofProfile env ((setting? env "ESCALATOR_PROFILE").getD "")

def summary (s : Settings) : List String :=
  let days := ",".intercalate (s.hours.days.map Weekday.short)
  let waits := s.waits.map fun (stage, wait) => s!"{stage.name}={wait.wholeMinutes}m"
  [s!"Config loaded (profile: {s.profileLabel}):",
    s!"  business hours: {days} {s.hours.start.write}-{s.hours.finish.write} " ++
      s!"({s.hours.zone.write})",
    "  stage waits:    " ++ ", ".intercalate waits,
    s!"  deadline:       {s.deadline.wholeHours}h",
    s!"  retention:      {s.retention.wholeMinutes}m",
    "  tables dir:     " ++ s.tablesDir.getD "(built-in only)"]

end Settings

end Followup
