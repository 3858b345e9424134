import Followup.BusinessHours
import Followup.Calendar.Histories

/-! Business hours written as text: weekdays and ranges of them, two times of day and a zone. -/

namespace Followup

open Text

def entries (text : String) : List (List Char) :=
  ((split ',' text.toList).map trim).filter (!·.isEmpty)

namespace Weekday

def read (cs : List Char) : Except SettingError Weekday :=
  let name := String.ofList (trim cs)
  match ofName? name with
  | some d => .ok d
  | none => .error (.unknownWeekday name)

def walk : (steps : Nat) → Weekday → Weekday → List Weekday
  | 0, from', _ => [from']
  | steps + 1, from', upto => if from' = upto then [from'] else from' :: walk steps from'.next upto

def readEntry (cs : List Char) : Except SettingError (List Weekday) :=
  match cut? '-' cs with
  | some (first, last) => do return walk 6 (← read first) (← read last)
  | none => do return [← read cs]

def readList (text : String) : Except SettingError (List Weekday) := do
  let days ← (entries text).mapM readEntry
  if days.flatten.isEmpty then .error (.noWeekday text) else return days.flatten

end Weekday

def TimeOfDay.read (text : String) : Except SettingError TimeOfDay :=
  match read? text.toList with
  | some t => .ok t
  | none => .error (.badTime (trimmed text))

def Offset.read (text : String) : Fallible SettingError Offset := do
  match ← read? text with
  | some o => return o
  | none => throw (.badOffset (trimmed text))

def Zone.read (text : String) : Fallible SettingError Zone :=
  let s := trimmed text
  if sameLetters s "utc" ∨ s = "Z" ∨ s.startsWith "+" ∨ s.startsWith "-" then
    return fixed (← Offset.read s)
  else match ofName? s with
    | some z => return z
    | none => throw (.unknownZone s)

def BusinessHours.read (days start finish zone : String) : Fallible SettingError BusinessHours := do
  let days ← Weekday.readList days
  let start ← TimeOfDay.read start
  let finish ← TimeOfDay.read finish
  let zone ← Zone.read zone
  build days start finish zone

end Followup
