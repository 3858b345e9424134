import Followup.Calendar.Weekday
import Followup.Fault

/-! Dates of the Gregorian calendar, extended in both directions, as day numbers counted from the
first of January 1970. The calendar reaches from the year -262143 to the year 262142. -/

namespace Followup

structure Date where
  day : Int
deriving DecidableEq

namespace Date

instance : LE Date := ⟨fun a b => a.day ≤ b.day⟩
instance (a b : Date) : Decidable (a ≤ b) := inferInstanceAs (Decidable (a.day ≤ b.day))

def isLeapYear (y : Int) : Bool := y % 4 = 0 && (y % 100 ≠ 0 || y % 400 = 0)

def daysInMonth (y : Int) (m : Nat) : Nat :=
  match m with
  | 2 => if isLeapYear y then 29 else 28
  | 4 | 6 | 9 | 11 => 30
  | _ => 31

/-- The day number of a civil date. Years start in March here, so that the leap day is the last
one of its year and the months before it have a fixed length. -/
def ofCivil (y : Int) (m d : Nat) : Date :=
  let y' := if m ≤ 2 then y - 1 else y
  let era := y' / 400
  let yearOfEra := y' % 400
  let monthFromMarch : Int := if 2 < m then (m : Int) - 3 else (m : Int) + 9
  let dayOfYear := (153 * monthFromMarch + 2) / 5 + (d : Int) - 1
  let dayOfEra := yearOfEra * 365 + yearOfEra / 4 - yearOfEra / 100 + dayOfYear
  ⟨era * 146097 + dayOfEra - 719468⟩

structure Civil where
  year : Int
  month : Nat
  day : Nat
deriving DecidableEq

def civil (date : Date) : Civil :=
  let z := date.day + 719468
  let era := z / 146097
  let dayOfEra := z % 146097
  let yearOfEra := (dayOfEra - dayOfEra / 1460 + dayOfEra / 36524 - dayOfEra / 146096) / 365
  let dayOfYear := dayOfEra - (365 * yearOfEra + yearOfEra / 4 - yearOfEra / 100)
  let monthFromMarch := (5 * dayOfYear + 2) / 153
  let day := dayOfYear - (153 * monthFromMarch + 2) / 5 + 1
  let month := if monthFromMarch < 10 then monthFromMarch + 3 else monthFromMarch - 9
  let year := yearOfEra + era * 400
  { year := if month ≤ 2 then year + 1 else year, month := month.toNat, day := day.toNat }

def firstDay : Int := -96465292
def lastDay : Int := 95026236

def InRange (date : Date) : Prop := firstDay ≤ date.day ∧ date.day ≤ lastDay

instance (date : Date) : Decidable date.InRange :=
  inferInstanceAs (Decidable (firstDay ≤ date.day ∧ date.day ≤ lastDay))

def ofCivil? (y : Int) (m d : Nat) : Option Date :=
  if 1 ≤ m ∧ m ≤ 12 ∧ 1 ≤ d ∧ d ≤ daysInMonth y m ∧ (ofCivil y m d).InRange then
    some (ofCivil y m d)
  else none

def weekday (date : Date) : Weekday := .ofIndex ((date.day + 3) % 7).toNat

def next (date : Date) : Checked Date :=
  if date.day < lastDay then .ok ⟨date.day + 1⟩ else .error .outOfRange

example : ofCivil 1970 1 1 = ⟨0⟩ := by decide
example : ofCivil (-262143) 1 1 = ⟨firstDay⟩ := by decide
example : ofCivil 262142 12 31 = ⟨lastDay⟩ := by decide
example : civil ⟨firstDay⟩ = ⟨-262143, 1, 1⟩ := by decide
example : (ofCivil 2026 10 19).weekday = .mon := by decide

end Date

end Followup
