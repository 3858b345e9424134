import Followup.Text.Blank
import Followup.Text.Numeral

/-! A time of day is a second of the day and a count of nanoseconds. A count from one to two
thousand million stands for a leap second: it is written as second 60 and lies between the second
it extends and the next one. -/

namespace Followup

open Text

structure TimeOfDay where
  second : Nat
  nano : Nat
  second_lt : second < 86400
  nano_lt : nano < 2000000000
deriving DecidableEq

namespace TimeOfDay

/-- The time with the given fields; second 60 is the leap second after second 59. -/
def ofFields? (hour minute second nano : Nat) : Option TimeOfDay :=
  if h : hour < 24 ∧ minute < 60 ∧ second < 60 ∧ nano < 1000000000 then
    some ⟨hour * 3600 + minute * 60 + second, nano, by omega, by omega⟩
  else if h : hour < 24 ∧ minute < 60 ∧ second = 60 ∧ nano < 1000000000 then
    some ⟨hour * 3600 + minute * 60 + 59, nano + 1000000000, by omega, by omega⟩
  else none

def IsLeap (t : TimeOfDay) : Prop := 1000000000 ≤ t.nano

instance (t : TimeOfDay) : Decidable t.IsLeap := inferInstanceAs (Decidable (_ ≤ _))

instance : LT TimeOfDay :=
  ⟨fun a b => a.second < b.second ∨ a.second = b.second ∧ a.nano < b.nano⟩
instance (a b : TimeOfDay) : Decidable (a < b) :=
  inferInstanceAs (Decidable (a.second < b.second ∨ a.second = b.second ∧ a.nano < b.nano))

theorem lt_def {a b : TimeOfDay} :
    a < b ↔ a.second < b.second ∨ a.second = b.second ∧ a.nano < b.nano := Iff.rfl

def writeFraction (nano : Nat) : String :=
  let n := nano % 1000000000
  if n = 0 then ""
  else if n % 1000000 = 0 then "." ++ Numeral.padded 3 (n / 1000000)
  else if n % 1000 = 0 then "." ++ Numeral.padded 6 (n / 1000)
  else "." ++ Numeral.padded 9 n

/-- Hours, minutes and seconds of a second of the day and its nanoseconds. In a leap second the
seconds are written as one more. -/
def writeClock (second nano : Nat) : String :=
  Numeral.padded 2 (second / 3600) ++ ":" ++ Numeral.padded 2 (second / 60 % 60) ++ ":" ++
    Numeral.padded 2 (second % 60 + nano / 1000000000) ++ writeFraction nano

def write (t : TimeOfDay) : String := writeClock t.second t.nano

def readField (cs : List Char) : Option (Nat × List Char) :=
  match trimLeft cs with
  | a :: b :: cs =>
    match Numeral.digit? 10 a, Numeral.digit? 10 b with
    | some x, some y => some (x * 10 + y, cs)
    | some x, none => some (x, b :: cs)
    | none, _ => none
  | [a] => (Numeral.digit? 10 a).map (·, [])
  | [] => none

def read? (cs : List Char) : Option TimeOfDay :=
  match readField (trim cs) with
  | some (hour, ':' :: cs) =>
    match readField cs with
    | some (minute, []) => ofFields? hour minute 0 0
    | some (minute, ':' :: cs) =>
      match readField cs with
      | some (second, []) => ofFields? hour minute second 0
      | _ => none
    | _ => none
  | _ => none

end TimeOfDay

end Followup
