/-! The seven weekdays in their order from Monday, and their names. -/

namespace Followup

inductive Weekday where
  | mon | tue | wed | thu | fri | sat | sun
deriving DecidableEq

namespace Weekday

def all : List Weekday := [mon, tue, wed, thu, fri, sat, sun]

def index : Weekday → Nat
  | mon => 0 | tue => 1 | wed => 2 | thu => 3 | fri => 4 | sat => 5 | sun => 6

def ofIndex (n : Nat) : Weekday :=
  match n % 7 with
  | 0 => mon | 1 => tue | 2 => wed | 3 => thu | 4 => fri | 5 => sat | _ => sun

def next (d : Weekday) : Weekday := ofIndex (d.index + 1)

theorem index_lt (d : Weekday) : d.index < 7 := by cases d <;> decide

@[simp] theorem ofIndex_index (d : Weekday) : ofIndex d.index = d := by cases d <;> rfl

theorem mem_all (d : Weekday) : d ∈ all := by cases d <;> decide

def short : Weekday → String
  | mon => "Mon" | tue => "Tue" | wed => "Wed" | thu => "Thu"
  | fri => "Fri" | sat => "Sat" | sun => "Sun"

def long : Weekday → String
  | mon => "Monday" | tue => "Tuesday" | wed => "Wednesday" | thu => "Thursday"
  | fri => "Friday" | sat => "Saturday" | sun => "Sunday"

def ofName? (name : String) : Option Weekday :=
  all.find? fun d =>
    d.short.toLower == name.toLower || d.long.toLower == name.toLower

end Weekday

end Followup
