import Followup.Fault

/-! A span is a signed length of time in whole nanoseconds. Spans that the program keeps lie
within `2 ^ 63 - 1` milliseconds of zero; `Span.checked` is the gate. -/

namespace Followup

structure Span where
  nanos : Int
deriving DecidableEq

namespace Span

def zero : Span := ⟨0⟩
def ofMillis (n : Int) : Span := ⟨n * 1000000⟩
def ofSeconds (n : Int) : Span := ⟨n * 1000000000⟩
def ofMinutes (n : Int) : Span := ofSeconds (n * 60)
def ofHours (n : Int) : Span := ofSeconds (n * 3600)
def ofDays (n : Int) : Span := ofSeconds (n * 86400)

instance : Add Span := ⟨fun a b => ⟨a.nanos + b.nanos⟩⟩
instance : Sub Span := ⟨fun a b => ⟨a.nanos - b.nanos⟩⟩
instance : Neg Span := ⟨fun a => ⟨-a.nanos⟩⟩
instance : LE Span := ⟨fun a b => a.nanos ≤ b.nanos⟩
instance : LT Span := ⟨fun a b => a.nanos < b.nanos⟩
instance (a b : Span) : Decidable (a ≤ b) := inferInstanceAs (Decidable (a.nanos ≤ b.nanos))
instance (a b : Span) : Decidable (a < b) := inferInstanceAs (Decidable (a.nanos < b.nanos))

theorem le_def {a b : Span} : a ≤ b ↔ a.nanos ≤ b.nanos := Iff.rfl
theorem lt_def {a b : Span} : a < b ↔ a.nanos < b.nanos := Iff.rfl

@[simp] theorem nanos_add (a b : Span) : (a + b).nanos = a.nanos + b.nanos := rfl
@[simp] theorem nanos_sub (a b : Span) : (a - b).nanos = a.nanos - b.nanos := rfl
@[simp] theorem nanos_neg (a : Span) : (-a).nanos = -a.nanos := rfl
@[simp] theorem nanos_zero : zero.nanos = 0 := rfl

def max (a b : Span) : Span := if a ≤ b then b else a

def limit : Int := 9223372036854775807000000

def InRange (a : Span) : Prop := -limit ≤ a.nanos ∧ a.nanos ≤ limit

instance (a : Span) : Decidable a.InRange :=
  inferInstanceAs (Decidable (-limit ≤ a.nanos ∧ a.nanos ≤ limit))

def checked (a : Span) : Checked Span :=
  if a.InRange then .ok a else .error .outOfRange

def wholeMinutes (a : Span) : Int := a.nanos.tdiv 60000000000

def wholeHours (a : Span) : Int := a.nanos.tdiv 3600000000000

def wholeMillis (a : Span) : Int := a.nanos.tdiv 1000000

end Span

end Followup
