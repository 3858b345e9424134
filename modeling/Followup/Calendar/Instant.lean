import Followup.Calendar.Date
import Followup.Calendar.Span
import Followup.Calendar.TimeOfDay

/-! Instants and wall-clock readings. Both count seconds from the start of 1970 and carry a count
of nanoseconds that reaches two thousand million in a leap second; an instant is read in UTC, a
wall-clock reading in some zone. Away from leap seconds an instant is the same as its number of
nanoseconds, which is the view that the laws of this module speak of. -/

namespace Followup

structure Reading where
  second : Int
  nano : Nat
deriving DecidableEq

abbrev Instant := Reading
abbrev WallTime := Reading

namespace Reading

def Regular (t : Reading) : Prop := t.nano < 1000000000

instance (t : Reading) : Decidable t.Regular := inferInstanceAs (Decidable (_ < _))

def nanos (t : Reading) : Int := t.second * 1000000000 + t.nano

def ofNanos (n : Int) : Reading := ⟨n / 1000000000, (n % 1000000000).toNat⟩

instance : LE Reading :=
  ⟨fun a b => a.second < b.second ∨ a.second = b.second ∧ a.nano ≤ b.nano⟩
instance : LT Reading :=
  ⟨fun a b => a.second < b.second ∨ a.second = b.second ∧ a.nano < b.nano⟩
instance (a b : Reading) : Decidable (a ≤ b) :=
  inferInstanceAs (Decidable (a.second < b.second ∨ a.second = b.second ∧ a.nano ≤ b.nano))
instance (a b : Reading) : Decidable (a < b) :=
  inferInstanceAs (Decidable (a.second < b.second ∨ a.second = b.second ∧ a.nano < b.nano))

theorem le_def {a b : Reading} :
    a ≤ b ↔ a.second < b.second ∨ a.second = b.second ∧ a.nano ≤ b.nano := Iff.rfl
theorem lt_def {a b : Reading} :
    a < b ↔ a.second < b.second ∨ a.second = b.second ∧ a.nano < b.nano := Iff.rfl

theorem le_iff_nanos {a b : Reading} (ha : a.Regular) (hb : b.Regular) :
    a ≤ b ↔ a.nanos ≤ b.nanos := by
  simp only [le_def, nanos, Regular] at *
  omega

theorem lt_iff_nanos {a b : Reading} (ha : a.Regular) (hb : b.Regular) :
    a < b ↔ a.nanos < b.nanos := by
  simp only [lt_def, nanos, Regular] at *
  omega

theorem ofNanos_regular (n : Int) : (ofNanos n).Regular := by
  simp only [ofNanos, Regular]
  omega

@[simp] theorem nanos_ofNanos (n : Int) : (ofNanos n).nanos = n := by
  simp only [ofNanos, nanos]
  omega

def max (a b : Reading) : Reading := if a ≤ b then b else a
def min (a b : Reading) : Reading := if a ≤ b then a else b

def date (t : Reading) : Date := ⟨t.second / 86400⟩

def secondOfDay (t : Reading) : Nat := (t.second % 86400).toNat

def ofDate (date : Date) (time : TimeOfDay) : Reading :=
  ⟨date.day * 86400 + time.second, time.nano⟩

def InRange (t : Reading) : Prop := t.date.InRange

instance (t : Reading) : Decidable t.InRange := inferInstanceAs (Decidable t.date.InRange)

def checked (t : Reading) : Checked Reading :=
  if t.InRange then .ok t else .error .outOfRange

def carry (second nano : Int) : Reading :=
  if nano < 0 then ⟨second - 1, (nano + 1000000000).toNat⟩
  else if nano < 1000000000 then ⟨second, nano.toNat⟩
  else ⟨second + 1, (nano - 1000000000).toNat⟩

/-- The reading a span later. From inside a leap second, a span that stays within it keeps the
notation and any other one leaves the leap second as if it were the second before (going forward)
or the second after (going back). -/
def shift (t : Reading) (d : Span) : Reading :=
  let seconds := d.nanos.tdiv 1000000000
  let nanos := d.nanos.tmod 1000000000
  if t.nano < 1000000000 then carry (t.second + seconds) (t.nano + nanos)
  else if 0 < seconds ∨ 0 < nanos ∧ 2000000000 ≤ t.nano + nanos then
    carry (t.second + seconds) (t.nano - 1000000000 + nanos)
  else if seconds < 0 then carry (t.second + 1 + seconds) (t.nano - 1000000000 + nanos)
  else ⟨t.second, (t.nano + nanos).toNat⟩

theorem shift_of_regular {t : Reading} (d : Span) (h : t.Regular) :
    t.shift d = ofNanos (t.nanos + d.nanos) := by
  have h1 := Int.tdiv_mul_add_tmod d.nanos 1000000000
  have h2 : d.nanos.tmod 1000000000 < 1000000000 := Int.tmod_lt_of_pos _ (by decide)
  have h3 : -1000000000 < d.nanos.tmod 1000000000 := Int.lt_tmod_of_pos _ (by decide)
  simp only [Regular] at h
  simp only [shift, h, if_true, carry, ofNanos, nanos]
  split
  · simp only [Reading.mk.injEq]; omega
  · split <;> simp only [Reading.mk.injEq] <;> omega

/-- The span from `b` to `a`. A leap second that lies between the two times of day counts. -/
def since (a b : Reading) : Span :=
  let seconds := a.second - b.second
  let leap : Int :=
    if b.secondOfDay < a.secondOfDay ∧ 1000000000 ≤ b.nano then 1
    else if a.secondOfDay < b.secondOfDay ∧ 1000000000 ≤ a.nano then -1
    else 0
  ⟨(seconds + leap) * 1000000000 + ((a.nano : Int) - b.nano)⟩

theorem since_of_regular {a b : Reading} (ha : a.Regular) (hb : b.Regular) :
    (a.since b).nanos = a.nanos - b.nanos := by
  simp only [Regular] at ha hb
  have : ¬ 1000000000 ≤ b.nano := by omega
  have : ¬ 1000000000 ≤ a.nano := by omega
  simp only [since, nanos, *, and_false, if_false]
  omega

def add (t : Reading) (d : Span) : Checked Reading := (t.shift d).checked

def sub (t : Reading) (d : Span) : Checked Reading := (t.shift (-d)).checked

theorem add_eq_ok {t u : Reading} {d : Span} (h : t.add d = .ok u) : u = t.shift d := by
  simp only [add, checked] at h
  split at h <;> simp_all

end Reading

end Followup
