import Followup.Calendar.Zone
import Mathlib.Order.Defs.PartialOrder

/-! What the clocks of a zone show, and when. An offset is shorter than a day, so that away from the
two ends of the calendar each reading of a clock stands for an instant. -/

namespace Followup

namespace Reading

variable {a b t u : Reading} {d : Span}

theorem checked_eq_ok : t.checked = .ok u ↔ t.InRange ∧ u = t := by
  by_cases h : t.InRange
  · simp only [checked, h, if_true, Except.ok.injEq, true_and, eq_comm]
  · simp only [checked, h, if_false, reduceCtorEq, false_and]

theorem checked_ends (t : Reading) : t.checked.Ends fun u => t.InRange ∧ u = t := by
  by_cases h : t.InRange
  · exact .inr ⟨t, if_pos h, h, rfl⟩
  · exact .inl (if_neg h)

theorem date_mono (h : a ≤ b) : a.date.day ≤ b.date.day := by
  simp only [le_def, date] at *
  omega

@[simp] theorem date_ofDate (date : Date) (time : TimeOfDay) : (ofDate date time).date = date := by
  have hlt := time.second_lt
  refine congrArg Date.mk ?_
  simp only [ofDate]
  omega

theorem inRange_of_le (ha : a.InRange) (hb : b.InRange) (hat : a ≤ t) (htb : t ≤ b) : t.InRange :=
  ⟨Int.le_trans ha.1 (date_mono hat), Int.le_trans (date_mono htb) hb.2⟩

structure Proper (t : Reading) : Prop where
  inRange : t.InRange
  regular : t.Regular

theorem shift_seconds (h : t.Regular) (n : Int) :
    t.shift (-Span.ofSeconds n) = ⟨t.second - n, t.nano⟩ := by
  rw [shift_of_regular _ h]
  simp only [Regular] at h
  simp only [ofNanos, nanos, Span.nanos_neg, Span.ofSeconds, Reading.mk.injEq]
  omega

instance : PartialOrder Reading where
  le_refl t := .inr ⟨rfl, Nat.le_refl _⟩
  le_trans a b t hab hbt := by
    simp only [le_def] at *
    omega
  lt_iff_le_not_ge a b := by
    simp only [lt_def, le_def]
    omega
  le_antisymm a b hab hba := by
    obtain ⟨second, nano⟩ := a
    obtain ⟨second', nano'⟩ := b
    simp only [le_def, Reading.mk.injEq] at *
    omega

theorem not_le : ¬ a ≤ b ↔ b < a := by
  simp only [lt_def, le_def]
  omega

theorem not_lt : ¬ a < b ↔ b ≤ a := by
  simp only [lt_def, le_def]
  omega

theorem max_of_lt (h : b < a) : a.max b = a := by
  rw [max, if_neg (not_le.2 h)]

theorem le_max (a b : Reading) : a ≤ a.max b ∧ b ≤ a.max b := by
  by_cases h : a ≤ b
  · rw [max, if_pos h]
    exact ⟨h, le_refl b⟩
  · rw [max, if_neg h]
    exact ⟨le_refl a, le_of_lt (not_le.1 h)⟩

theorem lt_of_nanos_lt (hb : b.nano ≤ 1000000000) (h : a.nanos < b.nanos) : a < b := by
  simp only [lt_def, nanos] at *
  omega

theorem since_le (a b : Reading) :
    (b.since a).nanos ≤ b.nanos - a.nanos + if a.Regular then 0 else 1000000000 := by
  simp only [since, nanos]
  split
  · next hleap =>
    have hreg : ¬ a.Regular := Nat.not_lt.2 hleap.2
    rw [if_neg hreg]
    omega
  · split <;> split <;> omega

theorem shift_of_leap (ha : ¬ a.Regular) (hd : 0 < d.nanos) :
    a ≤ a.shift d ∧ ((a.shift d).second = a.second ∨
      (a.shift d).nanos = a.nanos + d.nanos - 1000000000) := by
  have hseconds : d.nanos.tdiv 1000000000 = d.nanos / 1000000000 :=
    Int.tdiv_eq_ediv_of_nonneg (Int.le_of_lt hd)
  have hnanos : d.nanos.tmod 1000000000 = d.nanos % 1000000000 :=
    Int.tmod_eq_emod_of_nonneg (Int.le_of_lt hd)
  have hleap : ¬ a.nano < 1000000000 := ha
  simp only [shift, if_neg hleap, hseconds, hnanos, carry]
  split
  · split
    · omega
    · split <;> simp only [le_def, nanos] <;> omega
  · rw [if_neg (by omega)]
    exact ⟨.inr ⟨rfl, by dsimp only; omega⟩, .inl rfl⟩

theorem shift_within (hb : b.nano ≤ 1000000000) (hab : a < b) (hd : 0 < d.nanos)
    (hlt : d < b.since a) : a ≤ a.shift d ∧ a.shift d < b := by
  have hsince := since_le a b
  rw [Span.lt_def] at hlt
  by_cases ha : a.Regular
  · rw [if_pos ha] at hsince
    rw [shift_of_regular d ha]
    refine ⟨?_, lt_of_nanos_lt hb ?_⟩
    · rw [le_iff_nanos ha (ofNanos_regular _), nanos_ofNanos]
      omega
    · rw [nanos_ofNanos]
      omega
  · rw [if_neg ha] at hsince
    obtain ⟨hle, hstays | hleaves⟩ := shift_of_leap ha hd
    · have hsecond : a.second < b.second := by
        simp only [lt_def, Regular] at hab ha
        omega
      exact ⟨hle, .inl (hstays ▸ hsecond)⟩
    · exact ⟨hle, lt_of_nanos_lt hb (by omega)⟩

theorem shift_seconds_near (ht : t.nano < 2000000000) (n : Int) :
    (t.shift (-Span.ofSeconds n)).nano ≤ t.nano ∧
      t.second - n ≤ (t.shift (-Span.ofSeconds n)).second ∧
      ((t.shift (-Span.ofSeconds n)).second ≤ t.second - n ∨
        (t.shift (-Span.ofSeconds n)).second ≤ t.second) := by
  by_cases hreg : t.Regular
  · rw [shift_seconds hreg]
    exact ⟨Nat.le_refl _, Int.le_refl _, .inl (Int.le_refl _)⟩
  · have hleap : ¬ t.nano < 1000000000 := hreg
    have hnanos : (-Span.ofSeconds n).nanos = -n * 1000000000 := by
      simp only [Span.nanos_neg, Span.ofSeconds]
      omega
    have hseconds : (-n * 1000000000).tdiv 1000000000 = -n := Int.mul_tdiv_cancel _ (by decide)
    have hrest : (-n * 1000000000).tmod 1000000000 = 0 := Int.mul_tmod_left _ _
    simp only [shift, if_neg hleap, hnanos, hseconds, hrest, carry]
    split
    · split
      · omega
      · split <;> dsimp only <;> omega
    · split
      · split
        · omega
        · split <;> dsimp only <;> omega
      · dsimp only
        omega

end Reading

namespace Zone

variable {zone : Zone} {w : WallTime} {s t : Instant}

def shown (zone : Zone) (t : Instant) : WallTime :=
  ⟨t.second + (zone.offsetAt t).seconds, t.nano⟩

/-- The clocks pass a reading once: only before the instant that it stands for do they show earlier
ones. -/
def Passes (zone : Zone) (w : WallTime) : Prop :=
  ∀ s t, zone.resolve w = .ok s → (s ≤ t ↔ w ≤ zone.shown t)

theorem Passes.lt_iff (h : zone.Passes w) (hs : zone.resolve w = .ok s) :
    t < s ↔ zone.shown t < w := by
  rw [← Reading.not_le, h s t hs, Reading.not_le]

section Fixed

variable {offset : Offset} (hz : zone = .fixed offset)
include hz

theorem shown_resolve (hs : zone.resolve w = .ok s) : zone.shown s = w := by
  subst hz
  obtain ⟨-, rfl⟩ := Reading.checked_eq_ok.1 hs
  simp only [shown, offsetAt, Int.sub_add_cancel]

theorem resolve_le_iff (hs : zone.resolve w = .ok s) : s ≤ t ↔ w ≤ zone.shown t := by
  subst hz
  obtain ⟨-, rfl⟩ := Reading.checked_eq_ok.1 hs
  simp only [shown, offsetAt, Reading.le_def]
  omega

theorem passes_of_fixed (w : WallTime) : zone.Passes w := fun _ _ => resolve_le_iff hz

theorem lt_resolve_iff (hs : zone.resolve w = .ok s) : t < s ↔ zone.shown t < w :=
  (passes_of_fixed hz w).lt_iff hs

theorem resolve_shown (ht : t.InRange) (hshown : zone.shown t = w) : zone.resolve w = .ok t := by
  subst hz hshown
  rw [resolve, Reading.checked_eq_ok]
  simp only [shown, offsetAt, Int.add_sub_cancel, ht, and_self]

end Fixed

theorem resolve_cases (hw : w.Regular) (h : zone.resolve w = .ok s) :
    s.InRange ∧ ∃ o : Offset, s = ⟨w.second - o.seconds, w.nano⟩ := by
  cases zone with
  | fixed offset =>
    obtain ⟨hin, rfl⟩ := Reading.checked_eq_ok.1 h
    exact ⟨hin, offset, rfl⟩
  | named name history =>
    simp only [resolve] at h
    cases hl : history.localOffset? w.second with
    | some offset =>
      simp only [hl] at h
      obtain ⟨hin, rfl⟩ := Reading.checked_eq_ok.1 h
      exact ⟨hin, offset, rfl⟩
    | none =>
      simp only [hl] at h
      obtain ⟨dayBefore, -, h⟩ := bind_eq_ok.1 h
      obtain ⟨hin, rfl⟩ := Reading.checked_eq_ok.1 h
      rw [Reading.shift_seconds hw] at hin ⊢
      exact ⟨hin, _, rfl⟩

theorem resolve_ok (zone : Zone) (hw : w.nano < 2000000000) (hfirst : Date.firstDay < w.date.day)
    (hlast : w.date.day < Date.lastDay) : ∃ s, zone.resolve w = .ok s := by
  have near {t : Reading} (hle : w.second - 86400 ≤ t.second)
      (hge : t.second ≤ w.second + 86400) : t.checked = .ok t := by
    refine if_pos ?_
    simp only [Reading.InRange, Date.InRange, Reading.date] at *
    omega
  have known (o : Offset) : Reading.checked ⟨w.second - o.seconds, w.nano⟩ =
      .ok ⟨w.second - o.seconds, w.nano⟩ := by
    have hwest := o.west
    have heast := o.east
    exact near (by dsimp only; omega) (by dsimp only; omega)
  have earlier (n : Int) (hwest : -86400 ≤ n) (heast : n ≤ 86400) :
      ∃ u, w.sub (.ofSeconds n) = .ok u := by
    obtain ⟨-, hle, hge⟩ := Reading.shift_seconds_near hw n
    exact ⟨_, near (by omega) (by omega)⟩
  cases zone with
  | fixed offset => exact ⟨_, known offset⟩
  | named name history =>
    simp only [resolve]
    cases history.localOffset? w.second with
    | some offset => exact ⟨_, known offset⟩
    | none =>
      obtain ⟨dayBefore, hday⟩ := earlier 86400 (by decide) (by decide)
      have hday : w.sub (.ofDays 1) = .ok dayBefore := hday
      simp only [hday, ok_bind]
      let offset := history.offsetAt dayBefore.second
      exact earlier offset.seconds (Int.le_of_lt offset.west) (Int.le_of_lt offset.east)

theorem resolve_ends (zone : Zone) (w : WallTime) :
    (zone.resolve w).Ends fun s => zone.resolve w = .ok s := by
  cases zone with
  | fixed offset => exact (Reading.checked_ends _).self
  | named name history =>
    simp only [resolve]
    split
    · exact (Reading.checked_ends _).self
    · refine Checked.Ends.self (p := fun _ => True) ?_
      refine (Reading.checked_ends _).bind fun dayBefore _ => ?_
      exact (Reading.checked_ends _).mono fun _ _ => trivial

theorem resolve_near (hw : w.nano < 2000000000) (h : zone.resolve w = .ok s) :
    s.InRange ∧ s.nano ≤ w.nano ∧ w.second - 86400 < s.second ∧ s.second < w.second + 86400 := by
  have hfixed (o : Offset) (h : Reading.checked ⟨w.second - o.seconds, w.nano⟩ = .ok s) :
      s.InRange ∧ s.nano ≤ w.nano ∧ w.second - 86400 < s.second ∧
        s.second < w.second + 86400 := by
    obtain ⟨hin, rfl⟩ := Reading.checked_eq_ok.1 h
    have hwest := o.west
    have heast := o.east
    exact ⟨hin, Nat.le_refl _, by dsimp only; omega, by dsimp only; omega⟩
  cases zone with
  | fixed offset => exact hfixed offset h
  | named name history =>
    simp only [resolve] at h
    split at h
    · exact hfixed _ h
    · obtain ⟨dayBefore, -, h⟩ := bind_eq_ok.1 h
      generalize history.offsetAt dayBefore.second = o at h
      obtain ⟨hin, rfl⟩ := Reading.checked_eq_ok.1 h
      have hwest := o.west
      have heast := o.east
      obtain ⟨hnano, hle, hge⟩ := Reading.shift_seconds_near hw o.seconds
      exact ⟨hin, hnano, by omega, by omega⟩

end Zone

end Followup
