import Followup.Proofs.BusinessHours.Window
import Mathlib.Algebra.BigOperators.Group.Finset.Basic

/-! Business time as a measure: what the windows have in common with a stretch of time, summed over
the dates that the stretch touches. -/

namespace Followup

namespace Reading

variable {a b : Reading}

theorem nanos_max (ha : a.Regular) (hb : b.Regular) :
    (a.max b).Regular ∧ (a.max b).nanos = Max.max a.nanos b.nanos := by
  rw [Reading.max]
  split
  · next hab =>
    rw [le_iff_nanos ha hb] at hab
    exact ⟨hb, by omega⟩
  · next hab =>
    rw [le_iff_nanos ha hb] at hab
    exact ⟨ha, by omega⟩

theorem nanos_min (ha : a.Regular) (hb : b.Regular) :
    (a.min b).Regular ∧ (a.min b).nanos = Min.min a.nanos b.nanos := by
  rw [Reading.min]
  split
  · next hab =>
    rw [le_iff_nanos ha hb] at hab
    exact ⟨ha, by omega⟩
  · next hab =>
    rw [le_iff_nanos ha hb] at hab
    exact ⟨hb, by omega⟩

end Reading

theorem Span.eq_of_nanos {a b : Span} (hab : a.nanos = b.nanos) : a = b := congrArg Span.mk hab

namespace BusinessHours

variable {h : BusinessHours} {d : Date} {s f t u v : Instant} {day : Int} {n : Nat} {total b : Span}

def part (h : BusinessHours) (t u : Instant) (day : Int) : Int :=
  if Date.InRange ⟨day⟩ ∧ h.isBusinessDay ⟨day⟩ = true then
    match h.startOn ⟨day⟩, h.finishOn ⟨day⟩ with
    | .ok s, .ok f => Max.max 0 (Min.min f.nanos u.nanos - Max.max s.nanos t.nanos)
    | _, _ => 0
  else 0

def dayRange (first last : Int) : Finset Int :=
  (Finset.range (last - first + 1).toNat).image fun i : Nat => first + i

/-- The business time from one instant up to another, in nanoseconds. -/
def elapsed (h : BusinessHours) (t u : Instant) : Int :=
  ∑ day ∈ dayRange (h.dateAt t).day (h.dateAt u).day, h.part t u day

theorem mem_dayRange {first last : Int} : day ∈ dayRange first last ↔ first ≤ day ∧ day ≤ last := by
  rw [dayRange, Finset.mem_image]
  constructor
  · rintro ⟨i, hi, rfl⟩
    have hi := Finset.mem_range.1 hi
    omega
  · intro hday
    exact ⟨(day - first).toNat, Finset.mem_range.2 (by omega), by omega⟩

theorem sum_dayRange (g : Int → Int) (first last : Int) :
    ∑ day ∈ dayRange first last, g day =
      ∑ i ∈ Finset.range (last - first + 1).toNat, g (first + i) :=
  Finset.sum_image fun _ _ _ _ hij => Int.ofNat_inj.1 (Int.add_left_cancel hij)

theorem part_of_window (w : h.Window ⟨day⟩ s f) (t u : Instant) :
    h.part t u day = Max.max 0 (Min.min f.nanos u.nanos - Max.max s.nanos t.nanos) := by
  rw [part, if_pos ⟨w.inRange, w.isBusinessDay⟩, w.startOn, w.finishOn]

theorem window_or_part_eq_zero (h : BusinessHours) (day : Int) :
    (∃ s f, h.Window ⟨day⟩ s f) ∨ ∀ t u, h.part t u day = 0 := by
  by_cases hb : Date.InRange ⟨day⟩ ∧ h.isBusinessDay ⟨day⟩ = true
  · simp only [part, if_pos hb]
    cases hs : h.startOn ⟨day⟩ with
    | error fault => exact .inr fun _ _ => rfl
    | ok s =>
      cases hf : h.finishOn ⟨day⟩ with
      | error fault => exact .inr fun _ _ => rfl
      | ok f => exact .inl ⟨s, f, hb.1, hb.2, hs, hf⟩
  · exact .inr fun t u => if_neg hb

theorem known_of_share {p : Span} (hs : h.share t u d = .ok p) (hd : d.InRange) : h.Known d := by
  intro hb
  simp only [share, hb, if_true] at hs
  obtain ⟨s, hstart, hs⟩ := bind_eq_ok.1 hs
  obtain ⟨f, hfinish, -⟩ := bind_eq_ok.1 hs
  exact ⟨s, f, hd, hb, hstart, hfinish⟩

theorem known_of_collect (n : Nat) (d : Date) (total : Span)
    (hc : h.collect t u n d total = .ok b) (hd : d.InRange) :
    (0 < n → d.day + n ≤ Date.lastDay) ∧
      ∀ y : Date, d.day ≤ y.day → y.day < d.day + n → h.Known y := by
  induction n generalizing d total with
  | zero => exact ⟨fun hn => absurd hn (Nat.lt_irrefl 0), fun y hy hyn => by omega⟩
  | succ n ih =>
    obtain ⟨p, hs, hc⟩ := bind_eq_ok.1 hc
    obtain ⟨next, hnext, hc⟩ := bind_eq_ok.1 hc
    obtain ⟨hlt, rfl⟩ := next_eq_ok.1 hnext
    obtain ⟨hlast, known⟩ := ih ⟨d.day + 1⟩ _ hc ⟨by have := hd.1; dsimp only; omega, hlt⟩
    dsimp only at hlast known
    refine ⟨fun _ => by omega, fun y hy hyn => ?_⟩
    rcases Int.lt_or_eq_of_le hy with hy | hy
    · exact known y hy (by omega)
    · exact date_ext hy ▸ known_of_share hs hd

section Plain

variable (hp : h.Plain)
include hp

theorem part_eq_zero (ht : t.Proper) (hu : u.Proper)
    (hz : ∀ s f, h.Window ⟨day⟩ s f → f ≤ t ∨ u ≤ s) : h.part t u day = 0 := by
  rcases window_or_part_eq_zero h day with ⟨s, f, w⟩ | hnone
  · rw [part_of_window w]
    have hout := hz s f w
    rw [Reading.le_iff_nanos (w.finish_proper hp).regular ht.regular,
      Reading.le_iff_nanos hu.regular (w.start_proper hp).regular] at hout
    omega
  · exact hnone t u

theorem part_of_notMem (ht : t.Proper) (hu : u.Proper)
    (hday : day ∉ dayRange (h.dateAt t).day (h.dateAt u).day) : h.part t u day = 0 := by
  refine part_eq_zero hp ht hu fun s f w => ?_
  rw [mem_dayRange, not_and_or, Int.not_le, Int.not_le] at hday
  rcases hday with hlt | hlt
  · left
    rw [← Reading.not_lt]
    intro htf
    have hdate := hp.within w ht (le_of_lt (w.start_lt hp ht hlt)) htf
    rw [hdate] at hlt
    exact Int.lt_irrefl _ hlt
  · exact .inr (le_of_lt (w.lt_start hp hu hlt))

theorem elapsed_eq_sum (ht : t.Proper) (hu : u.Proper) {first last : Int}
    (hfirst : first ≤ (h.dateAt t).day) (hlast : (h.dateAt u).day ≤ last) :
    h.elapsed t u = ∑ day ∈ dayRange first last, h.part t u day := by
  refine Finset.sum_subset (fun day hday => ?_) fun _ _ hday => part_of_notMem hp ht hu hday
  rw [mem_dayRange] at hday ⊢
  exact ⟨Int.le_trans hfirst hday.1, Int.le_trans hday.2 hlast⟩

theorem part_add (ht : t.Proper) (hu : u.Proper) (hv : v.Proper) (htu : t ≤ u) (huv : u ≤ v)
    (day : Int) : h.part t v day = h.part t u day + h.part u v day := by
  rcases window_or_part_eq_zero h day with ⟨s, f, w⟩ | hnone
  · rw [Reading.le_iff_nanos ht.regular hu.regular] at htu
    rw [Reading.le_iff_nanos hu.regular hv.regular] at huv
    have hsf := (Reading.lt_iff_nanos (w.start_proper hp).regular (w.finish_proper hp).regular).1
      (hp.ordered w)
    simp only [part_of_window w]
    omega
  · simp only [hnone, Int.add_zero]

theorem elapsed_add (ht : t.Proper) (hu : u.Proper) (hv : v.Proper) (htu : t ≤ u) (huv : u ≤ v) :
    h.elapsed t v = h.elapsed t u + h.elapsed u v := by
  -- Both stretches are summed over all the days that the whole one touches.
  rw [elapsed_eq_sum hp ht hu (Int.le_refl _) (dateAt_le hp hu hv huv),
    elapsed_eq_sum hp hu hv (dateAt_le hp ht hu htu) (Int.le_refl _), ← Finset.sum_add_distrib]
  exact Finset.sum_congr rfl fun day _ => part_add hp ht hu hv htu huv day

theorem elapsed_eq_zero (ht : t.Proper) (hu : u.Proper)
    (hz : ∀ d s f, h.Window d s f → f ≤ t ∨ u ≤ s) : h.elapsed t u = 0 :=
  Finset.sum_eq_zero fun _ _ => part_eq_zero hp ht hu fun s f w => hz _ s f w

theorem elapsed_self (ht : t.Proper) : h.elapsed t t = 0 := by
  refine Finset.sum_eq_zero fun day _ => ?_
  have := part_add hp ht ht ht (le_refl t) (le_refl t) day
  omega

theorem elapsed_of_window (w : h.Window d s f) (ht : t.Proper) (hu : u.Proper) (hst : s ≤ t)
    (htu : t ≤ u) (huf : u ≤ f) : h.elapsed t u = u.nanos - t.nanos := by
  rcases htu.lt_or_eq with hlt | rfl
  · have hdate := hp.within w ht hst (lt_of_lt_of_le hlt huf)
    have hmem : d.day ∈ dayRange (h.dateAt t).day (h.dateAt u).day := by
      rw [mem_dayRange]
      exact ⟨Int.le_of_eq (congrArg Date.day hdate), hdate ▸ dateAt_le hp ht hu htu⟩
    rw [elapsed, Finset.sum_eq_single_of_mem d.day hmem, part_of_window w]
    · rw [Reading.le_iff_nanos (w.start_proper hp).regular ht.regular] at hst
      rw [Reading.le_iff_nanos hu.regular (w.finish_proper hp).regular] at huf
      rw [Reading.lt_iff_nanos ht.regular hu.regular] at hlt
      omega
    · intro day _ hne
      refine part_eq_zero hp ht hu fun s' f' w' => ?_
      rcases Int.lt_or_gt_of_ne hne with hbefore | hafter
      · exact .inl (le_trans (w'.finish_le_start hp w hbefore) hst)
      · exact .inr (le_trans huf (w.finish_le_start hp w' hafter))
  · rw [elapsed_self hp ht, Int.sub_self]

theorem elapsed_across {c c' : Instant} (w : h.Window d s f) (hc : c.Proper) (hc' : c'.Proper)
    (hsc : s ≤ c) (hcf : c < f) (hfc' : f ≤ c') (hgap : h.elapsed f c' = 0) :
    h.elapsed c c' = f.nanos - c.nanos := by
  have hf := w.finish_proper hp
  rw [elapsed_add hp hc hf hc' (le_of_lt hcf) hfc', hgap, Int.add_zero]
  exact elapsed_of_window hp w hc hf hsc (le_of_lt hcf) (le_refl f)

theorem share_ok (ht : t.Proper) (hu : u.Proper) (hk : h.Known d) :
    h.share t u d = .ok ⟨h.part t u d.day⟩ := by
  cases hb : h.isBusinessDay d with
  | false =>
    have hpart : h.part t u d.day = 0 := if_neg (by simp [hb])
    simp only [share, hb, hpart]
    rfl
  | true =>
    obtain ⟨s, f, w⟩ := hk hb
    have hlow := Reading.nanos_max (w.start_proper hp).regular ht.regular
    have hhigh := Reading.nanos_min (w.finish_proper hp).regular hu.regular
    simp only [share, hb, if_true, w.startOn, w.finishOn, ok_bind, part_of_window w, pure,
      Except.pure, Except.ok.injEq]
    have hsince := Reading.since_of_regular hhigh.1 hlow.1
    split
    · next hlt =>
      rw [Reading.lt_iff_nanos hlow.1 hhigh.1] at hlt
      refine Span.eq_of_nanos (hsince.trans ?_)
      dsimp only
      omega
    · next hge =>
      rw [Reading.lt_iff_nanos hlow.1 hhigh.1] at hge
      refine Span.eq_of_nanos ?_
      rw [Span.nanos_zero]
      dsimp only
      omega

theorem collect_ok (ht : t.Proper) (hu : u.Proper) (n : Nat) (d : Date) (total : Span)
    (hlast : d.day + n ≤ Date.lastDay)
    (known : ∀ y : Date, d.day ≤ y.day → y.day < d.day + n → h.Known y) :
    h.collect t u n d total =
      .ok ⟨total.nanos + ∑ i ∈ Finset.range n, h.part t u (d.day + i)⟩ := by
  induction n generalizing d total with
  | zero => simp [collect]
  | succ n ih =>
    have hnext : d.next = .ok ⟨d.day + 1⟩ := next_eq_ok.2 ⟨by omega, rfl⟩
    rw [collect, share_ok hp ht hu (known d (Int.le_refl _) (by omega)), ok_bind, hnext, ok_bind,
      ih ⟨d.day + 1⟩ _ (by dsimp only; omega) fun y hy hyn =>
        known y (by dsimp only at hy; omega) (by dsimp only at hyn; omega)]
    rw [Finset.sum_range_succ']
    have hshift : ∀ i : Nat, d.day + ((i + 1 : Nat) : Int) = d.day + 1 + i := fun i => by omega
    simp only [hshift, Span.nanos_add, Int.natCast_zero, Int.add_zero]
    refine congrArg Except.ok (Span.eq_of_nanos ?_)
    dsimp only
    omega

theorem between_ok (ht : t.Proper) (hu : u.Proper) (htu : t ≤ u)
    (hfirst : Date.firstDay ≤ (h.dateAt t).day) (hlast : (h.dateAt u).day < Date.lastDay)
    (known : ∀ y : Date, (h.dateAt t).day ≤ y.day → y.day ≤ (h.dateAt u).day → h.Known y) :
    h.between t u = .ok ⟨h.elapsed t u⟩ := by
  rcases htu.lt_or_eq with hlt | rfl
  · have hdate := dateAt_le hp ht hu htu
    have hdt : h.localDate t = .ok (h.dateAt t) :=
      localDate_eq_ok.2 ⟨⟨hfirst, by omega⟩, rfl⟩
    have hdu : h.localDate u = .ok (h.dateAt u) :=
      localDate_eq_ok.2 ⟨⟨by omega, by omega⟩, rfl⟩
    rw [between, if_neg (Reading.not_le.2 hlt), hdt, ok_bind, hdu, ok_bind,
      collect_ok hp ht hu _ _ _ (by omega) fun y hy hyu => known y hy (by omega),
      ← sum_dayRange]
    rw [Span.nanos_zero, Int.zero_add, elapsed]
  · rw [between, if_pos (le_refl t), elapsed_self hp ht]
    rfl

theorem known_of_between (ht : t.Proper) (hu : u.Proper) (hlt : t < u)
    (hb : h.between t u = .ok b) :
    (h.dateAt t).InRange ∧ (h.dateAt u).day < Date.lastDay ∧
      ∀ y : Date, (h.dateAt t).day ≤ y.day → y.day ≤ (h.dateAt u).day → h.Known y := by
  have hdate := dateAt_le hp ht hu (le_of_lt hlt)
  rw [between, if_neg (Reading.not_le.2 hlt)] at hb
  obtain ⟨first, hfirst, hb⟩ := bind_eq_ok.1 hb
  obtain ⟨last, hlast, hb⟩ := bind_eq_ok.1 hb
  obtain ⟨hin, rfl⟩ := localDate_eq_ok.1 hfirst
  obtain ⟨-, rfl⟩ := localDate_eq_ok.1 hlast
  obtain ⟨hend, known⟩ := known_of_collect _ _ _ hb hin
  exact ⟨hin, by omega, fun y hy hyu => known y hy (by omega)⟩

end Plain

end BusinessHours

end Followup
