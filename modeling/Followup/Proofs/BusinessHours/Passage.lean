import Followup.Proofs.BusinessHours.Addition
import Mathlib.Algebra.Order.BigOperators.Group.Finset
import Mathlib.Algebra.Order.Group.Int

/-! Business time that has passed by a later instant. At a fixed offset every window starts on the
date that it belongs to, so what the calendar tells up to the later instant is enough to follow an
addition that ends before it. -/

namespace Followup.BusinessHours

variable {h : BusinessHours} {offset : Offset} {d : Date} {s t u v : Instant} {amount b : Span}

theorem plain_of_fixed (hz : h.zone = .fixed offset) (hs : ¬ h.start.IsLeap)
    (hf : ¬ h.finish.IsLeap) : h.Plain :=
  { wellFormed_of_fixed hz with start := hs, finish := hf }

theorem part_nonneg (h : BusinessHours) (t u : Instant) (day : Int) : 0 ≤ h.part t u day := by
  rcases window_or_part_eq_zero h day with ⟨s, f, w⟩ | hnone
  · rw [part_of_window w]
    omega
  · exact Int.le_of_eq (hnone t u).symm

theorem elapsed_nonneg (h : BusinessHours) (t u : Instant) : 0 ≤ h.elapsed t u :=
  Finset.sum_nonneg fun day _ => h.part_nonneg t u day

section Plain

variable (hp : h.Plain)
include hp

theorem le_of_nextStart (ht : t.Proper) (hnext : h.nextStart t = .ok u) : t ≤ u := by
  obtain ⟨-, x, -, -, -, -, htu, -⟩ := of_nextStart hp ht hnext
  exact htu

theorem le_of_add (ht : t.Proper) (hadd : h.add t amount = .ok u) : t ≤ u := by
  obtain ⟨c, hopen, hspend⟩ := bind_eq_ok.1 hadd
  obtain ⟨b, -, hopen⟩ := bind_eq_ok.1 hopen
  cases b with
  | true =>
    cases hopen
    exact le_of_spend hp _ t _ ht hspend
  | false =>
    obtain ⟨-, x, -, -, -, hstart, htc, -⟩ := of_nextStart hp ht hopen
    exact le_trans htc (le_of_spend hp _ c _ (proper_of_resolve hp.start hstart) hspend)

theorem between_of_later (ht : t.Proper) (hv : v.Proper) (hu : u.Proper) (htv : t ≤ v) (hvu : v ≤ u)
    (hb : h.between t u = .ok b) : ∃ b', h.between v u = .ok b' := by
  rcases hvu.lt_or_eq with hlt | rfl
  · obtain ⟨hin, hlast, known⟩ := known_of_between hp ht hu (lt_of_le_of_lt htv hlt) hb
    have hdate := dateAt_le hp ht hv htv
    exact ⟨_, between_ok hp hv hu hvu (Int.le_trans hin.1 hdate) hlast fun y hy hyu =>
      known y (Int.le_trans hdate hy) hyu⟩
  · exact ⟨.zero, if_pos (le_refl v)⟩

theorem between_split (ht : t.Proper) (hu : u.Proper) (hv : v.Proper)
    (hopen : h.isOpen v = .ok true) (htu : t ≤ u) (huv : u ≤ v) (hb : h.between t v = .ok b) :
    h.between t u = .ok ⟨h.elapsed t u⟩ ∧ h.between u v = .ok ⟨h.elapsed u v⟩ ∧
      b.nanos = h.elapsed t u + h.elapsed u v := by
  have hinside := (isOpen_eq_true hp hv).1 hopen
  obtain ⟨-, -, htotal, upTo⟩ := between_of_le hp ht hv hinside (le_trans htu huv) hb
  obtain ⟨rest, hrest⟩ := between_of_later hp ht hu hv htu huv hb
  obtain ⟨-, -, -, upTo'⟩ := between_of_le hp hu hv hinside huv hrest
  exact ⟨upTo u hu htu huv, upTo' v hv huv (le_refl v),
    htotal.trans (elapsed_add hp ht hu hv htu huv)⟩

theorem le_between_of_add (hz : h.zone = .fixed offset) (ht : t.Proper)
    (hopen : h.isOpen t = .ok true) (hamount : .zero ≤ amount) (hadd : h.add t amount = .ok v)
    (hu : u.Proper) (hvu : v ≤ u) (hb : h.between t u = .ok b) : amount ≤ b := by
  have htu : t ≤ u := le_trans (le_of_add hp ht hadd) hvu
  have known : ∀ y : Date, (h.dateAt t).day ≤ y.day → y.day ≤ (h.dateAt u).day → h.Known y := by
    rcases htu.lt_or_eq with hlt | rfl
    · exact (known_of_between hp ht hu hlt hb).2.2
    · obtain ⟨d, s, f, w, hst, htf⟩ := (isOpen_eq_true hp ht).1 hopen
      intro y hy hyt
      have hdate : h.dateAt t = y := date_ext (Int.le_antisymm hy hyt)
      exact (hp.within w ht hst htf).symm.trans hdate ▸ fun _ => ⟨s, f, w⟩
  obtain ⟨hv, -, htv, htime⟩ := elapsed_of_add hp ht hamount hadd fun x s hx _ hstart hsv => by
    have hs := proper_of_resolve hp.start hstart
    have hdate := dateAt_le hp hs hu (le_trans hsv hvu)
    rw [dateAt_startOn hz hstart] at hdate
    exact known x hx hdate
  have htotal : b.nanos = h.elapsed t u := by
    rcases htu.lt_or_eq with hlt | rfl
    · obtain ⟨hin, hlast, -⟩ := known_of_between hp ht hu hlt hb
      rw [Except.ok.inj (hb.symm.trans (between_ok hp ht hu htu hin.1 hlast known))]
    · have hzero : h.between t t = .ok .zero := if_pos (le_refl t)
      rw [Except.ok.inj (hb.symm.trans hzero), elapsed_self hp ht, Span.nanos_zero]
  have hsum := elapsed_add hp ht hv hu htv hvu
  have hrest := h.elapsed_nonneg v u
  rw [Span.le_def]
  omega

theorem add_within {total : Span} (ht : t.Proper) (hv : h.Passed t total v)
    (hb : h.between t v = .ok total) (hpos : .zero < amount) (hlt : amount < total) :
    ∃ u, h.add t amount = .ok u ∧ t < u ∧ u < v ∧ u.Proper ∧ h.isOpen u = .ok true ∧
      h.between t u = .ok amount ∧ h.Passed u (total - amount) v ∧
      h.between u v = .ok (total - amount) := by
  obtain ⟨u, hadd, huv, hu, hexact⟩ := add_ok hp ht (Int.le_of_lt hpos)
    ⟨hv.proper, hv.le, hv.isOpen, total, hb, Int.le_of_lt hlt⟩
  obtain ⟨hfirst, hsecond, hsum⟩ := between_split hp ht hu.proper hv.proper hv.isOpen hu.le huv hb
  have hamount : amount.nanos = h.elapsed t u :=
    congrArg Span.nanos (Except.ok.inj (hexact.symm.trans hfirst))
  have hleft : total - amount = ⟨h.elapsed u v⟩ := Span.eq_of_nanos <| by
    rw [Span.nanos_sub]
    dsimp only
    omega
  have hrest : h.between u v = .ok (total - amount) := hleft ▸ hsecond
  rw [Span.lt_def, Span.nanos_zero] at hpos
  rw [Span.lt_def] at hlt
  refine ⟨u, hadd, lt_of_le_of_ne hu.le ?_, lt_of_le_of_ne huv ?_, hu.proper, hu.isOpen, hexact,
    ⟨hv.proper, huv, hv.isOpen, _, hrest, Int.le_refl _⟩, hrest⟩
  · rintro rfl
    have := elapsed_self hp ht
    omega
  · rintro rfl
    have := elapsed_self hp hv.proper
    omega

end Plain

end Followup.BusinessHours
