import Followup.Proofs.BusinessHours.Measure
import Mathlib.Order.Bounds.Basic

/-! Business time added to an instant. The walk from window to window uses up just what it has
passed, and so comes to the first open instant by which the amount has gone by. -/

namespace Followup.BusinessHours

variable {h : BusinessHours} {d e : Date} {s f s' f' t u v c : Instant} {amount : Span}

/-- An open instant by which an amount of business time has passed. -/
structure Passed (h : BusinessHours) (t : Instant) (amount : Span) (v : Instant) : Prop where
  proper : v.Proper
  le : t ≤ v
  isOpen : h.isOpen v = .ok true
  enough : ∃ b, h.between t v = .ok b ∧ amount ≤ b

section Plain

variable (hp : h.Plain)
include hp

theorem nextStart_finish (w : h.Window d s f) (w' : h.Window e s' f') (hde : d.day < e.day) :
    ∃ x c f₁, h.nextStart f = .ok c ∧ h.Window x c f₁ ∧ f ≤ c ∧ c ≤ s' ∧ h.elapsed f c = 0 := by
  have hf := w.finish_proper hp
  have hfs' := w.finish_le_start hp w' hde
  have hfirst := dateAt_le hp (w.start_proper hp) hf (le_of_lt (hp.ordered w))
  have hlast := dateAt_le hp hf (w'.start_proper hp) hfs'
  rw [w.dateAt_start hp] at hfirst
  rw [w'.dateAt_start hp] at hlast
  have hin : (h.dateAt f).InRange :=
    ⟨Int.le_trans w.inRange.1 hfirst, Int.le_trans hlast w'.inRange.2⟩
  have hk : h.Known (h.dateAt f) := by
    rcases Int.lt_or_eq_of_le hfirst with hlt | heq
    · rcases Int.lt_or_eq_of_le hlast with hlt' | heq'
      · exact known_of_lt (Int.lt_of_le_of_lt w.inRange.1 hlt)
          (Int.lt_of_lt_of_le hlt' w'.inRange.2)
      · exact date_ext heq' ▸ fun _ => ⟨_, _, w'⟩
    · exact date_ext heq ▸ fun _ => ⟨_, _, w⟩
  obtain ⟨x, c, f₁, hnext, wc, hfc, hcs', least⟩ := nextStart_ok hp w' hf hfs' hin hk
  refine ⟨x, c, f₁, hnext, wc, hfc, hcs', elapsed_eq_zero hp hf (wc.start_proper hp) ?_⟩
  exact fun y sy fy wy => (least y sy fy wy).imp_left (w.finish_le_finish hp wy)

theorem available (w : h.Window d s f) (hc : c.Proper) (hsc : s ≤ c) (hcf : c < f) :
    h.localDate c = .ok d ∧ (f.since c).nanos = f.nanos - c.nanos ∧ 0 < f.nanos - c.nanos := by
  have hf := w.finish_proper hp
  refine ⟨localDate_eq_ok.2 ⟨w.inRange, (hp.within w hc hsc hcf).symm⟩,
    Reading.since_of_regular hf.regular hc.regular, ?_⟩
  rw [Reading.lt_iff_nanos hc.regular hf.regular] at hcf
  omega

theorem spend_within (w : h.Window d s f) (hc : c.Proper) (hsc : s ≤ c) (hcf : c < f) (fuel : Nat)
    (hr : 0 < amount.nanos) (hlt : amount.nanos < f.nanos - c.nanos) :
    ∃ u, h.spend (fuel + 1) c amount = .ok u ∧ u.Proper ∧ c ≤ u ∧ u < f ∧
      u.nanos = c.nanos + amount.nanos := by
  obtain ⟨hdate, hsince, -⟩ := available hp w hc hsc hcf
  have hf := w.finish_proper hp
  have hreg := Reading.ofNanos_regular (c.nanos + amount.nanos)
  have hnanos := Reading.nanos_ofNanos (c.nanos + amount.nanos)
  have hcu : c ≤ Reading.ofNanos (c.nanos + amount.nanos) := by
    rw [Reading.le_iff_nanos hc.regular hreg]
    omega
  have huf : Reading.ofNanos (c.nanos + amount.nanos) < f := by
    rw [Reading.lt_iff_nanos hreg hf.regular]
    omega
  have hin := Reading.inRange_of_le hc.inRange hf.inRange hcu (le_of_lt huf)
  have hzero : ¬ amount ≤ Span.zero := Int.not_le.2 hr
  have havail : amount < f.since c := by
    rw [Span.lt_def, hsince]
    exact hlt
  refine ⟨_, ?_, ⟨hin, hreg⟩, hcu, huf, hnanos⟩
  rw [spend, if_neg hzero, hdate, ok_bind, w.finishOn, ok_bind]
  simp only [havail, if_true]
  rw [Reading.add, Reading.shift_of_regular _ hc.regular]
  exact if_pos hin

theorem spend_across (w : h.Window d s f) (hc : c.Proper) (hsc : s ≤ c) (hcf : c < f) (fuel : Nat)
    (hle : f.nanos - c.nanos ≤ amount.nanos) :
    h.spend (fuel + 1) c amount =
      (do h.spend fuel (← h.nextStart f) ⟨amount.nanos - (f.nanos - c.nanos)⟩) := by
  obtain ⟨hdate, hsince, hpos⟩ := available hp w hc hsc hcf
  have hzero : ¬ amount ≤ Span.zero := Int.not_le.2 (Int.lt_of_lt_of_le hpos hle)
  have havail : ¬ amount < f.since c := by
    rw [Span.lt_def, hsince]
    exact Int.not_lt.2 hle
  have hrest : amount - f.since c = ⟨amount.nanos - (f.nanos - c.nanos)⟩ :=
    Span.eq_of_nanos (by rw [Span.nanos_sub, hsince])
  rw [spend, if_neg hzero, hdate, ok_bind, w.finishOn, ok_bind]
  simp only [havail, if_false, hrest]

theorem spend_ok (hv : v.Proper) (hopen : h.Inside v) (fuel : Nat) (c : Instant) (r : Span)
    (hc : c.Proper) (hin : h.Inside c) (hcv : c ≤ v) (hr : 0 ≤ r.nanos)
    (hfuel : Date.lastDay - (h.dateAt c).day < fuel)
    (henough : r.nanos ≤ h.elapsed c v) :
    ∃ u, h.spend fuel c r = .ok u ∧ u.Proper ∧ h.Inside u ∧ c ≤ u ∧ u ≤ v ∧
      h.elapsed c u = r.nanos := by
  induction fuel generalizing c r with
  | zero =>
    obtain ⟨d, s, f, w, hsc, hcf⟩ := hin
    rw [hp.within w hc hsc hcf] at hfuel
    exact absurd w.inRange.2 (by omega)
  | succ fuel ih =>
    rcases Int.lt_or_eq_of_le hr with hpos | hzero
    · obtain ⟨d, s, f, w, hsc, hcf⟩ := hin
      have hf := w.finish_proper hp
      have hrest := (available hp w hc hsc hcf).2.2
      -- Up to the end of the window, business time is time.
      have inside (hvf : v < f) : h.elapsed c v = v.nanos - c.nanos :=
        elapsed_of_window hp w hc hv hsc hcv (le_of_lt hvf)
      by_cases hlt : r.nanos < f.nanos - c.nanos
      · obtain ⟨u, hspend, hu, hcu, huf, hnanos⟩ := spend_within hp w hc hsc hcf fuel hpos hlt
        refine ⟨u, hspend, hu, ⟨d, s, f, w, le_trans hsc hcu, huf⟩, hcu, ?_, ?_⟩
        · rw [← Reading.not_lt]
          intro hvu
          have := inside (lt_trans hvu huf)
          rw [Reading.lt_iff_nanos hv.regular hu.regular] at hvu
          omega
        · rw [elapsed_of_window hp w hc hu hsc hcu (le_of_lt huf), hnanos]
          omega
      · have hfv : f ≤ v := by
          rw [← Reading.not_lt]
          intro hvf
          have := inside hvf
          rw [Reading.lt_iff_nanos hv.regular hf.regular] at hvf
          omega
        obtain ⟨e, s', f', w', hs'v, hvf'⟩ := hopen
        have hde := w.day_lt hp w' (lt_of_le_of_lt hfv hvf')
        obtain ⟨x, c', f₁, hnext, wc, hfc', hc's', hgap⟩ := nextStart_finish hp w w' hde
        have hc' := wc.start_proper hp
        have hcc' := le_trans (le_of_lt hcf) hfc'
        have htime := elapsed_across hp w hc hc' hsc hcf hfc' hgap
        have hrestv := elapsed_add hp hc hc' hv hcc' (le_trans hc's' hs'v)
        -- The next window is one of a later date, so the fuel lasts.
        have hdx := w.day_lt hp wc (lt_of_le_of_lt hfc' (hp.ordered wc))
        rw [hp.within w hc hsc hcf] at hfuel
        obtain ⟨u, hspend, hu, hin, hc'u, huv, htime'⟩ := ih c' ⟨r.nanos - (f.nanos - c.nanos)⟩ hc'
          ⟨x, c', f₁, wc, le_refl c', hp.ordered wc⟩ (le_trans hc's' hs'v) (by dsimp only; omega)
          (by rw [wc.dateAt_start hp]; omega) (by dsimp only; omega)
        refine ⟨u, ?_, hu, hin, le_trans hcc' hc'u, huv, ?_⟩
        · rw [spend_across hp w hc hsc hcf fuel (Int.not_lt.1 hlt), hnext, ok_bind, hspend]
        · rw [elapsed_add hp hc hc' hu hcc' hc'u, htime, htime']
          dsimp only
          omega
    · refine ⟨c, ?_, hc, hin, le_refl c, hcv, ?_⟩
      · have hle : r ≤ Span.zero := Int.le_of_eq hzero.symm
        rw [spend, if_pos hle]
        rfl
      · rw [elapsed_self hp hc, hzero]

theorem firstOpen_ok (ht : t.Proper) (hopen : h.Inside v) (htv : t ≤ v)
    (hin : (h.dateAt t).InRange) (hk : h.Known (h.dateAt t)) :
    ∃ c, h.firstOpen t = .ok c ∧ c.Proper ∧ h.Inside c ∧ t ≤ c ∧ c ≤ v ∧ h.elapsed t c = 0 := by
  obtain ⟨b, hb⟩ := isOpen_ok hin hk
  cases b with
  | true =>
    refine ⟨t, ?_, ht, (isOpen_eq_true hp ht).1 hb, le_refl t, htv, elapsed_self hp ht⟩
    rw [firstOpen, hb]
    rfl
  | false =>
    have outside : ¬ h.Inside t := by
      rw [← isOpen_eq_true hp ht, hb]
      simp
    have before (y : Date) (sy fy : Instant) (wy : h.Window y sy fy) (hlt : sy < t) : fy ≤ t := by
      rw [← Reading.not_lt]
      exact fun htf => outside ⟨y, sy, fy, wy, le_of_lt hlt, htf⟩
    obtain ⟨e, s', f', w', hs'v, hvf'⟩ := hopen
    have hts' : t ≤ s' := by
      rw [← Reading.not_lt]
      exact fun hlt => absurd (lt_of_lt_of_le hvf' (before e s' f' w' hlt)) (not_lt_of_ge htv)
    obtain ⟨x, c, f₁, hnext, wc, htc, hcs', least⟩ := nextStart_ok hp w' ht hts' hin hk
    have hc := wc.start_proper hp
    refine ⟨c, ?_, hc, ⟨x, c, f₁, wc, le_refl c, hp.ordered wc⟩, htc, le_trans hcs' hs'v, ?_⟩
    · rw [firstOpen, hb, ok_bind]
      exact hnext
    · exact elapsed_eq_zero hp ht hc fun y sy fy wy =>
        (least y sy fy wy).imp_left (before y sy fy wy)

theorem between_of_le (ht : t.Proper) (hv : v.Proper) (hopen : h.Inside v) (htv : t ≤ v) {b : Span}
    (hb : h.between t v = .ok b) :
    (h.dateAt t).InRange ∧ h.Known (h.dateAt t) ∧ b.nanos = h.elapsed t v ∧
      ∀ u, u.Proper → t ≤ u → u ≤ v → h.between t u = .ok ⟨h.elapsed t u⟩ := by
  rcases htv.lt_or_eq with hlt | rfl
  · obtain ⟨hin, hlast, known⟩ := known_of_between hp ht hv hlt hb
    have upTo (u : Instant) (hu : u.Proper) (htu : t ≤ u) (huv : u ≤ v) :
        h.between t u = .ok ⟨h.elapsed t u⟩ := by
      have hdate := dateAt_le hp hu hv huv
      exact between_ok hp ht hu htu hin.1 (by omega) fun y hy hyu => known y hy (by omega)
    refine ⟨hin, known _ (Int.le_refl _) (dateAt_le hp ht hv htv), ?_, upTo⟩
    rw [Except.ok.inj (hb.symm.trans (upTo v hv htv (le_refl v)))]
  · obtain ⟨d, s, f, w, hst, htf⟩ := hopen
    have hdate := hp.within w ht hst htf
    have hzero : h.between t t = .ok .zero := by
      rw [between, if_pos (le_refl t)]
      rfl
    refine ⟨hdate ▸ w.inRange, hdate ▸ fun _ => ⟨s, f, w⟩, ?_, fun u _ htu hut => ?_⟩
    · rw [Except.ok.inj (hb.symm.trans hzero), elapsed_self hp ht, Span.nanos_zero]
    · obtain rfl := le_antisymm htu hut
      rw [hzero, elapsed_self hp ht]
      rfl

theorem add_ok (ht : t.Proper) (hamount : 0 ≤ amount.nanos) (hv : h.Passed t amount v) :
    ∃ u, h.add t amount = .ok u ∧ u ≤ v ∧ h.Passed t amount u ∧ h.between t u = .ok amount := by
  obtain ⟨b, hb, hle⟩ := hv.enough
  have hopen := (isOpen_eq_true hp hv.proper).1 hv.isOpen
  obtain ⟨hin, hk, htotal, upTo⟩ := between_of_le hp ht hv.proper hopen hv.le hb
  obtain ⟨c, hfirst, hc, hinside, htc, hcv, hgap⟩ := firstOpen_ok hp ht hopen hv.le hin hk
  have henough : amount.nanos ≤ h.elapsed c v := by
    have hsum := elapsed_add hp ht hc hv.proper htc hcv
    rw [Span.le_def] at hle
    omega
  have hlimit : Date.lastDay - (h.dateAt c).day < (spendLimit : Nat) := by
    obtain ⟨d, s, f, w, hsc, hcf⟩ := hinside
    have hfirst := w.inRange.1
    rw [hp.within w hc hsc hcf, spendLimit]
    omega
  obtain ⟨u, hspend, hu, hinu, hcu, huv, htime⟩ := spend_ok hp hv.proper hopen spendLimit c amount
    hc hinside hcv hamount hlimit henough
  have htu := le_trans htc hcu
  have hexact : h.between t u = .ok amount := by
    rw [upTo u hu htu huv, elapsed_add hp ht hc hu htc hcu, hgap, htime, Int.zero_add]
  refine ⟨u, ?_, huv, ⟨hu, htu, (isOpen_eq_true hp hu).2 hinu, amount, hexact, ?_⟩, hexact⟩
  · rw [add, hfirst]
    exact hspend
  · exact Int.le_refl _

theorem inside_of_nextStart (ht : t.Proper) (hnext : h.nextStart t = .ok c)
    (known : ∀ x : Date, (h.dateAt t).day ≤ x.day → x.InRange → h.startOn x = .ok c → h.Known x)
    (hnew : ∀ d s f, h.Window d s f → s < t → f ≤ t) :
    t ≤ c ∧ c.Proper ∧ h.Inside c ∧ h.elapsed t c = 0 := by
  obtain ⟨-, x, hdx, hx, hb, hstart, htc, least⟩ := of_nextStart hp ht hnext
  have hc := proper_of_resolve hp.start hstart
  obtain ⟨sx, fx, wx⟩ := known x hdx hx hstart hb
  obtain rfl := Except.ok.inj (hstart.symm.trans wx.startOn)
  refine ⟨htc, hc, ⟨x, c, fx, wx, le_refl c, hp.ordered wx⟩, ?_⟩
  refine elapsed_eq_zero hp ht hc fun y sy fy wy => ?_
  by_cases hyx : y.day < x.day
  · exact .inl (hnew y sy fy wy (least y sy fy wy hyx))
  · exact .inr (wx.start_le_start hp wy (Int.not_lt.1 hyx))

theorem add_le_of_spend (fuel : Nat) (c : Instant) (r : Span) (hc : c.Proper)
    (hspend : h.spend fuel c r = .ok u) : u.Regular ∧ c.nanos + r.nanos ≤ u.nanos := by
  induction fuel generalizing c r with
  | zero => cases hspend
  | succ fuel ih =>
    rw [spend] at hspend
    split at hspend
    · next hr =>
      cases hspend
      have : r.nanos ≤ 0 := hr
      exact ⟨hc.regular, by omega⟩
    · obtain ⟨d, -, hspend⟩ := bind_eq_ok.1 hspend
      obtain ⟨f, hfinish, hspend⟩ := bind_eq_ok.1 hspend
      have hf := proper_of_resolve hp.finish hfinish
      have hsince := Reading.since_of_regular hf.regular hc.regular
      dsimp only at hspend
      split at hspend
      · have hu := Reading.add_eq_ok hspend
        rw [Reading.shift_of_regular _ hc.regular] at hu
        exact hu ▸ ⟨Reading.ofNanos_regular _, Int.le_of_eq (Reading.nanos_ofNanos _).symm⟩
      · obtain ⟨c', hnext, hspend⟩ := bind_eq_ok.1 hspend
        obtain ⟨-, x, -, -, -, hstart, hfc', -⟩ := of_nextStart hp hf hnext
        have hc' := proper_of_resolve hp.start hstart
        rw [Reading.le_iff_nanos hf.regular hc'.regular] at hfc'
        obtain ⟨hreg, hle⟩ := ih c' _ hc' hspend
        rw [Span.nanos_sub] at hle
        exact ⟨hreg, by omega⟩

theorem le_of_spend (fuel : Nat) (c : Instant) (r : Span) (hc : c.Proper)
    (hspend : h.spend fuel c r = .ok u) : c ≤ u := by
  rcases Int.le_total 0 r.nanos with hr | hr
  · obtain ⟨hu, hle⟩ := add_le_of_spend hp fuel c r hc hspend
    rw [Reading.le_iff_nanos hc.regular hu]
    omega
  · cases fuel with
    | zero => cases hspend
    | succ fuel =>
      have hnone : r ≤ Span.zero := hr
      rw [spend, if_pos hnone] at hspend
      cases hspend
      exact le_refl u

theorem of_spend (fuel : Nat) (c : Instant) (r : Span) (hc : c.Proper) (hin : h.Inside c)
    (hr : 0 ≤ r.nanos) (hspend : h.spend fuel c r = .ok u)
    (known : ∀ (x : Date) s, (h.dateAt c).day ≤ x.day → x.InRange → h.startOn x = .ok s → s ≤ u →
      h.Known x) :
    u.Proper ∧ h.Inside u ∧ c ≤ u ∧ h.elapsed c u = r.nanos := by
  induction fuel generalizing c r with
  | zero => cases hspend
  | succ fuel ih =>
    rcases Int.lt_or_eq_of_le hr with hpos | hzero
    · obtain ⟨d, s, f, w, hsc, hcf⟩ := hin
      have hf := w.finish_proper hp
      by_cases hlt : r.nanos < f.nanos - c.nanos
      · obtain ⟨u', hspend', hu, hcu, huf, hnanos⟩ := spend_within hp w hc hsc hcf fuel hpos hlt
        obtain rfl := Except.ok.inj (hspend.symm.trans hspend')
        refine ⟨hu, ⟨d, s, f, w, le_trans hsc hcu, huf⟩, hcu, ?_⟩
        rw [elapsed_of_window hp w hc hu hsc hcu (le_of_lt huf), hnanos]
        omega
      · rw [spend_across hp w hc hsc hcf fuel (Int.not_lt.1 hlt)] at hspend
        obtain ⟨c', hnext, hspend⟩ := bind_eq_ok.1 hspend
        obtain ⟨-, x, -, -, -, hstart, -⟩ := of_nextStart hp hf hnext
        have hc'u := le_of_spend hp fuel c' _ (proper_of_resolve hp.start hstart) hspend
        have hdate := dateAt_le hp hc hf (le_of_lt hcf)
        -- The walk ends after each start that it comes to.
        obtain ⟨hfc', hc', hin', hgap⟩ := inside_of_nextStart hp hf hnext
          (fun y hy hyin hstart => known y c' (Int.le_trans hdate hy) hyin hstart hc'u)
          (fun y sy fy wy => w.finish_le_finish hp wy)
        have hcc' := le_trans (le_of_lt hcf) hfc'
        have hdate' := dateAt_le hp hc hc' hcc'
        obtain ⟨hu, hinu, -, htime⟩ := ih c' _ hc' hin' (by dsimp only; omega) hspend
          fun y s hy => known y s (Int.le_trans hdate' hy)
        refine ⟨hu, hinu, le_trans hcc' hc'u, ?_⟩
        rw [elapsed_add hp hc hc' hu hcc' hc'u, htime,
          elapsed_across hp w hc hc' hsc hcf hfc' hgap]
        dsimp only
        omega
    · have hle : r ≤ Span.zero := Int.le_of_eq hzero.symm
      rw [spend, if_pos hle] at hspend
      cases hspend
      exact ⟨hc, hin, le_refl u, by rw [elapsed_self hp hc, hzero]⟩

theorem elapsed_of_add (ht : t.Proper) (hamount : 0 ≤ amount.nanos) (hadd : h.add t amount = .ok u)
    (known : ∀ (x : Date) s, (h.dateAt t).day ≤ x.day → x.InRange → h.startOn x = .ok s → s ≤ u →
      h.Known x) :
    u.Proper ∧ h.Inside u ∧ t ≤ u ∧ h.elapsed t u = amount.nanos := by
  obtain ⟨c, hopen, hspend⟩ := bind_eq_ok.1 hadd
  obtain ⟨b, hb, hopen⟩ := bind_eq_ok.1 hopen
  obtain ⟨htc, hc, hin, hgap⟩ : t ≤ c ∧ c.Proper ∧ h.Inside c ∧ h.elapsed t c = 0 := by
    cases b with
    | true =>
      cases hopen
      exact ⟨le_refl t, ht, (isOpen_eq_true hp ht).1 hb, elapsed_self hp ht⟩
    | false =>
      obtain ⟨-, x, -, -, -, hstart, -⟩ := of_nextStart hp ht hopen
      have hcu := le_of_spend hp _ c _ (proper_of_resolve hp.start hstart) hspend
      refine inside_of_nextStart hp ht hopen
        (fun y hy hyin hstart => known y c hy hyin hstart hcu) fun y sy fy wy hlt => ?_
      rw [← Reading.not_lt]
      intro htf
      have := (isOpen_eq_true hp ht).2 ⟨y, sy, fy, wy, le_of_lt hlt, htf⟩
      rw [hb] at this
      cases this
  have hdate := dateAt_le hp ht hc htc
  obtain ⟨hu, hinu, hcu, htime⟩ := of_spend hp _ c amount hc hin hamount hspend
    fun y s hy => known y s (Int.le_trans hdate hy)
  refine ⟨hu, hinu, le_trans htc hcu, ?_⟩
  rw [elapsed_add hp ht hc hu htc hcu, hgap, htime, Int.zero_add]

theorem of_add (ht : t.Proper) (hamount : 0 ≤ amount.nanos) (hadd : h.add t amount = .ok u)
    (hfirst : Date.firstDay < (h.dateAt t).day) (hlast : u.date.day + 1 < Date.lastDay) :
    h.Passed t amount u := by
  obtain ⟨hu, hinu, htu, htime⟩ := elapsed_of_add hp ht hamount hadd fun x s hx _ hstart hsu => by
    -- A start on the last date of the calendar would come too late.
    have hday := day_of_startOn hp.start hstart
    have hmono := Reading.date_mono hsu
    exact known_of_lt (Int.lt_of_lt_of_le hfirst hx) (by omega)
  have hdate := h.day_dateAt u
  have hexact : h.between t u = .ok amount := by
    rw [between_ok hp ht hu htu (Int.le_of_lt hfirst) (by omega) fun y hy hyu =>
      known_of_lt (Int.lt_of_lt_of_le hfirst hy) (by omega), htime]
  exact ⟨hu, htu, (isOpen_eq_true hp hu).2 hinu, amount, hexact, Int.le_refl _⟩

end Plain

/-- In well-formed hours, addition gives the least open instant by which the amount has passed, and
by then it has passed exactly. It does so wherever there is such an instant, and, away from the
ends of the calendar, wherever it gives one at all. Hours at a fixed offset are well-formed. -/
theorem add_exact :
    (∀ (h : BusinessHours) (offset : Offset), h.zone = .fixed offset → h.WellFormed) ∧
    ∀ (h : BusinessHours) (t : Instant) (amount : Span), h.WellFormed → ¬ h.start.IsLeap →
      ¬ h.finish.IsLeap → t.Proper → .zero ≤ amount →
      ((∃ v, h.Passed t amount v) → ∃ u, h.add t amount = .ok u ∧
        IsLeast {v | h.Passed t amount v} u ∧ h.between t u = .ok amount) ∧
      (∀ u, h.add t amount = .ok u → Date.firstDay < (h.dateAt t).day →
        u.date.day + 1 < Date.lastDay →
        IsLeast {v | h.Passed t amount v} u ∧ h.between t u = .ok amount) := by
  refine ⟨fun h offset hz => wellFormed_of_fixed hz, fun h t amount hwf hs hf ht hamount => ?_⟩
  have hp : h.Plain := { hwf with start := hs, finish := hf }
  have exact_of (v : Instant) (hv : h.Passed t amount v) : ∃ u, h.add t amount = .ok u ∧
      IsLeast {v | h.Passed t amount v} u ∧ h.between t u = .ok amount := by
    obtain ⟨u, hadd, -, hu, hexact⟩ := add_ok hp ht hamount hv
    refine ⟨u, hadd, ⟨hu, fun v' hv' => ?_⟩, hexact⟩
    obtain ⟨u', hadd', hle, -, -⟩ := add_ok hp ht hamount hv'
    rwa [Except.ok.inj (hadd.symm.trans hadd')]
  refine ⟨fun ⟨v, hv⟩ => exact_of v hv, fun u hadd hfirst hlast => ?_⟩
  obtain ⟨u', hadd', hleast⟩ := exact_of u (of_add hp ht hamount hadd hfirst hlast)
  rwa [Except.ok.inj (hadd.symm.trans hadd')]

theorem add_exact_weekend :
    ∃ u, standard.add ⟨1792789200, 0⟩ (.ofHours 2) = .ok u ∧ u = ⟨1792998000, 0⟩ ∧
      IsLeast {v | standard.Passed ⟨1792789200, 0⟩ (.ofHours 2) v} u ∧
      standard.between ⟨1792789200, 0⟩ u = .ok (.ofHours 2) := by
  have hexact := add_exact.2 standard ⟨1792789200, 0⟩ (.ofHours 2) (add_exact.1 standard .utc rfl)
    (by decide) (by decide) ⟨by decide, by decide⟩ (by decide)
  have hmonday := hexact.2 ⟨1792998000, 0⟩ rfl (by decide) (by decide)
  obtain ⟨u, hadd, hu⟩ := hexact.1 ⟨_, hmonday.1.1⟩
  exact ⟨u, hadd, Except.ok.inj (hadd.symm.trans rfl), hu⟩

end Followup.BusinessHours
