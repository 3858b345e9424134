import Followup.Proofs.BusinessHours.Passage
import Followup.Proofs.BusinessHours.Reach

/-! Business time and business hours agree. Membership goes by the weekday and the time of day that
a clock shows, and business time adds up over consecutive stretches, whole where all of a stretch is
open and none where nothing of it is. -/

namespace Followup

namespace Reading

variable {w : Reading} {date : Date} {a b : TimeOfDay}

theorem exists_ofDate (hw : w.nano < 2000000000) : ∃ time, w = .ofDate w.date time := by
  obtain ⟨second, nano⟩ := w
  refine ⟨⟨(second % 86400).toNat, nano, by omega, hw⟩, ?_⟩
  simp only [ofDate, date, Reading.mk.injEq, and_true]
  omega

theorem ofDate_lt_ofDate : ofDate date a < ofDate date b ↔ a < b := by
  simp only [TimeOfDay.lt_def, lt_def, ofDate]
  omega

end Reading

namespace BusinessHours

variable {h : BusinessHours} {offset : Offset} {t u v : Instant} {early total : Span}

/-- By the clocks of the zone, an instant lies in the window of a business day. -/
structure InHours (h : BusinessHours) (t : Instant) : Prop where
  isBusinessDay : h.isBusinessDay (h.dateAt t) = true
  start_le : Reading.ofDate (h.dateAt t) h.start ≤ h.zone.shown t
  lt_finish : h.zone.shown t < Reading.ofDate (h.dateAt t) h.finish

theorem start_lt_finish_on (h : BusinessHours) (d : Date) :
    Reading.ofDate d h.start < Reading.ofDate d h.finish := by
  have hlt := h.start_lt_finish
  simp only [TimeOfDay.lt_def, Reading.lt_def, Reading.ofDate] at *
  omega

theorem Covers.inHours (hz : h.zone = .fixed offset) (hc : h.Covers t) : h.InHours t := by
  obtain ⟨s, hs, hst, hend⟩ := hc.window
  refine ⟨hc.isBusinessDay, (Zone.resolve_le_iff hz hs).1 hst, ?_⟩
  rcases hend with rfl | ⟨f, hf, htf⟩
  · rw [Zone.shown_resolve hz hs]
    exact h.start_lt_finish_on _
  · exact (Zone.lt_resolve_iff hz hf).1 htf

theorem isOpen_iff_of_passes {b : Bool} (hstart : h.zone.Passes (.ofDate (h.dateAt t) h.start))
    (hfinish : h.zone.Passes (.ofDate (h.dateAt t) h.finish)) (ho : h.isOpen t = .ok b) :
    b = true ↔ h.InHours t := by
  obtain ⟨d, hd, ho⟩ := bind_eq_ok.1 ho
  obtain ⟨-, rfl⟩ := localDate_eq_ok.1 hd
  split at ho
  · next hb =>
    obtain ⟨s, hs, ho⟩ := bind_eq_ok.1 ho
    split at ho
    · next hst =>
      obtain ⟨f, hf, ho⟩ := bind_eq_ok.1 ho
      obtain rfl := Except.ok.inj ho
      rw [decide_eq_true_iff, hfinish.lt_iff hf]
      exact ⟨fun htf => ⟨hb, (hstart s t hs).1 hst, htf⟩, InHours.lt_finish⟩
    · next hst =>
      obtain rfl := Except.ok.inj ho
      exact iff_of_false Bool.false_ne_true fun hin => hst ((hstart s t hs).2 hin.start_le)
  · next hb =>
    obtain rfl := Except.ok.inj ho
    exact iff_of_false Bool.false_ne_true fun hin => hb hin.isBusinessDay

theorem isOpen_iff_inHours {b : Bool} (hz : h.zone = .fixed offset) (ho : h.isOpen t = .ok b) :
    b = true ↔ h.InHours t :=
  isOpen_iff_of_passes (Zone.passes_of_fixed hz _) (Zone.passes_of_fixed hz _) ho

theorem inHours_iff (ht : t.nano < 2000000000) :
    h.InHours t ↔ ∃ date time, h.zone.shown t = .ofDate date time ∧ date.weekday ∈ h.days ∧
      ¬ time < h.start ∧ time < h.finish := by
  constructor
  · intro hin
    obtain ⟨time, hshown⟩ := Reading.exists_ofDate (w := h.zone.shown t) ht
    have hlow := hin.start_le
    have hhigh := hin.lt_finish
    rw [hshown, ← Reading.not_lt, dateAt, Reading.ofDate_lt_ofDate] at hlow
    rw [hshown, dateAt, Reading.ofDate_lt_ofDate] at hhigh
    exact ⟨_, time, hshown, List.contains_iff_mem.1 hin.isBusinessDay, hlow, hhigh⟩
  · rintro ⟨date, time, hshown, hday, hlow, hhigh⟩
    have hdate : h.dateAt t = date := by rw [dateAt, hshown, Reading.date_ofDate]
    refine ⟨hdate ▸ List.contains_iff_mem.2 hday, ?_, ?_⟩
    · rwa [hdate, hshown, ← Reading.not_lt, Reading.ofDate_lt_ofDate]
    · rwa [hdate, hshown, Reading.ofDate_lt_ofDate]

/-- The windows on all dates of a stretch of time can be told, and the calendar goes on after it. -/
structure Charted (h : BusinessHours) (t u : Instant) : Prop where
  inRange : (h.dateAt t).InRange
  lt_lastDay : (h.dateAt u).day < Date.lastDay
  known : ∀ y : Date, (h.dateAt t).day ≤ y.day → y.day ≤ (h.dateAt u).day → h.Known y

theorem between_backwards (h : BusinessHours) (hut : u ≤ t) : h.between t u = .ok .zero := if_pos hut

theorem between_self (h : BusinessHours) (t : Instant) : h.between t t = .ok .zero :=
  h.between_backwards (le_refl t)

section Plain

variable (hp : h.Plain) (ht : t.Proper) (hu : u.Proper)
include hp ht hu

theorem between_eq_ok (hlt : t < u) :
    h.between t u = .ok total ↔ h.Charted t u ∧ total = ⟨h.elapsed t u⟩ := by
  have told (hc : h.Charted t u) : h.between t u = .ok ⟨h.elapsed t u⟩ :=
    between_ok hp ht hu (le_of_lt hlt) hc.inRange.1 hc.lt_lastDay hc.known
  constructor
  · intro hb
    obtain ⟨hin, hlast, known⟩ := known_of_between hp ht hu hlt hb
    have hc : h.Charted t u := ⟨hin, hlast, known⟩
    exact ⟨hc, Except.ok.inj (hb.symm.trans (told hc))⟩
  · rintro ⟨hc, rfl⟩
    exact told hc

theorem charted_iff (hv : v.Proper) (htu : t ≤ u) (huv : u ≤ v) :
    h.Charted t v ↔ h.Charted t u ∧ h.Charted u v := by
  have hle := dateAt_le hp ht hu htu
  have hle' := dateAt_le hp hu hv huv
  constructor
  · intro hc
    have hfirst := hc.inRange.1
    have hlast := hc.lt_lastDay
    exact ⟨⟨hc.inRange, by omega, fun y hy hyu => hc.known y hy (by omega)⟩,
      ⟨⟨by omega, by omega⟩, hlast, fun y hy hyv => hc.known y (by omega) hyv⟩⟩
  · rintro ⟨hc, hc'⟩
    refine ⟨hc.inRange, hc'.lt_lastDay, fun y hy hyv => ?_⟩
    by_cases hyu : y.day ≤ (h.dateAt u).day
    · exact hc.known y hy hyu
    · exact hc'.known y (by omega) hyv

theorem between_add_iff (hv : v.Proper) (htu : t ≤ u) (huv : u ≤ v) :
    h.between t v = .ok total ↔
      ∃ a b, h.between t u = .ok a ∧ h.between u v = .ok b ∧ total = a + b := by
  have zero_add (b : Span) : .zero + b = b := Span.eq_of_nanos (by simp)
  have add_zero (a : Span) : a + .zero = a := Span.eq_of_nanos (by simp)
  rcases htu.eq_or_lt with rfl | htu'
  · simp only [between_self, Except.ok.injEq, exists_and_left, exists_eq_left', zero_add,
      exists_eq_right']
  rcases huv.eq_or_lt with rfl | huv'
  · simp only [between_self, Except.ok.injEq, exists_eq_left', exists_and_left, add_zero,
      exists_eq_right']
  rw [between_eq_ok hp ht hv (htu'.trans huv'), charted_iff hp ht hu hv htu huv]
  have hsum := elapsed_add hp ht hu hv htu huv
  constructor
  · rintro ⟨⟨hc, hc'⟩, rfl⟩
    exact ⟨_, _, (between_eq_ok hp ht hu htu').2 ⟨hc, rfl⟩,
      (between_eq_ok hp hu hv huv').2 ⟨hc', rfl⟩, Span.eq_of_nanos hsum⟩
  · rintro ⟨a, b, ha, hb, rfl⟩
    obtain ⟨hc, rfl⟩ := (between_eq_ok hp ht hu htu').1 ha
    obtain ⟨hc', rfl⟩ := (between_eq_ok hp hu hv huv').1 hb
    exact ⟨⟨hc, hc'⟩, (Span.eq_of_nanos hsum).symm⟩

theorem zero_le_between (hb : h.between t u = .ok total) : .zero ≤ total := by
  by_cases hut : u ≤ t
  · obtain rfl := Except.ok.inj ((h.between_backwards hut).symm.trans hb)
    exact Int.le_refl _
  · obtain ⟨-, rfl⟩ := (between_eq_ok hp ht hu (Reading.not_le.1 hut)).1 hb
    exact h.elapsed_nonneg t u

theorem between_mono (hv : v.Proper) (huv : u ≤ v) (hearly : h.between t u = .ok early)
    (htotal : h.between t v = .ok total) : early ≤ total := by
  by_cases htu : t ≤ u
  · obtain ⟨a, b, ha, hb, rfl⟩ := (between_add_iff hp ht hu hv htu huv).1 htotal
    obtain rfl := Except.ok.inj (hearly.symm.trans ha)
    have hrest := zero_le_between hp hu hv hb
    rw [Span.le_def, Span.nanos_zero] at hrest
    rw [Span.le_def, Span.nanos_add]
    exact Int.le_add_of_nonneg_right hrest
  · have hut : u ≤ t := le_of_lt (Reading.not_le.1 htu)
    obtain rfl := Except.ok.inj ((h.between_backwards hut).symm.trans hearly)
    exact zero_le_between hp ht hv htotal

/-- A stretch that is open throughout lies in one window: the end of a window shows its date, on
which no other window is open. -/
theorem between_of_open (hz : h.zone = .fixed offset) (htu : t ≤ u)
    (hall : ∀ w : Instant, w.Proper → t ≤ w → w < u → h.isOpen w = .ok true)
    (hb : h.between t u = .ok total) : total = u.since t := by
  have hsince := Reading.since_of_regular hu.regular ht.regular
  rcases htu.eq_or_lt with rfl | hlt
  · obtain rfl := Except.ok.inj ((h.between_self t).symm.trans hb)
    exact Span.eq_of_nanos (by rw [hsince, Span.nanos_zero, Int.sub_self])
  obtain ⟨-, rfl⟩ := (between_eq_ok hp ht hu hlt).1 hb
  obtain ⟨d, s, f, w, hst, htf⟩ := (isOpen_eq_true hp ht).1 (hall t ht (le_refl t) hlt)
  have huf : u ≤ f := by
    rw [← Reading.not_lt]
    intro hfu
    have hf := w.finish_proper hp
    obtain ⟨e, s', f', w', hs', hf'⟩ :=
      (isOpen_eq_true hp hf).1 (hall f hf (le_of_lt htf) hfu)
    obtain rfl : e = d := (hp.within w' hf hs' hf').symm.trans (w.dateAt_finish hz)
    exact absurd hf' (not_lt_of_ge (le_of_eq (w.unique w').2.symm))
  exact Span.eq_of_nanos ((elapsed_of_window hp w ht hu hst htu huf).trans hsince.symm)

theorem between_of_closed (htu : t ≤ u)
    (hnone : ∀ w : Instant, w.Proper → t ≤ w → w < u → h.isOpen w ≠ .ok true)
    (hb : h.between t u = .ok total) : total = .zero := by
  rcases htu.eq_or_lt with rfl | hlt
  · exact Except.ok.inj (hb.symm.trans (h.between_self t))
  obtain ⟨-, rfl⟩ := (between_eq_ok hp ht hu hlt).1 hb
  refine Span.eq_of_nanos (elapsed_eq_zero hp ht hu fun d s f w => ?_)
  -- Otherwise the window would be open at the later one of the two beginnings.
  by_contra hcommon
  rw [not_or, Reading.not_le, Reading.not_le] at hcommon
  obtain ⟨htf, hsu⟩ := hcommon
  by_cases hts : t ≤ s
  · have hs := w.start_proper hp
    have hopen : h.Inside s := ⟨d, s, f, w, le_refl s, hp.ordered w⟩
    exact hnone s hs hts hsu ((isOpen_eq_true hp hs).2 hopen)
  · have hopen : h.Inside t := ⟨d, s, f, w, le_of_lt (Reading.not_le.1 hts), htf⟩
    exact hnone t ht (le_refl t) hlt ((isOpen_eq_true hp ht).2 hopen)

end Plain

/-- Business time is additive at a fixed offset, away from leap seconds: the time from one instant
to another can be told just when it can be told in two parts, whose sum it is. A stretch counts
in full when all of it is open and for nothing when none of it is, and an instant is open just when
the clock shows one of the configured days and a time from the start up to the end. All of this can
be told but for the ends of the calendar. -/
theorem business_time_additive {days : List Weekday} {start finish : TimeOfDay}
    (hnew : build days start finish (.fixed offset) = .ok h) (hs : ¬ start.IsLeap)
    (hf : ¬ finish.IsLeap) (ht : t.Proper) (hu : u.Proper) (hv : v.Proper) (htu : t ≤ u)
    (huv : u ≤ v) :
    (∀ total, h.between t v = .ok total ↔
      ∃ a b, h.between t u = .ok a ∧ h.between u v = .ok b ∧ total = a + b) ∧
    (∀ total, h.between t u = .ok total →
      ((∀ w : Instant, w.Proper → t ≤ w → w < u → h.isOpen w = .ok true) → total = u.since t) ∧
      ((∀ w : Instant, w.Proper → t ≤ w → w < u → h.isOpen w ≠ .ok true) → total = .zero)) ∧
    (∀ b, h.isOpen t = .ok b → (b = true ↔ ∃ date time,
      (Zone.fixed offset).shown t = .ofDate date time ∧ date.weekday ∈ days ∧ ¬ time < start ∧
        time < finish)) ∧
    (Date.firstDay + 1 < t.date.day → v.date.day + 1 < Date.lastDay →
      (∃ total, h.between t v = .ok total) ∧ ∃ b, h.isOpen t = .ok b) := by
  obtain ⟨hdays, rfl, rfl, hz⟩ : (∀ d, d ∈ h.days ↔ d ∈ days) ∧ h.start = start ∧
      h.finish = finish ∧ h.zone = .fixed offset := by
    rw [build] at hnew
    split at hnew
    · split at hnew
      · cases hnew
        exact ⟨fun d => Weekday.mem_sorted, rfl, rfl, rfl⟩
      · cases hnew
    · cases hnew
  have hp : h.Plain := plain_of_fixed hz hs hf
  refine ⟨fun total => between_add_iff hp ht hu hv htu huv, fun total hb => ?_, fun b ho => ?_,
    fun hfirst hlast => ?_⟩
  · exact ⟨fun hall => between_of_open hp ht hu hz htu hall hb,
      fun hnone => between_of_closed hp ht hu htu hnone hb⟩
  · have hnano := ht.regular
    rw [isOpen_iff_inHours hz ho, inHours_iff (Nat.lt_trans hnano (by decide)), hz]
    simp only [hdays]
  · have hday := h.le_day_dateAt t
    have hday' := h.day_dateAt v
    have hle := dateAt_le hp ht hv (le_trans htu huv)
    exact ⟨exists_between (by omega) (by omega) (by omega) (by omega),
      isOpen_ok ⟨by omega, by omega⟩ (known_of_lt (by omega) (by omega))⟩

theorem business_time_additive_weekend :
    ∃ a b, standard.between ⟨1792789200, 0⟩ ⟨1792843200, 0⟩ = .ok a ∧
      standard.between ⟨1792843200, 0⟩ ⟨1792998000, 0⟩ = .ok b ∧ .ofHours 2 = a + b := by
  have hnew : build [.mon, .tue, .wed, .thu, .fri] standard.start standard.finish
      (.fixed .utc) = .ok standard := rfl
  have hparts := business_time_additive hnew (by decide) (by decide)
    (t := ⟨1792789200, 0⟩) (u := ⟨1792843200, 0⟩) (v := ⟨1792998000, 0⟩) ⟨by decide, by decide⟩
    ⟨by decide, by decide⟩ ⟨by decide, by decide⟩ (by decide) (by decide)
  exact (hparts.1 (.ofHours 2)).1 rfl

end BusinessHours

end Followup
