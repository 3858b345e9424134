import Followup.Proofs.BusinessHours.Membership

/-! The search for the next window start. At a fixed offset the eighth date that it looks at is a
week after the first and starts later than any instant of that one, so that it goes no further; what
it finds is the first instant that the clocks show as the start of a business day. -/

namespace Followup.BusinessHours

variable {h : BusinessHours} {offset : Offset} {d : Date} {s t u : Instant}

theorem scan_add (n k : Nat) (d : Date) (hover : h.scan t n d ≠ .error .endless) :
    h.scan t (n + k) d = h.scan t n d := by
  induction n generalizing d with
  | zero => exact absurd rfl hover
  | succ n ih =>
    have later (hrest : (do h.scan t n (← d.next)) ≠ .error .endless) :
        (do h.scan t (n + k) (← d.next)) = (do h.scan t n (← d.next)) := by
      cases hnext : d.next with
      | error fault => rfl
      | ok next =>
        rw [hnext] at hrest
        exact ih next hrest
    rw [Nat.add_right_comm]
    simp only [scan] at hover ⊢
    cases hb : h.isBusinessDay d with
    | false =>
      simp only [hb] at hover
      exact later hover
    | true =>
      simp only [hb, if_true] at hover ⊢
      cases hstart : h.startOn d with
      | error fault => rfl
      | ok start =>
        simp only [hstart, ok_bind] at hover ⊢
        by_cases hle : t ≤ start
        · simp only [if_pos hle]
        · simp only [if_neg hle] at hover ⊢
          exact later hover

section Fixed

variable (hz : h.zone = .fixed offset)
include hz

theorem scan_week_ne (t : Instant) (n : Nat) (hn : 8 ≤ n) :
    h.scan t n (h.dateAt t) ≠ .error .endless := by
  obtain ⟨x, hlt, hle, hb⟩ := exists_businessDay h (h.dateAt t).day
  have hstart (s : Instant) (hs : h.startOn x = .ok s) : t ≤ s :=
    le_of_lt (lt_startOn_of_fixed hz hlt hs)
  have hends := scan_ends hb hstart n (h.dateAt t) (Int.le_of_lt hlt) (by omega)
  exact (Checked.ends_iff.1 hends).1

theorem nextStart_eq_scan (t : Instant) :
    h.nextStart t = (do h.scan t 8 (← h.localDate t)) := by
  have hlimit : scanLimit = 8 + 8 := rfl
  simp only [nextStart, hlimit]
  cases hd : h.localDate t with
  | error fault => simp only [error_bind]
  | ok d =>
    obtain ⟨-, rfl⟩ := localDate_eq_ok.1 hd
    simp only [ok_bind]
    exact scan_add 8 8 (h.dateAt t) (scan_week_ne hz t 8 (Nat.le_refl 8))

def Starts (h : BusinessHours) (t : Instant) : Prop :=
  ∃ date, h.zone.shown t = .ofDate date h.start ∧ h.isBusinessDay date = true

theorem Window.starts (w : h.Window d s u) : h.Starts s :=
  ⟨d, Zone.shown_resolve hz w.startOn, w.isBusinessDay⟩

variable (hs : ¬ h.start.IsLeap) (hf : ¬ h.finish.IsLeap)
include hs hf

theorem isLeast_of_nextStart (ht : t.Proper) (hnext : h.nextStart t = .ok s) :
    IsLeast {u | u.Proper ∧ t ≤ u ∧ h.Starts u} s := by
  have hp := plain_of_fixed hz hs hf
  obtain ⟨d, hd, hscan⟩ := bind_eq_ok.1 hnext
  obtain ⟨hin, rfl⟩ := localDate_eq_ok.1 hd
  obtain ⟨x, -, -, hb, hstart, hts, least⟩ := of_scan _ _ hin hscan
  refine ⟨⟨proper_of_resolve hs hstart, hts, x, Zone.shown_resolve hz hstart, hb⟩, ?_⟩
  rintro u ⟨hu, htu, y, hshown, hby⟩
  have hstarty : h.startOn y = .ok u := Zone.resolve_shown hz hu.inRange hshown
  have hdate : (h.dateAt t).day ≤ y.day := by
    rw [← dateAt_startOn hz hstarty]
    exact dateAt_le hp ht hu htu
  by_cases hlt : y.day < x.day
  · exact absurd (least y u hby hstarty hdate hlt) (not_lt_of_ge htu)
  · rw [Zone.resolve_le_iff hz hstart, hshown]
    simp only [Reading.le_def, Reading.ofDate]
    omega

theorem window_of_open (hleast : IsLeast {u | u.Proper ∧ t ≤ u ∧ h.Starts u} s) (hu : u.Proper)
    (hus : u < s) (hopen : h.isOpen u = .ok true) :
    ∃ d s' f', h.Window d s' f' ∧ s' ≤ t ∧ s' ≤ u ∧ u < f' := by
  have hp := plain_of_fixed hz hs hf
  obtain ⟨d, s', f', w, hs'u, huf'⟩ := (isOpen_eq_true hp hu).1 hopen
  refine ⟨d, s', f', w, ?_, hs'u, huf'⟩
  rw [← Reading.not_lt]
  intro hts'
  have hss' : s ≤ s' := hleast.2 ⟨w.start_proper hp, le_of_lt hts', w.starts hz⟩
  exact absurd (lt_of_lt_of_le hus hss') (not_lt_of_ge hs'u)

theorem le_of_firstOpen (ht : t.Proper) (hfirst : h.firstOpen t = .ok s) (hu : u.Proper) (htu : t ≤ u)
    (hopen : h.isOpen u = .ok true) : s ≤ u := by
  have hp := plain_of_fixed hz hs hf
  obtain ⟨b, hb, hfirst⟩ := bind_eq_ok.1 hfirst
  cases b with
  | true => exact Except.ok.inj hfirst ▸ htu
  | false =>
    rw [← Reading.not_lt]
    intro hus
    obtain ⟨d, s', f', w, hs't, -, huf'⟩ :=
      window_of_open hz hs hf (isLeast_of_nextStart hz hs hf ht hfirst) hu hus hopen
    have hin : h.isOpen t = .ok true :=
      (isOpen_eq_true hp ht).2 ⟨d, s', f', w, hs't, lt_of_le_of_lt htu huf'⟩
    cases hb.symm.trans hin

theorem exists_open (ht : t.Proper) (hfirst : Date.firstDay + 1 < t.date.day)
    (hlast : t.date.day + 8 < Date.lastDay) :
    (∃ s, h.nextStart t = .ok s) ∧
      ∃ s, h.firstOpen t = .ok s ∧ s.Proper ∧ t ≤ s ∧ h.isOpen s = .ok true := by
  have hp := plain_of_fixed hz hs hf
  have hdate := h.day_dateAt t
  have hdate' := h.le_day_dateAt t
  obtain ⟨d, s, f, hnext, w, -, -⟩ := exists_nextWindow hz (t := t) (by omega) (by omega)
  obtain ⟨b, hb⟩ := isOpen_ok (h := h) (t := t) ⟨by omega, by omega⟩
    (known_of_lt (by omega) (by omega))
  refine ⟨⟨s, hnext⟩, ?_⟩
  rw [firstOpen, hb, ok_bind]
  cases b with
  | true => exact ⟨t, rfl, ht, le_refl t, hb⟩
  | false =>
    have hproper := w.start_proper hp
    exact ⟨s, hnext, hproper, le_of_nextStart hp ht hnext,
      (isOpen_eq_true hp hproper).2 ⟨d, s, f, w, le_refl s, hp.ordered w⟩⟩

end Fixed

/-- At a fixed offset, away from leap seconds, the next window start is found within eight dates. It
is the least instant from the given one on at which the clocks show the start time on one of the
days, the first open instant is the least open one, and up to the next start nothing is open but
what is left of a window that has started already. All of this can be told but for the ends of the
calendar. -/
theorem nextStart_isLeast {days : List Weekday} {start finish : TimeOfDay}
    (hnew : build days start finish (.fixed offset) = .ok h) (hs : ¬ start.IsLeap)
    (hf : ¬ finish.IsLeap) (ht : t.Proper) :
    h.nextStart t = (do h.scan t 8 (← h.localDate t)) ∧
    (h.nextStart t).Ends (fun s =>
      IsLeast {u | u.Proper ∧ t ≤ u ∧ ∃ date, (Zone.fixed offset).shown u = .ofDate date start ∧
        date.weekday ∈ days} s ∧
      ∀ u : Instant, u.Proper → t ≤ u → u < s → h.isOpen u = .ok true →
        ∃ d s' f', h.Window d s' f' ∧ s' ≤ t ∧ t < f' ∧ s' ≤ u ∧ u < f') ∧
    (h.firstOpen t).Ends (fun s => t ≤ s ∧ (h.isOpen s).Ends (· = true) ∧
      ∀ u : Instant, u.Proper → t ≤ u → h.isOpen u = .ok true → s ≤ u) ∧
    (Date.firstDay + 1 < t.date.day → t.date.day + 8 < Date.lastDay →
      (∃ s, h.nextStart t = .ok s) ∧
        ∃ s, h.firstOpen t = .ok s ∧ IsLeast {u | u.Proper ∧ t ≤ u ∧ h.isOpen u = .ok true} s) := by
  obtain ⟨hdays, rfl, rfl, hz⟩ := of_build hnew
  have hd := daily_of_fixed hz
  have hstarts (u : Instant) : h.Starts u ↔ ∃ date,
      (Zone.fixed offset).shown u = .ofDate date h.start ∧ date.weekday ∈ days := by
    simp only [Starts, isBusinessDay, hz, List.contains_iff_mem, hdays]
  refine ⟨nextStart_eq_scan hz t, ?_, ?_, fun hfirst hlast => ?_⟩
  · refine (h.nextStart_ends t).self.mono fun s hnext => ?_
    have hleast := isLeast_of_nextStart hz hs hf ht hnext
    refine ⟨by simpa only [hstarts] using hleast, fun u hu htu hus hopen => ?_⟩
    obtain ⟨d, s', f', w, hs't, hs'u, huf'⟩ := window_of_open hz hs hf hleast hu hus hopen
    exact ⟨d, s', f', w, hs't, lt_of_le_of_lt htu huf', hs'u, huf'⟩
  · have hends := hd.firstOpen_ends t
    refine hends.self.mono fun s hfirst => ?_
    obtain ⟨hts, hcovers⟩ := hends.of_eq_ok hfirst
    exact ⟨hts, hd.isOpen hcovers, fun u => le_of_firstOpen hz hs hf ht hfirst⟩
  · obtain ⟨hnext, s, hopen, hproper, hts, hsopen⟩ := exists_open hz hs hf ht hfirst hlast
    refine ⟨hnext, s, hopen, ⟨hproper, hts, hsopen⟩, ?_⟩
    rintro u ⟨hu, htu, huopen⟩
    exact le_of_firstOpen hz hs hf ht hopen hu htu huopen

theorem nextStart_isLeast_weekend :
    ∃ s, standard.nextStart ⟨1792796400, 0⟩ = .ok s ∧ s = ⟨1792994400, 0⟩ ∧
      ∀ u : Instant, u.Proper → ⟨1792796400, 0⟩ ≤ u → u < s → standard.isOpen u ≠ .ok true := by
  have hnew : build [.mon, .tue, .wed, .thu, .fri] standard.start standard.finish
      (.fixed .utc) = .ok standard := rfl
  have hfound : standard.nextStart ⟨1792796400, 0⟩ = .ok ⟨1792994400, 0⟩ := by decide +kernel
  obtain ⟨-, hnext, hfirst, -⟩ := nextStart_isLeast hnew (by decide) (by decide)
    (t := ⟨1792796400, 0⟩) ⟨by decide, by decide⟩
  have hopens : standard.firstOpen ⟨1792796400, 0⟩ = .ok ⟨1792994400, 0⟩ := by decide +kernel
  refine ⟨_, hfound, rfl, fun u hu htu hus hopen => ?_⟩
  exact absurd ((hfirst.of_eq_ok hopens).2.2 u hu htu hopen) (not_le_of_gt hus)

end Followup.BusinessHours
