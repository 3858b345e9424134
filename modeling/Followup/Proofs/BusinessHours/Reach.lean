import Followup.Proofs.BusinessHours.Landing

/-! How far the searches of business hours reach. At a fixed offset each window starts on its own
date and the next one within a week, so a walk that finds the same time in every window comes no
further than a week for each window that it needs. -/

namespace Followup

namespace Reading

variable {a b t : Reading} {d : Span}

structure Modern (t : Reading) : Prop where
  first : 0 ≤ t.date.day
  last : t.date.day ≤ 2932896
  nano_lt : t.nano < 2000000000

example : Date.ofCivil 9999 12 31 = ⟨2932896⟩ := by decide

instance (t : Reading) : Decidable t.Modern :=
  decidable_of_iff (0 ≤ t.date.day ∧ t.date.day ≤ 2932896 ∧ t.nano < 2000000000)
    ⟨fun ⟨hfirst, hlast, hnano⟩ => ⟨hfirst, hlast, hnano⟩,
      fun ⟨hfirst, hlast, hnano⟩ => ⟨hfirst, hlast, hnano⟩⟩

theorem second_shift_neg (ht : t.nano < 2000000000) (hd : 0 ≤ d.nanos) :
    t.second - (d.nanos + 999999999) / 1000000000 ≤ (t.shift (-d)).second ∧
      (t.shift (-d)).second ≤ t.second := by
  have hseconds : (-d.nanos).tdiv 1000000000 = -(d.nanos / 1000000000) := by
    rw [Int.neg_tdiv, Int.tdiv_eq_ediv_of_nonneg hd]
  have hnanos : (-d.nanos).tmod 1000000000 = -(d.nanos % 1000000000) := by
    rw [Int.neg_tmod, Int.tmod_eq_emod_of_nonneg hd]
  simp only [shift, Span.nanos_neg, hseconds, hnanos, carry]
  split
  · split
    · dsimp only
      omega
    · split <;> dsimp only <;> omega
  · split
    · omega
    · split
      · split
        · dsimp only
          omega
        · split <;> dsimp only <;> omega
      · dsimp only
        omega

theorem exists_sub_iff (hd : .zero ≤ d) :
    (∀ t : Reading, t.Modern → ∃ u, t.sub d = .ok u) ↔ d ≤ .ofDays (-Date.firstDay) := by
  rw [Span.le_def, Span.nanos_zero] at hd
  simp only [Span.le_def, Span.ofDays, Span.ofSeconds, Date.firstDay]
  constructor
  · intro hall
    obtain ⟨u, hu⟩ := hall ⟨0, 0⟩ (by decide)
    obtain ⟨hin, rfl⟩ := checked_eq_ok.1 hu
    have hfirst := hin.1
    rw [shift_of_regular _ (by decide)] at hfirst
    simp only [nanos, ofNanos, Span.nanos_neg, Date.firstDay, date] at hfirst
    omega
  · intro hle t ht
    obtain ⟨hback, hstay⟩ := second_shift_neg ht.nano_lt hd
    have hfirst := ht.first
    have hlast := ht.last
    refine ⟨t.shift (-d), if_pos ?_⟩
    simp only [InRange, Date.InRange, Date.firstDay, Date.lastDay, date] at *
    omega

theorem lt_since (ha : a.nano < 2000000000) (hab : a < b) :
    -1000000000 < (b.since a).nanos := by
  simp only [lt_def] at hab
  simp only [since]
  split
  · omega
  · split <;> omega

end Reading

namespace BusinessHours

variable {h : BusinessHours} {offset : Offset} {d : Date} {c s f t u : Instant} {amount : Span}

def windowLength (h : BusinessHours) (offset : Offset) : Span :=
  Reading.since ⟨h.finish.second - offset.seconds, h.finish.nano⟩
    ⟨h.start.second - offset.seconds, h.start.nano⟩

theorem le_windowLength (hs : h.start.IsWhole) (hf : h.finish.IsWhole)
    (hpos : .zero < h.windowLength offset) : 1000000000 ≤ (h.windowLength offset).nanos := by
  simp only [TimeOfDay.IsWhole] at hs hf
  simp only [Span.lt_def, Span.nanos_zero, windowLength, Reading.since] at *
  split at hpos
  · omega
  · split at hpos
    · omega
    · omega

theorem exists_share (hk : h.Known d) : ∃ p, h.share t u d = .ok p := by
  cases hb : h.isBusinessDay d with
  | false => exact ⟨.zero, by rw [share, hb]; rfl⟩
  | true =>
    obtain ⟨s, f, w⟩ := hk hb
    simp only [share, hb, if_true, w.startOn, w.finishOn, ok_bind]
    exact ⟨_, rfl⟩

theorem exists_collect (n : Nat) (d : Date) (total : Span) (hlast : d.day + n ≤ Date.lastDay)
    (known : ∀ y : Date, d.day ≤ y.day → y.day < d.day + n → h.Known y) :
    ∃ b, h.collect t u n d total = .ok b := by
  induction n generalizing d total with
  | zero => exact ⟨total, rfl⟩
  | succ n ih =>
    obtain ⟨p, hp⟩ := exists_share (t := t) (u := u) (known d (Int.le_refl _) (by omega))
    have hnext : d.next = .ok ⟨d.day + 1⟩ := next_eq_ok.2 ⟨by omega, rfl⟩
    rw [collect, hp, ok_bind, hnext, ok_bind]
    exact ih ⟨d.day + 1⟩ _ (by dsimp only; omega) fun y hy hyn =>
      known y (by dsimp only at hy; omega) (by dsimp only at hyn; omega)

theorem exists_between (htfirst : Date.firstDay < (h.dateAt t).day)
    (htlast : (h.dateAt t).day < Date.lastDay) (hufirst : Date.firstDay < (h.dateAt u).day)
    (hulast : (h.dateAt u).day < Date.lastDay) : ∃ b, h.between t u = .ok b := by
  rw [between]
  split
  · exact ⟨_, rfl⟩
  · have hfirst : h.localDate t = .ok (h.dateAt t) :=
      localDate_eq_ok.2 ⟨⟨Int.le_of_lt htfirst, Int.le_of_lt htlast⟩, rfl⟩
    have hlast : h.localDate u = .ok (h.dateAt u) :=
      localDate_eq_ok.2 ⟨⟨Int.le_of_lt hufirst, Int.le_of_lt hulast⟩, rfl⟩
    rw [hfirst, ok_bind, hlast, ok_bind]
    exact exists_collect _ _ _ (by omega) fun y hy hyn =>
      known_of_lt (by omega) (by omega)

section Fixed

variable (hz : h.zone = .fixed offset)
include hz

theorem Window.since_eq (w : h.Window d s f) : f.since s = h.windowLength offset := by
  have ho : h.zone.Steady (.ofDate d h.start) (.ofDate d h.finish) offset :=
    hz ▸ Zone.steady_fixed offset _ _
  obtain rfl := startOn_of_steady ho w.startOn
  obtain rfl := finishOn_of_steady ho w.finishOn
  have hday (n : Int) : (d.day * 86400 + n) % 86400 = n % 86400 := by omega
  simp only [windowLength, Reading.since, Reading.secondOfDay, Int.add_sub_assoc, hday]
  refine Span.eq_of_nanos ?_
  dsimp only
  omega

theorem Window.dateAt_finish (w : h.Window d s f) : h.dateAt f = d := by
  rw [dateAt, Zone.shown_resolve hz w.finishOn, Reading.date_ofDate]

theorem exists_nextWindow (hfirst : Date.firstDay < (h.dateAt t).day)
    (hlast : (h.dateAt t).day + 7 < Date.lastDay) :
    ∃ d s f, h.nextStart t = .ok s ∧ h.Window d s f ∧ (h.dateAt t).day ≤ d.day ∧
      d.day ≤ (h.dateAt t).day + 7 := by
  have known (y : Date) (hy : (h.dateAt t).day ≤ y.day) (hyw : y.day ≤ (h.dateAt t).day + 7) :
      h.Known y := known_of_lt (by omega) (by omega)
  have hin : (h.dateAt t).InRange := ⟨by omega, by omega⟩
  obtain ⟨x, hlt, hle, hb⟩ := exists_businessDay h (h.dateAt t).day
  obtain ⟨sx, fx, wx⟩ := known x (Int.le_of_lt hlt) hle hb
  have htsx : t < sx := lt_startOn_of_fixed hz hlt wx.startOn
  obtain ⟨s, hscan⟩ := scan_ok wx (le_of_lt htsx) scanLimit (h.dateAt t) (Int.le_of_lt hlt)
    (by rw [scanLimit]; omega) fun y hy hyx => known y hy (by omega)
  have hnext : h.nextStart t = .ok s := by
    rw [nextStart, localDate_eq_ok.2 ⟨hin, rfl⟩]
    exact hscan
  obtain ⟨y, hty, -, hby, hstart, -, least⟩ := of_scan scanLimit (h.dateAt t) hin hscan
  -- The search has not passed the business day of the week, whose window is still to come.
  have hyx : y.day ≤ x.day := by
    rw [← Int.not_lt]
    exact fun hxy => lt_asymm htsx (least x sx hb wx.startOn (Int.le_of_lt hlt) hxy)
  obtain ⟨sy, fy, wy⟩ := known y hty (by omega) hby
  obtain rfl := Except.ok.inj (hstart.symm.trans wy.startOn)
  exact ⟨y, s, fy, hnext, wy, hty, by omega⟩

variable (hf : h.finish.nano ≤ 1000000000)
include hf

theorem spend_round (w : h.Window d s f) (hsc : s ≤ c) (hcf : c < f)
    (hfirst : Date.firstDay < d.day) (hlast : d.day + 7 < Date.lastDay) (rounds : Nat) (r : Span) :
    (∃ u, h.spend (rounds + 1) c r = .ok u) ∨
      ∃ d' s' f', h.Window d' s' f' ∧ d.day ≤ d'.day ∧ d'.day ≤ d.day + 7 ∧
        h.spend (rounds + 1) c r = h.spend rounds s' (r - f.since c) := by
  have hdate := (daily_of_fixed hz).within w hsc hcf
  have hclose : h.localDate c = .ok d := localDate_eq_ok.2 ⟨w.inRange, hdate.symm⟩
  rw [spend]
  by_cases hr : r ≤ Span.zero
  · exact .inl ⟨c, if_pos hr⟩
  rw [if_neg hr, hclose, ok_bind, w.finishOn, ok_bind]
  dsimp only
  by_cases hlt : r < f.since c
  · have hnear (time : TimeOfDay) {t : Instant} (ht : h.zone.resolve (.ofDate d time) = .ok t) :=
      Zone.resolve_near time.nano_lt ht
    obtain ⟨hsin, -⟩ := hnear h.start w.startOn
    obtain ⟨hfin, hnano, -⟩ := hnear h.finish w.finishOn
    obtain ⟨hle, hbefore⟩ :=
      Reading.shift_within (Nat.le_trans hnano hf) hcf (Int.not_le.1 hr) hlt
    rw [if_pos hlt]
    exact .inl ⟨_, if_pos (Reading.inRange_of_le hsin hfin (le_trans hsc hle) (le_of_lt hbefore))⟩
  · have hdf := w.dateAt_finish hz
    obtain ⟨d', s', f', hnext, w', hdd', hweek⟩ :=
      exists_nextWindow hz (t := f) (by rw [hdf]; exact hfirst) (by rw [hdf]; exact hlast)
    rw [hdf] at hdd' hweek
    rw [if_neg hlt, hnext, ok_bind]
    exact .inr ⟨d', s', f', w', hdd', hweek, rfl⟩

/-- From the start of a window on, an amount of time takes as many weeks as it takes windows. -/
theorem exists_spend (n : Nat) (w : h.Window d s f) (hfirst : Date.firstDay < d.day)
    (hlast : d.day + 7 * (n + 1) < Date.lastDay) (rounds : Nat) (hrounds : n < rounds)
    (hn : amount.nanos ≤ n * (h.windowLength offset).nanos) :
    ∃ u, h.spend rounds s amount = .ok u := by
  -- By the windows that are still needed: each round takes one of them and a week.
  induction n generalizing d s f amount rounds with
  | zero =>
    have hnone : amount ≤ Span.zero := by
      rw [Span.le_def, Span.nanos_zero]
      omega
    cases rounds with
    | zero => exact absurd hrounds (Nat.lt_irrefl 0)
    | succ rounds => exact ⟨s, if_pos hnone⟩
  | succ n ih =>
    cases rounds with
    | zero => exact absurd hrounds (Nat.not_lt_zero _)
    | succ rounds =>
      have hsf := (daily_of_fixed hz).ordered w
      rcases spend_round hz hf w (le_refl s) hsf hfirst (by omega) rounds amount with
        hdone | ⟨d', s', f', w', hdd', hweek, hgo⟩
      · exact hdone
      · rw [hgo, w.since_eq hz]
        rw [Int.natCast_add, Int.add_mul] at hn
        exact ih w' (by omega) (by omega) rounds (by omega) (by rw [Span.nanos_sub]; omega)

theorem exists_add (ht : t.nano < 2000000000) (hfirst : Date.firstDay < (h.dateAt t).day) (n : Nat)
    (hlast : (h.dateAt t).day + 7 * (n + 3) < Date.lastDay)
    (hlen : 1000000000 ≤ (h.windowLength offset).nanos)
    (hn : amount.nanos ≤ n * (h.windowLength offset).nanos) : ∃ u, h.add t amount = .ok u := by
  have hlimit : n + 2 < spendLimit := by
    simp only [spendLimit, Date.firstDay, Date.lastDay] at *
    omega
  have hmore : amount.nanos + 1000000000 ≤ (n + 1 : Nat) * (h.windowLength offset).nanos := by
    rw [Int.natCast_add, Int.add_mul]
    omega
  have hin : (h.dateAt t).InRange := ⟨by omega, by omega⟩
  have hknown : h.Known (h.dateAt t) := known_of_lt hfirst (by omega)
  obtain ⟨b, hb⟩ := isOpen_ok hin hknown
  rw [add, firstOpen, hb, ok_bind]
  cases b with
  | false =>
    obtain ⟨d, s, f, hnext, w, hd, hweek⟩ := exists_nextWindow hz hfirst (by omega)
    rw [if_neg (by decide), hnext, ok_bind]
    exact exists_spend hz hf n w (by omega) (by omega) spendLimit (by omega) hn
  | true =>
    have hd := daily_of_fixed hz
    have hc : h.Covers t := ((hd.isOpen_ends t).of_eq_ok hb).1 rfl
    obtain ⟨s, f, w⟩ := hknown hc.isBusinessDay
    obtain ⟨s', hs', hst, -⟩ := hc.window
    obtain rfl := Except.ok.inj (hs'.symm.trans w.startOn)
    have htf := hd.lt_finish hc w.finishOn
    rw [if_pos rfl]
    obtain ⟨rounds, hrounds⟩ : ∃ rounds, spendLimit = rounds + 1 := ⟨spendLimit - 1, by omega⟩
    rw [pure_bind, hrounds]
    -- The window that has begun may be nearly over. One window more makes up for that.
    rcases spend_round hz hf w hst htf hfirst (by omega) rounds amount with
      hdone | ⟨d', s', f', w', hdd', hweek, hgo⟩
    · exact hdone
    · have hsince := Reading.lt_since ht htf
      rw [hgo]
      exact exists_spend hz hf (n + 1) w' (by omega) (by push_cast; omega) rounds (by omega)
        (by rw [Span.nanos_sub]; omega)

end Fixed

end BusinessHours

end Followup
