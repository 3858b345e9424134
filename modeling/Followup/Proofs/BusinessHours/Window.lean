import Followup.BusinessHours
import Followup.Proofs.Calendar.Steady

/-! The windows of business hours as stretches of time. A window lies on its own date wherever the
clocks are changed only outside of the windows. Where dates never go back either, windows follow one
another in the order of their dates, and the search for the next one finds it within eight days. -/

namespace Followup.BusinessHours

variable {h : BusinessHours} {d e : Date} {s f s' f' t u : Instant}

def dateAt (h : BusinessHours) (t : Instant) : Date := (h.zone.shown t).date

structure Window (h : BusinessHours) (d : Date) (s f : Instant) : Prop where
  inRange : d.InRange
  isBusinessDay : h.isBusinessDay d = true
  startOn : h.startOn d = .ok s
  finishOn : h.finishOn d = .ok f

def Inside (h : BusinessHours) (t : Instant) : Prop := ∃ d s f, h.Window d s f ∧ s ≤ t ∧ t < f

/-- Each window starts on its own date, before it ends, and lies on that date. -/
structure Daily (h : BusinessHours) : Prop where
  starts : ∀ {d s}, d.InRange → h.isBusinessDay d = true → h.startOn d = .ok s → h.dateAt s = d
  ordered : ∀ {d s f}, h.Window d s f → s < f
  within : ∀ {d s f t}, h.Window d s f → s ≤ t → t < f → h.dateAt t = d

/-- Each window starts before it ends and lies on its own date, and local dates never go back. -/
structure WellFormed (h : BusinessHours) : Prop where
  ordered : ∀ {d s f}, h.Window d s f → s < f
  within : ∀ {d s f t}, h.Window d s f → t.Proper → s ≤ t → t < f → h.dateAt t = d
  monotone : ∀ {t u}, t.Proper → u.Proper → t ≤ u → h.dateAt t ≤ h.dateAt u

/-- No window starts or ends in a leap second. -/
structure Plain (h : BusinessHours) : Prop extends h.WellFormed where
  start : ¬ h.start.IsLeap
  finish : ¬ h.finish.IsLeap

theorem date_ext (hd : d.day = e.day) : d = e := congrArg Date.mk hd

section Steady

variable {o : Offset} (ho : h.zone.Steady (.ofDate d h.start) (.ofDate d h.finish) o)
include ho

theorem startOn_of_steady (hs : h.startOn d = .ok s) :
    s = ⟨d.day * 86400 + h.start.second - o.seconds, h.start.nano⟩ :=
  (Reading.checked_eq_ok.1 (ho.of_first.symm.trans hs)).2

theorem finishOn_of_steady (hf : h.finishOn d = .ok f) :
    f = ⟨d.day * 86400 + h.finish.second - o.seconds, h.finish.nano⟩ :=
  (Reading.checked_eq_ok.1 (ho.of_last.symm.trans hf)).2

theorem dateAt_of_steady (hle : d.day * 86400 + h.start.second - o.seconds ≤ t.second)
    (hge : t.second ≤ d.day * 86400 + h.finish.second - o.seconds) : h.dateAt t = d := by
  have hday := h.finish.second_lt
  refine date_ext ?_
  simp only [dateAt, Zone.shown, ho.between t hle hge, Reading.date]
  omega

end Steady

theorem daily_of_steady (hsteady : ∀ d : Date, d.InRange → h.isBusinessDay d = true →
    ∃ o, h.zone.Steady (.ofDate d h.start) (.ofDate d h.finish) o) : h.Daily := by
  have hclock := h.start_lt_finish
  rw [TimeOfDay.lt_def] at hclock
  constructor
  · intro d s hin hb hs
    obtain ⟨o, ho⟩ := hsteady d hin hb
    obtain rfl := startOn_of_steady ho hs
    exact dateAt_of_steady ho (Int.le_refl _) (by dsimp only; omega)
  · intro d s f w
    obtain ⟨o, ho⟩ := hsteady d w.inRange w.isBusinessDay
    obtain rfl := startOn_of_steady ho w.startOn
    obtain rfl := finishOn_of_steady ho w.finishOn
    simp only [Reading.lt_def]
    omega
  · intro d s f t w hst htf
    obtain ⟨o, ho⟩ := hsteady d w.inRange w.isBusinessDay
    obtain rfl := startOn_of_steady ho w.startOn
    obtain rfl := finishOn_of_steady ho w.finishOn
    simp only [Reading.le_def, Reading.lt_def] at hst htf
    exact dateAt_of_steady ho (by omega) (by omega)

theorem daily_of_fixed {offset : Offset} (hz : h.zone = .fixed offset) : h.Daily :=
  daily_of_steady fun _ _ _ => ⟨offset, hz ▸ Zone.steady_fixed offset _ _⟩

/-- The clocks are changed between the end of the window of one date and the start of the next. -/
def ChangesAtNight (h : BusinessHours) (shown : Int × Int) : Prop :=
  (Max.max shown.1 shown.2 - h.start.second + 86399) / 86400 ≤
    (Min.min shown.1 shown.2 - h.finish.second + 86399) / 86400

instance (h : BusinessHours) (shown : Int × Int) : Decidable (h.ChangesAtNight shown) :=
  inferInstanceAs (Decidable (_ ≤ _))

theorem daily_of_named {name : String} {history : History} (hz : h.zone = .named name history)
    (hordered : history.Ordered) (hnight : ∀ shown ∈ history.readings, h.ChangesAtNight shown) :
    h.Daily := by
  have hclock := h.start_lt_finish
  rw [TimeOfDay.lt_def] at hclock
  refine daily_of_steady fun d _ _ => ?_
  rw [hz]
  refine Zone.steady_named name hordered (by simp only [Reading.ofDate]; omega) ?_
  intro shown hmem
  have hshown := hnight shown hmem
  simp only [ChangesAtNight, History.Apart, Reading.ofDate] at *
  omega

theorem wellFormed_of_fixed {offset : Offset} (hz : h.zone = .fixed offset) : h.WellFormed := by
  have hd := daily_of_fixed hz
  refine ⟨hd.ordered, fun w _ => hd.within w, fun {t u} _ _ htu => ?_⟩
  change (h.dateAt t).day ≤ (h.dateAt u).day
  simp only [dateAt, hz, Zone.shown, Zone.offsetAt, Reading.date, Reading.le_def] at *
  omega

theorem localDate_eq_ok : h.localDate t = .ok d ↔ d.InRange ∧ d = h.dateAt t := by
  rw [localDate, bind_eq_ok]
  constructor
  · rintro ⟨w, hw, hd⟩
    obtain ⟨hin, rfl⟩ := Reading.checked_eq_ok.1 hw
    cases hd
    exact ⟨hin, rfl⟩
  · rintro ⟨hin, rfl⟩
    exact ⟨h.zone.shown t, Reading.checked_eq_ok.2 ⟨hin, rfl⟩, rfl⟩

theorem proper_of_resolve {time : TimeOfDay} (hl : ¬ time.IsLeap)
    (hs : h.zone.resolve (.ofDate d time) = .ok s) : s.Proper := by
  have hw : (Reading.ofDate d time).Regular := Nat.lt_of_not_le hl
  obtain ⟨hin, offset, rfl⟩ := Zone.resolve_cases hw hs
  exact ⟨hin, hw⟩

theorem day_of_startOn (hl : ¬ h.start.IsLeap) (hs : h.startOn d = .ok s) :
    d.day ≤ s.date.day + 1 := by
  have hw : (Reading.ofDate d h.start).Regular := Nat.lt_of_not_le hl
  obtain ⟨-, offset, rfl⟩ := Zone.resolve_cases hw hs
  have heast := offset.east
  simp only [Reading.ofDate, Reading.date]
  omega

theorem dateAt_startOn {offset : Offset} (hz : h.zone = .fixed offset) (hs : h.startOn d = .ok s) :
    h.dateAt s = d := by
  rw [dateAt, Zone.shown_resolve hz hs, Reading.date_ofDate]

theorem lt_startOn_of_fixed {offset : Offset} (hz : h.zone = .fixed offset)
    (hd : (h.dateAt t).day < d.day) (hs : h.startOn d = .ok s) : t < s := by
  rw [Zone.lt_resolve_iff hz hs]
  simp only [dateAt, Reading.date, Reading.ofDate, Reading.lt_def] at hd ⊢
  omega

theorem day_dateAt (h : BusinessHours) (t : Instant) : (h.dateAt t).day ≤ t.date.day + 1 := by
  have heast := (h.zone.offsetAt t).east
  simp only [dateAt, Zone.shown, Reading.date]
  omega

theorem le_day_dateAt (h : BusinessHours) (t : Instant) : t.date.day ≤ (h.dateAt t).day + 1 := by
  have hwest := (h.zone.offsetAt t).west
  simp only [dateAt, Zone.shown, Reading.date]
  omega

theorem Window.unique (w : h.Window d s f) (w' : h.Window d s' f') : s = s' ∧ f = f' :=
  ⟨Except.ok.inj (w.startOn.symm.trans w'.startOn),
    Except.ok.inj (w.finishOn.symm.trans w'.finishOn)⟩

def Known (h : BusinessHours) (d : Date) : Prop :=
  h.isBusinessDay d = true → ∃ s f, h.Window d s f

theorem known_of_lt (hfirst : Date.firstDay < d.day) (hlast : d.day < Date.lastDay) :
    h.Known d := by
  intro hb
  have hok (time : TimeOfDay) : ∃ s, h.zone.resolve (.ofDate d time) = .ok s := by
    refine h.zone.resolve_ok time.nano_lt ?_ ?_
    · rwa [Reading.date_ofDate]
    · rwa [Reading.date_ofDate]
  obtain ⟨s, hs⟩ := hok h.start
  obtain ⟨f, hf⟩ := hok h.finish
  exact ⟨s, f, ⟨Int.le_of_lt hfirst, Int.le_of_lt hlast⟩, hb, hs, hf⟩

theorem isOpen_ok (hd : (h.dateAt t).InRange) (hk : h.Known (h.dateAt t)) :
    ∃ b, h.isOpen t = .ok b := by
  simp only [isOpen, localDate_eq_ok.2 ⟨hd, rfl⟩, ok_bind]
  split
  · next hb =>
    obtain ⟨s, f, w⟩ := hk hb
    simp only [w.startOn, w.finishOn, ok_bind]
    split
    · exact ⟨_, rfl⟩
    · exact ⟨_, rfl⟩
  · exact ⟨_, rfl⟩

section Plain

variable (hp : h.Plain)
include hp

theorem Window.start_proper (w : h.Window d s f) : s.Proper := proper_of_resolve hp.start w.startOn

theorem Window.finish_proper (w : h.Window d s f) : f.Proper :=
  proper_of_resolve hp.finish w.finishOn

theorem Window.dateAt_start (w : h.Window d s f) : h.dateAt s = d :=
  hp.within w (w.start_proper hp) (le_refl s) (hp.ordered w)

theorem dateAt_le (ht : t.Proper) (hu : u.Proper) (htu : t ≤ u) :
    (h.dateAt t).day ≤ (h.dateAt u).day := hp.monotone ht hu htu

theorem lt_of_dateAt_lt (ht : t.Proper) (hu : u.Proper)
    (hd : (h.dateAt t).day < (h.dateAt u).day) : t < u := by
  rw [← Reading.not_le]
  intro hle
  exact absurd (dateAt_le hp hu ht hle) (Int.not_le.2 hd)

theorem Window.lt_start (w : h.Window d s f) (ht : t.Proper) (hd : (h.dateAt t).day < d.day) :
    t < s :=
  lt_of_dateAt_lt hp ht (w.start_proper hp) (by rwa [w.dateAt_start hp])

theorem Window.start_lt (w : h.Window d s f) (ht : t.Proper) (hd : d.day < (h.dateAt t).day) :
    s < t :=
  lt_of_dateAt_lt hp (w.start_proper hp) ht (by rwa [w.dateAt_start hp])

theorem Window.finish_le_start (w : h.Window d s f) (w' : h.Window e s' f') (hd : d.day < e.day) :
    f ≤ s' := by
  rw [← Reading.not_lt]
  intro hlt
  -- Else the later window would start within the earlier one, on its date.
  have hs' := w'.start_proper hp
  have hs : s < s' := w.start_lt hp hs' (by rwa [w'.dateAt_start hp])
  have hdate := hp.within w hs' (le_of_lt hs) hlt
  rw [w'.dateAt_start hp] at hdate
  exact absurd hd (hdate ▸ Int.lt_irrefl _)

theorem Window.finish_le_finish (w : h.Window d s f) (w' : h.Window e s' f') (hlt : s' < f) :
    f' ≤ f := by
  rcases Int.lt_trichotomy e.day d.day with hed | hed | hed
  · exact le_trans (w'.finish_le_start hp w hed) (le_of_lt (hp.ordered w))
  · obtain rfl := date_ext hed
    exact le_of_eq (w'.unique w).2
  · exact absurd hlt (not_lt_of_ge (w.finish_le_start hp w' hed))

theorem Window.day_lt (w : h.Window d s f) (w' : h.Window e s' f') (hlt : f < f') :
    d.day < e.day := by
  rw [← Int.not_le]
  intro hed
  rcases Int.lt_or_eq_of_le hed with hbefore | heq
  · have hs := w'.finish_le_start hp w hbefore
    exact absurd (lt_of_le_of_lt hs (hp.ordered w)) (not_lt_of_ge (le_of_lt hlt))
  · obtain rfl := date_ext heq
    exact absurd hlt (not_lt_of_ge (le_of_eq (w'.unique w).2))

theorem Window.start_le_start (w : h.Window d s f) (w' : h.Window e s' f') (hd : d.day ≤ e.day) :
    s ≤ s' := by
  rcases Int.lt_or_eq_of_le hd with hlt | heq
  · exact le_trans (le_of_lt (hp.ordered w)) (w.finish_le_start hp w' hlt)
  · obtain rfl := date_ext heq
    exact le_of_eq (w.unique w').1

theorem isOpen_eq_true (ht : t.Proper) : h.isOpen t = .ok true ↔ h.Inside t := by
  constructor
  · intro ho
    obtain ⟨d, hd, ho⟩ := bind_eq_ok.1 ho
    obtain ⟨hin, rfl⟩ := localDate_eq_ok.1 hd
    split at ho
    · next hb =>
      obtain ⟨s, hs, ho⟩ := bind_eq_ok.1 ho
      split at ho
      · next hst =>
        obtain ⟨f, hf, ho⟩ := bind_eq_ok.1 ho
        exact ⟨_, s, f, ⟨hin, hb, hs, hf⟩, hst, of_decide_eq_true (Except.ok.inj ho)⟩
      · cases ho
    · cases ho
  · rintro ⟨d, s, f, w, hst, htf⟩
    have hd : h.localDate t = .ok d := localDate_eq_ok.2 ⟨w.inRange, (hp.within w ht hst htf).symm⟩
    simp only [isOpen, hd, ok_bind, w.isBusinessDay, if_true, w.startOn, hst, w.finishOn,
      decide_eq_true htf]
    rfl

end Plain

theorem next_eq_ok {d e : Date} : d.next = .ok e ↔ d.day < Date.lastDay ∧ e = ⟨d.day + 1⟩ := by
  by_cases hd : d.day < Date.lastDay
  · simp only [Date.next, hd, if_true, Except.ok.injEq, true_and, eq_comm]
  · simp only [Date.next, hd, if_false, reduceCtorEq, false_and]

theorem exists_businessDay (h : BusinessHours) (n : Int) :
    ∃ d : Date, n < d.day ∧ d.day ≤ n + 7 ∧ h.isBusinessDay d = true := by
  obtain ⟨wd, rest, hdays⟩ := List.exists_cons_of_ne_nil h.days_ne_nil
  have hlt := wd.index_lt
  refine ⟨⟨n + 1 + (wd.index - (n + 4)) % 7⟩, by simp only []; omega, by simp only []; omega, ?_⟩
  have hindex : ((n + 1 + (wd.index - (n + 4)) % 7 + 3) % 7).toNat = wd.index := by omega
  simp only [isBusinessDay, Date.weekday, hindex, Weekday.ofIndex_index, hdays,
    List.contains_cons, BEq.rfl, Bool.true_or]

theorem scan_ok {x : Date} (w : h.Window x s f) (hts : t ≤ s) (n : Nat) (d : Date)
    (hd : d.day ≤ x.day) (hn : x.day < d.day + n)
    (known : ∀ y : Date, d.day ≤ y.day → y.day < x.day → h.Known y) :
    ∃ s', h.scan t n d = .ok s' := by
  induction n generalizing d with
  | zero => omega
  | succ n ih =>
    rcases Int.lt_or_eq_of_le hd with hlt | heq
    · have hnext : d.next = .ok ⟨d.day + 1⟩ :=
        next_eq_ok.2 ⟨Int.lt_of_lt_of_le hlt w.inRange.2, rfl⟩
      have hlater : ∃ s', h.scan t n ⟨d.day + 1⟩ = .ok s' :=
        ih ⟨d.day + 1⟩ hlt (by dsimp only; omega) fun y hy hyx =>
          known y (by dsimp only at hy; omega) hyx
      cases hb : h.isBusinessDay d with
      | true =>
        obtain ⟨sd, fd, wd⟩ := known d (Int.le_refl _) hlt hb
        simp only [scan, hb, if_true, wd.startOn, ok_bind, hnext]
        split
        · exact ⟨sd, rfl⟩
        · exact hlater
      | false =>
        simp only [scan, hb, hnext, ok_bind]
        exact hlater
    · obtain rfl := date_ext heq
      refine ⟨s, ?_⟩
      simp only [scan, w.isBusinessDay, if_true, w.startOn, ok_bind, hts]
      rfl

theorem of_scan (n : Nat) (d : Date) (hd : d.InRange) (hs : h.scan t n d = .ok s) :
    ∃ x : Date, d.day ≤ x.day ∧ x.InRange ∧ h.isBusinessDay x = true ∧ h.startOn x = .ok s ∧ t ≤ s ∧
      ∀ y sy, h.isBusinessDay y = true → h.startOn y = .ok sy → d.day ≤ y.day → y.day < x.day →
        sy < t := by
  induction n generalizing d with
  | zero => cases hs
  | succ n ih =>
    -- A date that is passed over is one that has no window or one whose window starts too early.
    have later (hrest : (do h.scan t n (← d.next)) = .ok s)
        (hpass : ∀ sd, h.isBusinessDay d = true → h.startOn d = .ok sd → sd < t) :
        ∃ x : Date, d.day ≤ x.day ∧ x.InRange ∧ h.isBusinessDay x = true ∧ h.startOn x = .ok s ∧
          t ≤ s ∧ ∀ y sy, h.isBusinessDay y = true → h.startOn y = .ok sy → d.day ≤ y.day →
            y.day < x.day → sy < t := by
      obtain ⟨next, hnext, hrest⟩ := bind_eq_ok.1 hrest
      obtain ⟨hlt, rfl⟩ := next_eq_ok.1 hnext
      obtain ⟨x, hdx, hx, hb, hstart, hts, least⟩ :=
        ih ⟨d.day + 1⟩ ⟨Int.le_trans hd.1 (Int.le_of_lt (Int.lt_succ _)), hlt⟩ hrest
      dsimp only at hdx least
      refine ⟨x, by omega, hx, hb, hstart, hts, fun y sy hby hsy hy hyx => ?_⟩
      rcases Int.lt_or_eq_of_le hy with hy | hy
      · exact least y sy hby hsy hy hyx
      · obtain rfl := date_ext hy
        exact hpass sy hby hsy
    cases hb : h.isBusinessDay d with
    | true =>
      simp only [scan, hb, if_true] at hs
      obtain ⟨sd, hstart, hs⟩ := bind_eq_ok.1 hs
      split at hs
      · next hts =>
        cases hs
        exact ⟨d, Int.le_refl _, hd, hb, hstart, hts, fun y _ _ _ hy hyd => by omega⟩
      · next hts =>
        refine later hs fun sd' _ hstart' => ?_
        rw [← Except.ok.inj (hstart.symm.trans hstart')]
        exact Reading.not_le.1 hts
    | false =>
      simp only [scan, hb] at hs
      exact later hs fun sd hbd _ => absurd hbd (by simp [hb])

theorem of_nextStart (hp : h.Plain) (ht : t.Proper) (hs : h.nextStart t = .ok s) :
    (h.dateAt t).InRange ∧ ∃ x : Date, (h.dateAt t).day ≤ x.day ∧ x.InRange ∧
      h.isBusinessDay x = true ∧ h.startOn x = .ok s ∧ t ≤ s ∧
      ∀ y sy fy, h.Window y sy fy → y.day < x.day → sy < t := by
  obtain ⟨d, hd, hs⟩ := bind_eq_ok.1 hs
  obtain ⟨hin, rfl⟩ := localDate_eq_ok.1 hd
  obtain ⟨x, hdx, hx, hb, hstart, hts, least⟩ := of_scan _ _ hin hs
  refine ⟨hin, x, hdx, hx, hb, hstart, hts, fun y sy fy wy hyx => ?_⟩
  by_cases hy : (h.dateAt t).day ≤ y.day
  · exact least y sy wy.isBusinessDay wy.startOn hy hyx
  · exact wy.start_lt hp ht (Int.not_le.1 hy)

theorem nextStart_ok (hp : h.Plain) (w : h.Window d s f) (ht : t.Proper) (hts : t ≤ s)
    (hin : (h.dateAt t).InRange) (hk : h.Known (h.dateAt t)) :
    ∃ x s' f', h.nextStart t = .ok s' ∧ h.Window x s' f' ∧ t ≤ s' ∧ s' ≤ s ∧
      ∀ y sy fy, h.Window y sy fy → sy < t ∨ s' ≤ sy := by
  have hd : (h.dateAt t).day ≤ d.day := by
    have := dateAt_le hp ht (w.start_proper hp) hts
    rwa [w.dateAt_start hp] at this
  have known : ∀ y : Date, (h.dateAt t).day ≤ y.day → y.day ≤ d.day → h.Known y := by
    intro y hy hyd
    rcases Int.lt_or_eq_of_le hy with hlt | heq
    · rcases Int.lt_or_eq_of_le hyd with hlt' | heq'
      · exact known_of_lt (Int.lt_of_le_of_lt hin.1 hlt) (Int.lt_of_lt_of_le hlt' w.inRange.2)
      · exact date_ext heq' ▸ fun _ => ⟨s, f, w⟩
    · exact date_ext heq ▸ hk
  -- The window may lie far ahead, but some business day is one of the next seven.
  have near : ∃ x s₀ f₀, h.Window x s₀ f₀ ∧ t ≤ s₀ ∧ (h.dateAt t).day ≤ x.day ∧
      x.day < (h.dateAt t).day + scanLimit ∧ x.day ≤ d.day := by
    rw [scanLimit]
    obtain ⟨x, hlt, hle, hb⟩ := exists_businessDay h (h.dateAt t).day
    by_cases hxd : x.day ≤ d.day
    · obtain ⟨s₀, f₀, w₀⟩ := known x (Int.le_of_lt hlt) hxd hb
      exact ⟨x, s₀, f₀, w₀, le_of_lt (w₀.lt_start hp ht hlt), Int.le_of_lt hlt, by omega, hxd⟩
    · exact ⟨d, s, f, w, hts, hd, by omega, Int.le_refl _⟩
  obtain ⟨x₀, s₀, f₀, w₀, hts₀, hdx₀, hlimit, hx₀d⟩ := near
  obtain ⟨s', hscan⟩ := scan_ok w₀ hts₀ scanLimit (h.dateAt t) hdx₀ hlimit fun y hy hyx =>
    known y hy (Int.le_of_lt (Int.lt_of_lt_of_le hyx hx₀d))
  have hnext : h.nextStart t = .ok s' := by
    rw [nextStart, localDate_eq_ok.2 ⟨hin, rfl⟩]
    exact hscan
  obtain ⟨-, x, hdx, -, hb, hstart, hts', least⟩ := of_nextStart hp ht hnext
  have hxd : x.day ≤ d.day := by
    rw [← Int.not_lt]
    exact fun hlt => absurd (least d s f w hlt) (not_lt_of_ge hts)
  obtain ⟨sx, fx, wx⟩ := known x hdx hxd hb
  obtain rfl := Except.ok.inj (hstart.symm.trans wx.startOn)
  refine ⟨x, s', fx, hnext, wx, hts', wx.start_le_start hp w hxd, fun y sy fy wy => ?_⟩
  by_cases hyx : y.day < x.day
  · exact .inl (least y sy fy wy hyx)
  · exact .inr (wx.start_le_start hp wy (Int.not_lt.1 hyx))

end Followup.BusinessHours
