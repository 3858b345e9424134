import Followup.BusinessHours.Reader
import Followup.Proofs.BusinessHours.Measure
import Mathlib.Data.Finset.Card

/-! Where the searches of business hours land, in every zone and for every instant, leap seconds
included. What they find is open if each window is a stretch of time on one date. A clock that is
put forward can leave nothing of a window; then a search lands outside of business hours, and an
addition that comes to such a window never ends. -/

namespace Followup

namespace TimeOfDay

def IsWhole (t : TimeOfDay) : Prop := t.nano = 0 ∨ t.nano = 1000000000

theorem IsWhole.nano_le {t : TimeOfDay} (ht : t.IsWhole) : t.nano ≤ 1000000000 := by
  rw [IsWhole] at ht
  omega

theorem isWhole_of_ofFields? {hour minute second : Nat} {t : TimeOfDay}
    (ht : ofFields? hour minute second 0 = some t) : t.IsWhole := by
  rw [ofFields?] at ht
  split at ht
  · cases ht
    exact .inl rfl
  · split at ht
    · cases ht
      exact .inr rfl
    · cases ht

theorem isWhole_of_read {text : String} {t : TimeOfDay} (ht : read text = .ok t) : t.IsWhole := by
  simp only [read] at ht
  split at ht
  · next t' hread =>
    cases ht
    simp only [read?] at hread
    split at hread
    · split at hread
      · exact isWhole_of_ofFields? hread
      · split at hread
        · exact isWhole_of_ofFields? hread
        · cases hread
      · cases hread
    · cases hread
  · cases ht

end TimeOfDay

namespace BusinessHours

variable {h : BusinessHours} {d : Date} {c s f t u : Instant}

/-- An instant at the start of the window of its date, or later and before the end of it. -/
structure Covers (h : BusinessHours) (t : Instant) : Prop where
  inRange : (h.dateAt t).InRange
  isBusinessDay : h.isBusinessDay (h.dateAt t) = true
  window : ∃ s, h.startOn (h.dateAt t) = .ok s ∧ s ≤ t ∧
    (t = s ∨ ∃ f, h.finishOn (h.dateAt t) = .ok f ∧ t < f)

noncomputable def ahead (h : BusinessHours) (t : Instant) : Finset Int :=
  open Classical in
  (dayRange Date.firstDay Date.lastDay).filter fun day => ∃ s, h.startOn ⟨day⟩ = .ok s ∧ t < s

theorem mem_ahead {day : Int} : day ∈ h.ahead t ↔
    (Date.firstDay ≤ day ∧ day ≤ Date.lastDay) ∧ ∃ s, h.startOn ⟨day⟩ = .ok s ∧ t < s := by
  classical
  simp only [ahead, Finset.mem_filter, mem_dayRange]

theorem localDate_ends (h : BusinessHours) (t : Instant) :
    (h.localDate t).Ends fun d => d.InRange ∧ d = h.dateAt t :=
  (Reading.checked_ends _).bind fun _ ⟨hin, hw⟩ => Checked.ends_ok (by subst hw; exact ⟨hin, rfl⟩)

theorem Daily.lt_finish (hd : h.Daily) (hc : h.Covers t) (hf : h.finishOn (h.dateAt t) = .ok f) :
    t < f := by
  obtain ⟨s, hs, -, hts | ⟨f', hf', htf⟩⟩ := hc.window
  · exact hts ▸ hd.ordered ⟨hc.inRange, hc.isBusinessDay, hs, hf⟩
  · exact Except.ok.inj (hf'.symm.trans hf) ▸ htf

theorem Daily.isOpen_ends (hd : h.Daily) (t : Instant) :
    (h.isOpen t).Ends fun b => b = true ↔ h.Covers t := by
  refine (h.localDate_ends t).bind fun d ⟨hin, hdate⟩ => ?_
  subst hdate
  by_cases hb : h.isBusinessDay (h.dateAt t) = true
  · rw [if_pos hb]
    refine (h.zone.resolve_ends _).bind fun s hs => ?_
    by_cases hst : s ≤ t
    · rw [if_pos hst]
      refine (h.zone.resolve_ends _).bind fun f hf => Checked.ends_ok ?_
      rw [decide_eq_true_iff]
      exact ⟨fun htf => ⟨hin, hb, s, hs, hst, .inr ⟨f, hf, htf⟩⟩, fun hc => hd.lt_finish hc hf⟩
    · rw [if_neg hst]
      refine Checked.ends_ok ⟨fun hfalse => absurd hfalse Bool.false_ne_true, fun hc => ?_⟩
      obtain ⟨s', hs', hst', -⟩ := hc.window
      exact absurd (Except.ok.inj (hs'.symm.trans hs) ▸ hst') hst
  · rw [if_neg hb]
    exact Checked.ends_ok ⟨fun hfalse => absurd hfalse Bool.false_ne_true,
      fun hc => absurd hc.isBusinessDay hb⟩

theorem Window.covers (w : h.Window d s f) (hdate : h.dateAt t = d) (hst : s ≤ t) (htf : t < f) :
    h.Covers t := by
  subst hdate
  exact ⟨w.inRange, w.isBusinessDay, s, w.startOn, hst, .inr ⟨f, w.finishOn, htf⟩⟩

theorem Daily.isOpen (hd : h.Daily) (hc : h.Covers t) : (h.isOpen t).Ends (· = true) :=
  (hd.isOpen_ends t).mono fun _ hb => hb.2 hc

theorem scan_ends {x : Date} (hb : h.isBusinessDay x = true)
    (hstart : ∀ s, h.startOn x = .ok s → t ≤ s) (n : Nat) (d : Date) (hd : d.day ≤ x.day)
    (hn : x.day < d.day + n) : (h.scan t n d).Ends fun s => h.scan t n d = .ok s := by
  suffices hends : (h.scan t n d).Ends fun _ => True from hends.self
  -- The search cannot pass `x`, which is among the dates that it still has to look at.
  induction n generalizing d with
  | zero => omega
  | succ n ih =>
    have hlater (hne : d ≠ x) : Checked.Ends (do h.scan t n (← d.next)) fun _ => True := by
      by_cases hlast : d.day < Date.lastDay
      · rw [next_eq_ok.2 ⟨hlast, rfl⟩, ok_bind]
        have hday : d.day ≠ x.day := fun heq => hne (date_ext heq)
        exact ih ⟨d.day + 1⟩ (by dsimp only; omega) (by dsimp only; omega)
      · have hnone : d.next = .error .outOfRange := if_neg hlast
        rw [hnone]
        exact .inl rfl
    rw [scan]
    by_cases hbd : h.isBusinessDay d = true
    · rw [if_pos hbd]
      refine (h.zone.resolve_ends _).bind fun s hs => ?_
      by_cases hts : t ≤ s
      · rw [if_pos hts]
        exact Checked.ends_ok trivial
      · rw [if_neg hts]
        refine hlater fun heq => ?_
        subst heq
        exact hts (hstart s hs)
    · rw [if_neg hbd]
      refine hlater fun heq => ?_
      subst heq
      exact hbd hb

theorem lt_startOn (hd : (h.dateAt t).day + 2 < d.day) (hs : h.startOn d = .ok s) : t < s := by
  -- Offsets shift a window by less than a day, and clocks show dates less than a day off.
  obtain ⟨-, -, hnear, -⟩ := Zone.resolve_near h.start.nano_lt hs
  have hwest := (h.zone.offsetAt t).west
  simp only [dateAt, Zone.shown, Reading.date, Reading.ofDate, Reading.lt_def] at *
  omega

theorem nextStart_ends (h : BusinessHours) (t : Instant) :
    (h.nextStart t).Ends fun s => t ≤ s ∧ ∃ d : Date, d.InRange ∧ h.isBusinessDay d = true ∧
      h.startOn d = .ok s := by
  refine (h.localDate_ends t).bind fun d ⟨hin, hd⟩ => ?_
  subst hd
  obtain ⟨x, hlt, hle, hb⟩ := exists_businessDay h ((h.dateAt t).day + 2)
  have hends := scan_ends hb (fun s hs => le_of_lt (lt_startOn hlt hs)) scanLimit (h.dateAt t)
    (by omega) (by rw [scanLimit]; omega)
  refine hends.mono fun s hs => ?_
  obtain ⟨y, -, hy, hby, hstart, hts, -⟩ := of_scan scanLimit (h.dateAt t) hin hs
  exact ⟨hts, y, hy, hby, hstart⟩

theorem Daily.covers_start (hd : h.Daily) (hin : d.InRange) (hb : h.isBusinessDay d = true)
    (hs : h.startOn d = .ok s) : h.Covers s := by
  obtain rfl := hd.starts hin hb hs
  exact ⟨hin, hb, s, hs, le_refl s, .inl rfl⟩

theorem Daily.nextStart_ends (hd : h.Daily) (t : Instant) :
    (h.nextStart t).Ends fun s => t ≤ s ∧ h.Covers s :=
  (h.nextStart_ends t).mono fun _ ⟨hts, _, hin, hb, hs⟩ => ⟨hts, hd.covers_start hin hb hs⟩

theorem Daily.firstOpen_ends (hd : h.Daily) (t : Instant) :
    (h.firstOpen t).Ends fun s => t ≤ s ∧ h.Covers s := by
  refine (hd.isOpen_ends t).bind fun b hb => ?_
  cases b with
  | true => exact Checked.ends_ok ⟨le_refl t, hb.1 rfl⟩
  | false => exact hd.nextStart_ends t

theorem card_ahead_lt (hcu : c < u) (hin : d.InRange) (hs : h.startOn d = .ok u) :
    (h.ahead u).card < (h.ahead c).card := by
  refine Finset.card_lt_card ⟨fun day hday => ?_, fun hsub => ?_⟩
  · obtain ⟨hday, s, hs, hus⟩ := mem_ahead.1 hday
    exact mem_ahead.2 ⟨hday, s, hs, lt_trans hcu hus⟩
  · have hmem : d.day ∈ h.ahead c := mem_ahead.2 ⟨hin, u, hs, hcu⟩
    obtain ⟨-, s, hs', hus⟩ := mem_ahead.1 (hsub hmem)
    obtain rfl := Except.ok.inj (hs.symm.trans hs')
    exact lt_irrefl u hus

theorem card_ahead_lt_limit (h : BusinessHours) (t : Instant) :
    (h.ahead t).card < spendLimit := by
  have hsub : h.ahead t ⊆ dayRange Date.firstDay Date.lastDay := fun day hday =>
    mem_dayRange.2 (mem_ahead.1 hday).1
  have hle := (Finset.card_le_card hsub).trans Finset.card_image_le
  rw [Finset.card_range] at hle
  rw [spendLimit]
  omega

/-- A walk that starts in a window ends in one: the amount ends within a window, or the walk goes
on from the start of a later one, of which there are fewer each time. -/
theorem Daily.spend_ends (hd : h.Daily) (rounds : Nat) (c : Instant) (r : Span) (hc : h.Covers c)
    (hrounds : (h.ahead c).card < rounds) :
    (h.spend rounds c r).Ends fun u => h.finish.nano ≤ 1000000000 → c ≤ u ∧ h.Covers u := by
  -- Each round leaves fewer windows ahead than there were, and the rounds outnumber them.
  induction rounds generalizing c r with
  | zero => exact absurd hrounds (Nat.not_lt_zero _)
  | succ rounds ih =>
    rw [spend]
    by_cases hr : r ≤ Span.zero
    · rw [if_pos hr]
      exact Checked.ends_ok fun _ => ⟨le_refl c, hc⟩
    rw [if_neg hr]
    refine (h.localDate_ends c).bind fun d ⟨hin, hdate⟩ => ?_
    subst hdate
    refine (h.zone.resolve_ends _).bind fun close hclose => ?_
    obtain ⟨s, hs, hsc, -⟩ := hc.window
    have w : h.Window (h.dateAt c) s close := ⟨hin, hc.isBusinessDay, hs, hclose⟩
    have hcclose : c < close := hd.lt_finish hc hclose
    by_cases hlt : r < close.since c
    · rw [if_pos hlt]
      refine (Reading.checked_ends _).mono fun u ⟨_, hu⟩ hf => ?_
      have hnano : close.nano ≤ 1000000000 :=
        Nat.le_trans (Zone.resolve_near h.finish.nano_lt hclose).2.1 hf
      obtain ⟨hle, hbefore⟩ := Reading.shift_within hnano hcclose (Int.not_le.1 hr) hlt
      have hdate : h.dateAt (c.shift r) = h.dateAt c :=
        hd.within w (le_trans hsc hle) hbefore
      exact hu ▸ ⟨hle, w.covers hdate (le_trans hsc hle) hbefore⟩
    · rw [if_neg hlt]
      refine (h.nextStart_ends close).bind fun c' ⟨hclosec', x, hx, hb, hstart⟩ => ?_
      have hcc' : c < c' := lt_of_lt_of_le hcclose hclosec'
      have hfewer := card_ahead_lt hcc' hx hstart
      have hends := ih c' (r - close.since c) (hd.covers_start hx hb hstart) (by omega)
      refine hends.mono fun u hu hf => ?_
      obtain ⟨hle, hcovers⟩ := hu hf
      exact ⟨le_trans (le_of_lt hcc') hle, hcovers⟩

theorem Daily.add_returns (hd : h.Daily) (t : Instant) (amount : Span) :
    (h.add t amount).Ends fun u => h.finish.nano ≤ 1000000000 → t ≤ u ∧ h.Covers u := by
  refine (hd.firstOpen_ends t).bind fun c ⟨htc, hc⟩ => ?_
  have hends := hd.spend_ends spendLimit c amount hc (h.card_ahead_lt_limit c)
  refine hends.mono fun u hu hf => ?_
  obtain ⟨hcu, hcovers⟩ := hu hf
  exact ⟨le_trans htc hcu, hcovers⟩

theorem Daily.add_ends (hd : h.Daily) (hf : h.finish.nano ≤ 1000000000) (t : Instant)
    (amount : Span) : (h.add t amount).Ends fun u => t ≤ u ∧ h.Covers u :=
  (hd.add_returns t amount).mono fun _ hu => hu hf

theorem exists_nextStart (hfirst : Date.firstDay + 2 < t.date.day)
    (hlast : t.date.day + 11 < Date.lastDay) : ∃ s, h.nextStart t = .ok s := by
  have hdate := h.day_dateAt t
  have hdate' := h.le_day_dateAt t
  obtain ⟨x, hlt, hle, hb⟩ := exists_businessDay h ((h.dateAt t).day + 2)
  have known (y : Date) (hy : (h.dateAt t).day ≤ y.day) (hyx : y.day ≤ x.day) : h.Known y :=
    known_of_lt (by omega) (by omega)
  obtain ⟨s, f, w⟩ := known x (by omega) (Int.le_refl _) hb
  obtain ⟨s', hscan⟩ := scan_ok w (le_of_lt (lt_startOn hlt w.startOn)) scanLimit (h.dateAt t)
    (by omega) (by rw [scanLimit]; omega) fun y hy hyx => known y hy (Int.le_of_lt hyx)
  have hin : (h.dateAt t).InRange := ⟨by omega, by omega⟩
  refine ⟨s', ?_⟩
  rw [nextStart, localDate_eq_ok.2 ⟨hin, rfl⟩]
  exact hscan

theorem exists_firstOpen (hfirst : Date.firstDay + 2 < t.date.day)
    (hlast : t.date.day + 11 < Date.lastDay) : ∃ s, h.firstOpen t = .ok s := by
  have hdate := h.day_dateAt t
  have hdate' := h.le_day_dateAt t
  obtain ⟨b, hb⟩ := isOpen_ok (h := h) (t := t) ⟨by omega, by omega⟩
    (known_of_lt (by omega) (by omega))
  rw [firstOpen, hb, ok_bind]
  cases b with
  | true => exact ⟨t, rfl⟩
  | false => exact exists_nextStart hfirst hlast

theorem isWhole_of_read {days start finish zone : String}
    (hread : (read days start finish zone).run = .ok (.ok h)) :
    h.start.IsWhole ∧ h.finish.IsWhole := by
  obtain ⟨days', -, hread⟩ := Fallible.bind_eq_ok.1 hread
  obtain ⟨start', hstart, hread⟩ := Fallible.bind_eq_ok.1 hread
  obtain ⟨finish', hfinish, hread⟩ := Fallible.bind_eq_ok.1 hread
  obtain ⟨zone', -, hread⟩ := Fallible.bind_eq_ok.1 hread
  rw [Fallible.liftExcept_eq_ok] at hstart hfinish hread
  obtain ⟨-, hs, hf, -⟩ := of_build hread
  exact ⟨hs ▸ TimeOfDay.isWhole_of_read hstart, hf ▸ TimeOfDay.isWhole_of_read hfinish⟩

theorem Window.spend_endless (w : h.Window d s f) (hds : h.dateAt s = d) (hdf : h.dateAt f = d)
    (hs : s.Regular) (hf : f.Regular) (hfs : f ≤ s) (rounds : Nat) (r : Span) (hr : .zero < r) :
    h.spend rounds s r = .error .endless := by
  have hclose : h.localDate s = .ok d := localDate_eq_ok.2 ⟨w.inRange, hds.symm⟩
  have hback : h.nextStart f = .ok s := by
    rw [nextStart, localDate_eq_ok.2 ⟨w.inRange, hdf.symm⟩, ok_bind, scanLimit, scan,
      if_pos w.isBusinessDay, w.startOn, ok_bind, if_pos hfs]
    rfl
  have hlen := Reading.since_of_regular hf hs
  rw [Reading.le_iff_nanos hf hs] at hfs
  rw [Span.lt_def, Span.nanos_zero] at hr
  induction rounds generalizing r with
  | zero => rfl
  | succ rounds ih =>
    have hsome : ¬ r ≤ Span.zero := Int.not_le.2 hr
    have hover : ¬ r < f.since s := by
      rw [Span.lt_def]
      omega
    rw [spend, if_neg hsome, hclose, ok_bind, w.finishOn, ok_bind]
    dsimp only
    rw [if_neg hover, hback, ok_bind]
    exact ih _ (by rw [Span.nanos_sub]; omega)

/-- What a search finds is open, where windows are daily and do not end within a leap second, and a
search fails only where the calendar ends. Hours read from a text never end within a leap second. -/
theorem lands_open (h : BusinessHours) (t : Instant) (amount : Span) (hd : h.Daily)
    (hf : h.finish.nano ≤ 1000000000) :
    (h.nextStart t).Ends (fun s => t ≤ s ∧ (h.isOpen s).Ends (· = true)) ∧
    (h.firstOpen t).Ends (fun s => t ≤ s ∧ (h.isOpen s).Ends (· = true)) ∧
    (h.add t amount).Ends (fun u => t ≤ u ∧ (h.isOpen u).Ends (· = true)) ∧
    (Date.firstDay + 2 < t.date.day → t.date.day + 11 < Date.lastDay →
      (∃ s, h.nextStart t = .ok s) ∧ ∃ s, h.firstOpen t = .ok s) := by
  have open_of {s : Instant} (hs : t ≤ s ∧ h.Covers s) : t ≤ s ∧ (h.isOpen s).Ends (· = true) :=
    ⟨hs.1, hd.isOpen hs.2⟩
  refine ⟨?_, ?_, ?_, fun hfirst hlast => ?_⟩
  · exact (hd.nextStart_ends t).mono fun s => open_of
  · exact (hd.firstOpen_ends t).mono fun s => open_of
  · exact (hd.add_ends hf t amount).mono fun u => open_of
  · exact ⟨exists_nextStart hfirst hlast, exists_firstOpen hfirst hlast⟩

def berlin : BusinessHours :=
  { standard with
    days := Weekday.all
    zone := .named "Europe/Berlin" .europeBerlin
    days_ne_nil := by decide }

theorem daily_berlin : berlin.Daily :=
  daily_of_named rfl (by decide +kernel) (by decide +kernel)

theorem lands_open_berlin :
    berlin.Daily ∧ berlin.finish.nano ≤ 1000000000 ∧
      berlin.add ⟨1774729800, 0⟩ (.ofHours 1) = .ok ⟨1774758600, 0⟩ ∧
      (berlin.isOpen ⟨1774758600, 0⟩).Ends (· = true) := by
  have hfinish : berlin.finish.nano ≤ 1000000000 := by decide
  have hadd : berlin.add ⟨1774729800, 0⟩ (.ofHours 1) = .ok ⟨1774758600, 0⟩ := by decide +kernel
  have hopen := (lands_open berlin ⟨1774729800, 0⟩ (.ofHours 1) daily_berlin hfinish).2.2.1
  exact ⟨daily_berlin, hfinish, hadd, (hopen.of_eq_ok hadd).2⟩

def nightShift : BusinessHours where
  days := [.sun]
  start := { standard.start with second := 9000, second_lt := by decide }
  finish := { standard.finish with second := 12600, second_lt := by decide }
  zone := .named "Europe/Berlin" .europeBerlin
  days_ne_nil := by decide
  start_lt_finish := by decide

theorem nightShift_lands_closed :
    build [.sun] nightShift.start nightShift.finish nightShift.zone = .ok nightShift ∧
    nightShift.nextStart ⟨1774742400, 0⟩ = .ok ⟨1774747800, 0⟩ ∧
    nightShift.firstOpen ⟨1774742400, 0⟩ = .ok ⟨1774747800, 0⟩ ∧
    nightShift.isOpen ⟨1774747800, 0⟩ = .ok false ∧
    ∀ amount, .zero < amount →
      nightShift.add ⟨1774742400, 0⟩ amount = .error .endless ∧
      ∀ rounds, nightShift.spend rounds ⟨1774747800, 0⟩ amount = .error .endless := by
  have w : nightShift.Window ⟨20541⟩ ⟨1774747800, 0⟩ ⟨1774747800, 0⟩ := by
    constructor <;> decide +kernel
  have hdate : nightShift.dateAt ⟨1774747800, 0⟩ = ⟨20541⟩ := by decide +kernel
  have hfirst : nightShift.firstOpen ⟨1774742400, 0⟩ = .ok ⟨1774747800, 0⟩ := by decide +kernel
  have never (amount : Span) (hpos : .zero < amount) (rounds : Nat) :
      nightShift.spend rounds ⟨1774747800, 0⟩ amount = .error .endless :=
    w.spend_endless hdate hdate (by decide) (by decide) (le_refl _) rounds amount hpos
  refine ⟨rfl, by decide +kernel, hfirst, by decide +kernel, fun amount hpos => ?_⟩
  refine ⟨?_, never amount hpos⟩
  rw [add, hfirst, ok_bind]
  exact never amount hpos spendLimit

end BusinessHours

end Followup
