import Followup.Proofs.BusinessHours.Membership
import Followup.Proofs.Calendar.Turns

/-! Business hours on a date on which the clocks are changed. Put back, the clocks show earlier
readings than before; but they pass a reading only once unless a change skips it or shows it again,
so a window between two such readings is open just when the clocks show a time within it. -/

namespace Followup

namespace History

variable {history : History} {base : Offset} {changes : List (Int × Offset)}
  {start utc utc' second : Int}

/-- No change of the clocks skips the reading or shows it again. -/
def Clear (history : History) (second : Int) : Prop :=
  ∀ τ ∈ history.turns, ¬ τ.Skips second ∧ ¬ τ.Repeats second

instance (history : History) (second : Int) : Decidable (history.Clear second) :=
  inferInstanceAs (Decidable (∀ τ ∈ history.turns, ¬ τ.Skips second ∧ ¬ τ.Repeats second))

theorem lt_shown_of_lt (hpast : second < start + base.seconds)
    (hstart : ∀ since ∈ changes.map Prod.fst, start ≤ since)
    (hordered : (changes.map Prod.fst).Pairwise (· ≤ ·))
    (hnever : ∀ τ ∈ turnsFrom base changes, ¬ τ.Repeats second) (hle : start ≤ utc) :
    second < utc + (offsetFrom base utc changes).seconds := by
  induction changes generalizing base start with
  | nil =>
    rw [offsetFrom]
    omega
  | cons change rest ih =>
    obtain ⟨turn, next⟩ := change
    obtain ⟨hfirst, hrest⟩ := List.pairwise_cons.1 hordered
    by_cases hturn : utc < turn
    · rw [offsetFrom, if_pos hturn]
      omega
    · have hstartTurn : start ≤ turn := hstart turn (List.mem_cons_self ..)
      have hnext : second < turn + next.seconds := by
        have hfresh : ¬ (Turn.mk turn base next).Repeats second :=
          hnever _ (List.mem_cons_self ..)
        simp only [Turn.Repeats] at hfresh
        omega
      rw [offsetFrom, if_neg hturn]
      exact ih hnext hfirst hrest (fun τ hτ => hnever τ (List.mem_cons_of_mem _ hτ))
        (Int.not_lt.1 hturn)

theorem lt_shown_of_le (hreached : second ≤ utc + (offsetFrom base utc changes).seconds)
    (hordered : (changes.map Prod.fst).Pairwise (· ≤ ·))
    (hnever : ∀ τ ∈ turnsFrom base changes, ¬ τ.Repeats second) (hlt : utc < utc') :
    second < utc' + (offsetFrom base utc' changes).seconds := by
  induction changes generalizing base with
  | nil =>
    rw [offsetFrom] at hreached ⊢
    omega
  | cons change rest ih =>
    obtain ⟨turn, next⟩ := change
    obtain ⟨hfirst, hrest⟩ := List.pairwise_cons.1 hordered
    by_cases hturn : utc < turn
    · rw [offsetFrom, if_pos hturn] at hreached
      have hpast : second < utc + 1 + base.seconds := by omega
      refine lt_shown_of_lt hpast (fun since hsince => ?_) hordered hnever hlt
      rcases List.mem_cons.1 hsince with rfl | hsince
      · exact hturn
      · exact Int.le_trans hturn (hfirst since hsince)
    · rw [offsetFrom, if_neg hturn] at hreached
      rw [offsetFrom, if_neg (by omega)]
      exact ih hreached hrest fun τ hτ => hnever τ (List.mem_cons_of_mem _ hτ)

end History

namespace Zone

variable {zone : Zone} {name : String} {history : History} {w : WallTime}

theorem passes_of_clear (hz : zone = .named name history) (hordered : history.Ordered)
    (hclear : history.Clear w.second) : zone.Passes w := by
  intro s t hs
  cases hfound : history.localOffset? w.second with
  | none =>
    obtain ⟨τ, hτ, hskips⟩ := History.exists_skip hfound fun since hsince => nomatch hsince
    exact absurd hskips (hclear τ hτ).1
  | some o =>
    have hresolve : Reading.checked ⟨w.second - o.seconds, w.nano⟩ = .ok s := by
      subst hz
      simpa only [resolve, hfound] using hs
    obtain ⟨-, rfl⟩ := Reading.checked_eq_ok.1 hresolve
    have hshown : w.second - o.seconds + (history.offsetAt (w.second - o.seconds)).seconds =
        w.second := (History.isLeast_of_localOffset? hordered hfound).1
    have hnever : ∀ τ ∈ history.turns, ¬ τ.Repeats w.second := fun τ hτ => (hclear τ hτ).2
    have later (utc utc' : Int) (hreached : w.second ≤ utc + (history.offsetAt utc).seconds)
        (hlt : utc < utc') : w.second < utc' + (history.offsetAt utc').seconds :=
      History.lt_shown_of_le hreached hordered hnever hlt
    have hwall : zone.shown t = ⟨t.second + (history.offsetAt t.second).seconds, t.nano⟩ :=
      (shown_eq_iff hz).2 ⟨rfl, rfl⟩
    rw [hwall, Reading.le_def, Reading.le_def]
    dsimp only
    rcases Int.lt_trichotomy t.second (w.second - o.seconds) with hlt | heq | hgt
    · -- Had the reading been reached already, it would be past when it is shown.
      have hbefore : ¬ w.second ≤ t.second + (history.offsetAt t.second).seconds := fun hreached =>
        absurd (later _ _ hreached hlt) (by omega)
      omega
    · rw [heq]
      omega
    · have hafter := later _ _ (Int.le_of_eq hshown.symm) hgt
      omega

end Zone

namespace BusinessHours

variable {h : BusinessHours} {t : Instant} {name : String} {history : History}

theorem isOpen_ends (h : BusinessHours) (t : Instant) :
    (h.isOpen t).Ends fun b => h.isOpen t = .ok b := by
  refine Checked.Ends.self (p := fun _ => True) ?_
  refine (h.localDate_ends t).bind fun d _ => ?_
  split
  · refine (h.zone.resolve_ends _).bind fun s _ => ?_
    split
    · exact (h.zone.resolve_ends _).bind fun f _ => Checked.ends_ok trivial
    · exact Checked.ends_ok trivial
  · exact Checked.ends_ok trivial

/-- In a zone whose clocks are changed, however close the changes are, hours go by the clocks on
every date on which the clocks pass both ends of the window once: an instant is open just when the
clocks show one of the days and a time from the start up to the end, whether or not they show it
again or skip what comes next. This can be told but for the ends of the calendar. -/
theorem isOpen_of_clear {days : List Weekday} {start finish : TimeOfDay}
    (hnew : build days start finish (.named name history) = .ok h) (hordered : history.Ordered)
    (ht : t.nano < 2000000000)
    (hstart : history.Clear (Reading.ofDate (h.dateAt t) start).second)
    (hfinish : history.Clear (Reading.ofDate (h.dateAt t) finish).second) :
    ((h.isOpen t).Ends fun b => b = true ↔ ∃ date time,
      (Zone.named name history).shown t = .ofDate date time ∧ date.weekday ∈ days ∧
        ¬ time < start ∧ time < finish) ∧
    (Date.firstDay + 1 < t.date.day → t.date.day + 1 < Date.lastDay →
      ∃ b, h.isOpen t = .ok b) := by
  obtain ⟨hdays, rfl, rfl, hz⟩ := of_build hnew
  refine ⟨(h.isOpen_ends t).mono fun b ho => ?_, fun hfirst hlast => ?_⟩
  · have hin := isOpen_iff_of_passes (Zone.passes_of_clear hz hordered hstart)
      (Zone.passes_of_clear hz hordered hfinish) ho
    rw [hin, inHours_iff ht, hz]
    simp only [hdays]
  · have hdate := h.day_dateAt t
    have hdate' := h.le_day_dateAt t
    exact isOpen_ok ⟨by omega, by omega⟩ (known_of_lt (by omega) (by omega))

def nightWatch : BusinessHours :=
  { berlin with
    start := { berlin.start with second := 4500, second_lt := by decide }
    finish := { berlin.finish with second := 13500, second_lt := by decide }
    start_lt_finish := by decide }

theorem isOpen_of_clear_repeated :
    History.europeBerlin.Ordered ∧
      History.europeBerlin.Clear
        (Reading.ofDate (nightWatch.dateAt ⟨1792891800, 0⟩) nightWatch.start).second ∧
      History.europeBerlin.Clear
        (Reading.ofDate (nightWatch.dateAt ⟨1792891800, 0⟩) nightWatch.finish).second ∧
      (Zone.named "Europe/Berlin" .europeBerlin).shown ⟨1792888200, 0⟩ =
        (Zone.named "Europe/Berlin" .europeBerlin).shown ⟨1792891800, 0⟩ ∧
      nightWatch.isOpen ⟨1792891800, 0⟩ = .ok true := by
  have hordered : History.europeBerlin.Ordered := by decide +kernel
  have hstart : History.europeBerlin.Clear
      (Reading.ofDate (nightWatch.dateAt ⟨1792891800, 0⟩) nightWatch.start).second := by
    decide +kernel
  have hfinish : History.europeBerlin.Clear
      (Reading.ofDate (nightWatch.dateAt ⟨1792891800, 0⟩) nightWatch.finish).second := by
    decide +kernel
  have hnew : build Weekday.all nightWatch.start nightWatch.finish
      (.named "Europe/Berlin" .europeBerlin) = .ok nightWatch := rfl
  obtain ⟨hends, htold⟩ := isOpen_of_clear hnew hordered (t := ⟨1792891800, 0⟩) (by decide) hstart
    hfinish
  obtain ⟨b, hb⟩ := htold (by decide) (by decide)
  refine ⟨hordered, hstart, hfinish, by decide +kernel, ?_⟩
  rw [hb, (hends.of_eq_ok hb).2]
  exact ⟨⟨20751⟩, ⟨9000, 0, by decide, by decide⟩, by decide +kernel, Weekday.mem_all _, by decide,
    by decide⟩

end BusinessHours

end Followup
