import Followup.Engine.Case
import Followup.Proofs.BusinessHours.Passage
import Followup.Proofs.Settings.Validation

/-! The timetable of an escalation that nobody responds to. The deadline counts from the alert and
the follow-ups from one another, and since both waits together are shorter than the deadline, the
times come in the order of the stages. -/

namespace Followup

inductive Phase where
  | deferred | alerted | remindedOnce | remindedTwice | closed
deriving DecidableEq

namespace Phase

def next? : Phase → Option Phase
  | deferred => some alerted
  | alerted => some remindedOnce
  | remindedOnce => some remindedTwice
  | remindedTwice => some closed
  | closed => none

def stage : Phase → Stage
  | deferred | alerted => .initial
  | remindedOnce => .followUp1
  | remindedTwice => .followUp2
  | closed => .deadline

def action : Phase → Action
  | deferred => .scheduleNextWindow
  | alerted | remindedOnce | remindedTwice => .sendNow
  | closed => .closeWorkflow

def kind : Phase → NoticeKind
  | deferred | alerted => .initialAlert
  | remindedOnce => .followUp1
  | remindedTwice => .followUp2
  | closed => .closingMessage

end Phase

/-- The times of an escalation and the spans between them. -/
structure Timetable where
  start : Instant
  inHours : Bool
  alert : Instant
  followUp1 : Instant
  followUp2 : Instant
  deadline : Instant
  wait₁ : Span
  wait₂ : Span
  limit : Span

namespace Timetable

variable {s : Settings} {now v : Instant} {T : Timetable}

/-- An alert outside business hours is put off to the next window first. -/
def phases (T : Timetable) : List Phase :=
  let sent : List Phase := [.alerted, .remindedOnce, .remindedTwice, .closed]
  if T.inHours then sent else .deferred :: sent

def time (T : Timetable) : Phase → Instant
  | .deferred => T.start
  | .alerted => T.alert
  | .remindedOnce => T.followUp1
  | .remindedTwice => T.followUp2
  | .closed => T.deadline

def elapsed (T : Timetable) : Phase → Span
  | .deferred | .alerted => .zero
  | .remindedOnce => T.wait₁
  | .remindedTwice => T.wait₁ + T.wait₂
  | .closed => T.limit

structure Fits (T : Timetable) (s : Settings) (now : Instant) : Prop where
  start : T.start = now
  inHours : s.hours.isOpen now = .ok T.inHours
  alert : if T.inHours then T.alert = now else s.hours.nextStart now = .ok T.alert
  wait₁ : s.waitBefore .followUp1 = some T.wait₁
  wait₂ : s.waitBefore .followUp2 = some T.wait₂
  limit : s.deadline = T.limit
  followUp1 : s.hours.add T.alert T.wait₁ = .ok T.followUp1
  followUp2 : s.hours.add T.followUp1 T.wait₂ = .ok T.followUp2
  deadline : s.hours.add T.alert T.limit = .ok T.deadline
  alert_lt : T.alert < T.followUp1
  followUp1_lt : T.followUp1 < T.followUp2
  followUp2_lt : T.followUp2 < T.deadline
  isOpen : ∀ p, p ≠ .deferred → s.hours.isOpen (T.time p) = .ok true
  between : ∀ p, p ≠ .deferred → s.hours.between T.alert (T.time p) = .ok (T.elapsed p)

open BusinessHours in
theorem exists_fits (hp : s.hours.Plain) {wait₁ wait₂ : Span} (hs : s.Accepted wait₁ wait₂)
    (hnow : now.Proper) (hv : s.hours.Passed now s.deadline v) : ∃ T : Timetable, T.Fits s now := by
  obtain ⟨b, hb, hle⟩ := hv.enough
  have hinside := (isOpen_eq_true hp hv.proper).1 hv.isOpen
  obtain ⟨hin, hk, -, -⟩ := between_of_le hp hnow hv.proper hinside hv.le hb
  obtain ⟨inHours, hopen⟩ := isOpen_ok hin hk
  obtain ⟨alert, hfirst, halert, hinsideAlert, hnowle, halertv, hgap⟩ :=
    firstOpen_ok hp hnow hinside hv.le hin hk
  -- No business time passes before the alert.
  obtain ⟨-, hrest, htotal⟩ := between_split hp hnow halert hv.proper hv.isOpen hnowle halertv hb
  rw [hgap, Int.zero_add] at htotal
  obtain ⟨deadline, hdeadline, -, hpassed, hbetween⟩ := add_ok hp halert
    (Int.le_of_lt hs.deadline_pos) ⟨hv.proper, halertv, hv.isOpen, _, hrest, by
      rwa [Span.le_def, ← htotal]⟩
  obtain ⟨followUp1, hadd₁, hlt, hlt', hproper₁, hopen₁, hbetween₁, hpassed₁, hleft₁⟩ :=
    add_within hp halert hpassed hbetween hs.pos₁ hs.wait₁_lt
  obtain ⟨followUp2, hadd₂, hlt₁, hlt₁', hproper₂, hopen₂, hbetween₂, -, -⟩ :=
    add_within hp hproper₁ hpassed₁ hleft₁ hs.pos₂ hs.wait₂_lt
  have hboth : s.hours.between alert followUp2 = .ok (wait₁ + wait₂) := by
    have halert₂ := le_trans (le_of_lt hlt) (le_of_lt hlt₁)
    obtain ⟨hsum, -, -⟩ := between_split hp halert hproper₂ hpassed.proper hpassed.isOpen halert₂
      (le_of_lt hlt₁') hbetween
    obtain ⟨h₁, h₂, hadd⟩ := between_split hp halert hproper₁ hproper₂ hopen₂ (le_of_lt hlt)
      (le_of_lt hlt₁) hsum
    have hwait₁ : wait₁ = ⟨_⟩ := Except.ok.inj (hbetween₁.symm.trans h₁)
    have hwait₂ : wait₂ = ⟨_⟩ := Except.ok.inj (hbetween₂.symm.trans h₂)
    rw [hsum, hwait₁, hwait₂]
    exact congrArg Except.ok (Span.eq_of_nanos hadd)
  refine ⟨⟨now, inHours, alert, followUp1, followUp2, deadline, wait₁, wait₂, s.deadline⟩, rfl,
    hopen, ?_, hs.followUp1, hs.followUp2, rfl, hadd₁, hadd₂, hdeadline, hlt, hlt₁, hlt₁', ?_, ?_⟩
  · rw [firstOpen, hopen, ok_bind] at hfirst
    cases inHours with
    | true => exact (Except.ok.inj hfirst).symm
    | false => exact hfirst
  · intro p hne
    cases p with
    | deferred => exact absurd rfl hne
    | alerted => exact (isOpen_eq_true hp halert).2 hinsideAlert
    | remindedOnce => exact hopen₁
    | remindedTwice => exact hopen₂
    | closed => exact hpassed.isOpen
  · intro p hne
    cases p with
    | deferred => exact absurd rfl hne
    | alerted => exact if_pos (le_refl alert)
    | remindedOnce => exact hbetween₁
    | remindedTwice => exact hboth
    | closed => exact hbetween

end Timetable

end Followup
