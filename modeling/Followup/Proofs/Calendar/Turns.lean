import Followup.Calendar.Histories
import Followup.Proofs.Calendar.Steady
import Mathlib.Data.List.Chain
import Mathlib.Order.Bounds.Basic

/-! Readings of a clock against instants, in a zone whose clocks are changed. A change skips the
readings of a gap or shows those of a stretch for a second time. Where changes are two days apart
no two of them meddle with each other, since an offset is shorter than a day. -/

namespace Followup

structure Reading.Inner (t : Reading) : Prop where
  first : Date.firstDay + 2 ≤ t.date.day
  last : t.date.day + 2 ≤ Date.lastDay

structure Turn where
  second : Int
  before : Offset
  after : Offset
deriving DecidableEq

namespace Turn

def Skips (τ : Turn) (shown : Int) : Prop :=
  τ.second + τ.before.seconds ≤ shown ∧ shown < τ.second + τ.after.seconds

def Repeats (τ : Turn) (shown : Int) : Prop :=
  τ.second + τ.after.seconds ≤ shown ∧ shown < τ.second + τ.before.seconds

/-- From the change on, and until the clocks show again what they showed just before it. -/
def SecondPass (τ : Turn) (utc : Int) : Prop :=
  τ.second ≤ utc ∧ τ.Repeats (utc + τ.after.seconds)

instance (τ : Turn) (shown : Int) : Decidable (τ.Skips shown) :=
  inferInstanceAs (Decidable (_ ∧ _))
instance (τ : Turn) (shown : Int) : Decidable (τ.Repeats shown) :=
  inferInstanceAs (Decidable (_ ∧ _))
instance (τ : Turn) (utc : Int) : Decidable (τ.SecondPass utc) :=
  inferInstanceAs (Decidable (_ ∧ _))

def length (τ : Turn) : Int := τ.after.seconds - τ.before.seconds

end Turn

namespace History

variable {history : History} {base o : Offset} {changes : List (Int × Offset)} {τ : Turn}
  {utc utc' second : Int}

def turnsFrom (base : Offset) : List (Int × Offset) → List Turn
  | [] => []
  | (second, next) :: rest => ⟨second, base, next⟩ :: turnsFrom next rest

def turns (history : History) : List Turn := turnsFrom history.base history.changes

/-- Each change comes two days after the one before it, or later. -/
def Spaced (history : History) : Prop :=
  (history.changes.map Prod.fst).IsChain fun a b => a + 172800 ≤ b

instance (history : History) : Decidable history.Spaced :=
  inferInstanceAs (Decidable (List.IsChain _ _))

theorem Spaced.pairwise (h : history.Spaced) :
    (history.changes.map Prod.fst).Pairwise fun a b => a + 172800 ≤ b := by
  have htrans : Trans (fun a b : Int => a + 172800 ≤ b) (fun a b => a + 172800 ≤ b)
      fun a b => a + 172800 ≤ b := ⟨fun hab hbc => by omega⟩
  exact List.isChain_iff_pairwise.1 h

theorem Spaced.ordered (h : history.Spaced) : history.Ordered :=
  h.pairwise.imp fun hab => by omega

theorem second_mem_of_turnsFrom (hτ : τ ∈ turnsFrom base changes) :
    τ.second ∈ changes.map Prod.fst := by
  induction changes generalizing base with
  | nil => cases hτ
  | cons change rest ih =>
    rcases List.mem_cons.1 hτ with rfl | hτ
    · exact List.mem_cons_self ..
    · exact List.mem_cons_of_mem _ (ih hτ)

theorem offsetFrom_after (hτ : τ ∈ turnsFrom base changes)
    (hspaced : (changes.map Prod.fst).Pairwise fun a b => a + 172800 ≤ b)
    (hle : τ.second ≤ utc) (hlt : utc < τ.second + 172800) :
    offsetFrom base utc changes = τ.after := by
  induction changes generalizing base with
  | nil => cases hτ
  | cons change rest ih =>
    obtain ⟨turn, next⟩ := change
    obtain ⟨hfirst, hrest⟩ := List.pairwise_cons.1 hspaced
    rcases List.mem_cons.1 hτ with rfl | hτ
    · rw [offsetFrom, if_neg (Int.not_lt.2 hle)]
      cases rest with
      | nil => rfl
      | cons later rest =>
        have hlater : turn + 172800 ≤ later.1 := hfirst _ (List.mem_cons_self ..)
        exact if_pos (Int.lt_of_lt_of_le hlt hlater)
    · have hturn : turn + 172800 ≤ τ.second := hfirst _ (second_mem_of_turnsFrom hτ)
      rw [offsetFrom, if_neg (by omega)]
      exact ih hτ hrest

theorem offsetFrom_before (hτ : τ ∈ turnsFrom base changes)
    (hspaced : (changes.map Prod.fst).Pairwise fun a b => a + 172800 ≤ b)
    (hle : τ.second - 172800 ≤ utc) (hlt : utc < τ.second) :
    offsetFrom base utc changes = τ.before := by
  induction changes generalizing base with
  | nil => cases hτ
  | cons change rest ih =>
    obtain ⟨turn, next⟩ := change
    obtain ⟨hfirst, hrest⟩ := List.pairwise_cons.1 hspaced
    rcases List.mem_cons.1 hτ with rfl | hτ
    · exact if_pos hlt
    · have hturn : turn + 172800 ≤ τ.second := hfirst _ (second_mem_of_turnsFrom hτ)
      rw [offsetFrom, if_neg (by omega)]
      exact ih hτ hrest

theorem exists_turn (hle : utc ≤ utc')
    (hne : offsetFrom base utc changes ≠ offsetFrom base utc' changes) :
    ∃ τ ∈ turnsFrom base changes, utc < τ.second ∧ τ.second ≤ utc' := by
  induction changes generalizing base with
  | nil => exact absurd rfl hne
  | cons change rest ih =>
    obtain ⟨turn, next⟩ := change
    by_cases hturn : utc < turn
    · by_cases hturn' : utc' < turn
      · rw [offsetFrom, offsetFrom, if_pos hturn, if_pos hturn'] at hne
        exact absurd rfl hne
      · exact ⟨⟨turn, base, next⟩, List.mem_cons_self .., hturn, Int.not_lt.1 hturn'⟩
    · rw [offsetFrom, offsetFrom, if_neg hturn, if_neg (by omega)] at hne
      obtain ⟨τ, hτ, hbetween⟩ := ih hne
      exact ⟨τ, List.mem_cons_of_mem _ hτ, hbetween⟩

theorem le_of_all {since? : Option Int} (hall : since?.all (· ≤ utc) = true) :
    ∀ since ∈ since?, since ≤ utc :=
  fun since hsince => of_decide_eq_true ((Option.all_eq_true _ _).1 hall since hsince)

/-- Past the changes before it, the walk finds the first second at which the reading is shown. -/
theorem of_localFrom? {since? : Option Int} (hfound : localFrom? since? base second changes = some o)
    (hordered : (since?.toList ++ changes.map Prod.fst).Pairwise (· ≤ ·)) :
    (∀ since ∈ since?, since ≤ second - o.seconds) ∧
      offsetFrom base (second - o.seconds) changes = o ∧
      ∀ utc, (∀ since ∈ since?, since ≤ utc) →
        utc + (offsetFrom base utc changes).seconds = second → second - o.seconds ≤ utc := by
  induction changes generalizing base since? with
  | nil =>
    rw [localFrom?] at hfound
    split at hfound
    · next hall =>
      obtain rfl := Option.some.inj hfound
      refine ⟨le_of_all hall, rfl, fun utc _ hutc => ?_⟩
      rw [offsetFrom] at hutc
      omega
    · cases hfound
  | cons change rest ih =>
    obtain ⟨turn, next⟩ := change
    rw [localFrom?] at hfound
    split at hfound
    · next hhere =>
      obtain rfl := Option.some.inj hfound
      refine ⟨le_of_all hhere.1, if_pos hhere.2, fun utc _ hutc => ?_⟩
      by_cases hlt : utc < turn
      · rw [offsetFrom, if_pos hlt] at hutc
        omega
      · have := hhere.2
        omega
    · next hhere =>
      obtain ⟨hfrom, hoffset, hleast⟩ := ih hfound (List.pairwise_append.1 hordered).2.1
      have hturn : turn ≤ second - o.seconds := hfrom turn rfl
      have hpast (since : Int) (hsince : since ∈ since?) : since ≤ turn :=
        (List.pairwise_append.1 hordered).2.2 since (Option.mem_toList.2 hsince) turn
          (List.mem_cons_self ..)
      refine ⟨fun since hsince => Int.le_trans (hpast since hsince) hturn, ?_,
        fun utc hsince hutc => ?_⟩
      · rw [offsetFrom, if_neg (Int.not_lt.2 hturn)]
        exact hoffset
      · by_cases hlt : utc < turn
        · -- Else the walk would have stopped at the offset before this change.
          rw [offsetFrom, if_pos hlt] at hutc
          obtain rfl : second - base.seconds = utc := by omega
          exact absurd ⟨all_since hsince (Int.le_refl second), hlt⟩ hhere
        · rw [offsetFrom, if_neg hlt] at hutc
          exact hleast utc (fun since hsince => Option.some.inj hsince ▸ Int.not_lt.1 hlt) hutc

theorem exists_skip {since? : Option Int} (hnone : localFrom? since? base second changes = none)
    (hsince : ∀ since ∈ since?, since ≤ second - base.seconds) :
    ∃ τ ∈ turnsFrom base changes, τ.Skips second := by
  have hall : since?.all (· ≤ second - base.seconds) = true := all_since hsince (Int.le_refl second)
  induction changes generalizing base since? with
  | nil =>
    rw [localFrom?, if_pos hall] at hnone
    cases hnone
  | cons change rest ih =>
    obtain ⟨turn, next⟩ := change
    rw [localFrom?] at hnone
    split at hnone
    · cases hnone
    · next hhere =>
      have hturn : turn ≤ second - base.seconds :=
        Int.not_lt.1 fun hlt => hhere ⟨hall, hlt⟩
      by_cases hnext : turn ≤ second - next.seconds
      · have hsince' : ∀ since ∈ some turn, since ≤ second - next.seconds :=
          fun since h => Option.some.inj h ▸ hnext
        obtain ⟨τ, hτ, hskips⟩ := ih hnone hsince' (all_since hsince' (Int.le_refl second))
        exact ⟨τ, List.mem_cons_of_mem _ hτ, hskips⟩
      · exact ⟨⟨turn, base, next⟩, List.mem_cons_self .., by dsimp only; omega, by dsimp only; omega⟩

section Spaced

variable (hspaced : history.Spaced) (hτ : τ ∈ history.turns)
include hspaced hτ

theorem near_turn (hshown : utc + (history.offsetAt utc).seconds = second)
    (hle : τ.second - 86400 < second) (hlt : second < τ.second + 86400) :
    utc < τ.second ∧ utc = second - τ.before.seconds ∨
      τ.second ≤ utc ∧ utc = second - τ.after.seconds := by
  have hwest := (history.offsetAt utc).west
  have heast := (history.offsetAt utc).east
  by_cases hbefore : utc < τ.second
  · have hoffset : history.offsetAt utc = τ.before :=
      offsetFrom_before hτ hspaced.pairwise (by omega) hbefore
    rw [hoffset] at hshown
    exact .inl ⟨hbefore, by omega⟩
  · have hoffset : history.offsetAt utc = τ.after :=
      offsetFrom_after hτ hspaced.pairwise (Int.not_lt.1 hbefore) (by omega)
    rw [hoffset] at hshown
    exact .inr ⟨Int.not_lt.1 hbefore, by omega⟩

theorem not_shown_of_skips (hskips : τ.Skips second) :
    utc + (history.offsetAt utc).seconds ≠ second := by
  intro hshown
  have hwest := τ.before.west
  have heast := τ.after.east
  obtain ⟨hfirst, hlast⟩ := hskips
  rcases near_turn hspaced hτ hshown (by omega) (by omega) with ⟨hbefore, hutc⟩ | ⟨hafter, hutc⟩
  · omega
  · omega

end Spaced

theorem isLeast_of_localOffset? (hordered : history.Ordered)
    (hfound : history.localOffset? second = some o) :
    IsLeast {utc | utc + (history.offsetAt utc).seconds = second} (second - o.seconds) := by
  obtain ⟨-, hoffset, hleast⟩ := of_localFrom? hfound hordered
  have hat : history.offsetAt (second - o.seconds) = o := hoffset
  refine ⟨?_, fun utc hutc => hleast utc (fun since hsince => nomatch hsince) hutc⟩
  change second - o.seconds + (history.offsetAt (second - o.seconds)).seconds = second
  rw [hat, Int.sub_add_cancel]

theorem exists_shown_iff (hspaced : history.Spaced) :
    (∃ utc, utc + (history.offsetAt utc).seconds = second) ↔
      ∀ τ ∈ history.turns, ¬ τ.Skips second := by
  constructor
  · rintro ⟨utc, hshown⟩ τ hτ hskips
    exact not_shown_of_skips hspaced hτ hskips hshown
  · intro hnone
    cases hfound : history.localOffset? second with
    | some o => exact ⟨_, (isLeast_of_localOffset? hspaced.ordered hfound).1⟩
    | none =>
      obtain ⟨τ, hτ, hskips⟩ := exists_skip hfound fun since hsince => nomatch hsince
      exact absurd hskips (hnone τ hτ)

end History

namespace Reading

variable {t : Reading}

theorem shift_ofSeconds (h : t.Regular) (n : Int) :
    t.shift (.ofSeconds n) = ⟨t.second + n, t.nano⟩ := by
  have hneg : Span.ofSeconds n = -Span.ofSeconds (-n) :=
    congrArg Span.mk (by simp only [Span.ofSeconds]; omega)
  rw [hneg, shift_seconds h, Int.sub_neg]

theorem Inner.inRange (h : t.Inner) : t.InRange :=
  ⟨Int.le_trans (by omega) h.first, Int.le_trans (by omega) h.last⟩

theorem Inner.near {u : Reading} (h : t.Inner) (hle : t.second - 86400 < u.second)
    (hge : u.second < t.second + 86400) :
    Date.firstDay < u.date.day ∧ u.date.day < Date.lastDay := by
  have hfirst := h.first
  have hlast := h.last
  simp only [date] at *
  omega

end Reading

namespace Zone

variable {zone : Zone} {name : String} {history : History} {w : WallTime} {s t u : Instant}
  {τ : Turn}

theorem wallTime_eq_ok : zone.wallTime t = .ok w ↔ w.InRange ∧ zone.shown t = w := by
  rw [wallTime, Reading.checked_eq_ok]
  constructor
  · rintro ⟨hin, rfl⟩
    exact ⟨hin, rfl⟩
  · rintro ⟨hin, rfl⟩
    exact ⟨hin, rfl⟩

section Named

variable (hz : zone = .named name history)
include hz

theorem shown_eq_iff : zone.shown t = w ↔
    t.second + (history.offsetAt t.second).seconds = w.second ∧ t.nano = w.nano := by
  subst hz
  obtain ⟨second, nano⟩ := w
  simp only [shown, offsetAt, Reading.mk.injEq]

theorem resolve_of_shown (hspaced : history.Spaced) (hfirst : Date.firstDay < w.date.day)
    (hlast : w.date.day < Date.lastDay) (hshown : zone.shown t = w) :
    ∃ s, zone.resolve w = .ok s ∧ IsLeast {u | zone.shown u = w} s := by
  obtain ⟨hsecond, hnano⟩ := (shown_eq_iff hz).1 hshown
  cases hfound : history.localOffset? w.second with
  | none =>
    obtain ⟨τ, hτ, hskips⟩ := History.exists_skip hfound fun since hsince => nomatch hsince
    exact absurd hsecond (History.not_shown_of_skips hspaced hτ hskips)
  | some o =>
    obtain ⟨hmem, hleast⟩ := History.isLeast_of_localOffset? hspaced.ordered hfound
    have hwest := o.west
    have heast := o.east
    refine ⟨⟨w.second - o.seconds, w.nano⟩, ?_, (shown_eq_iff hz).2 ⟨hmem, rfl⟩, fun u hu => ?_⟩
    · subst hz
      simp only [resolve, hfound]
      refine if_pos ?_
      simp only [Reading.InRange, Date.InRange, Reading.date] at *
      omega
    · obtain ⟨husecond, hunano⟩ := (shown_eq_iff hz).1 hu
      have hle := hleast husecond
      simp only [Reading.le_def, hunano]
      omega

theorem resolve_of_skips (hspaced : history.Spaced) (hw : w.Inner) (hreg : w.Regular)
    (hτ : τ ∈ history.turns) (hskips : τ.Skips w.second) :
    ∃ s v, zone.resolve w = .ok s ∧ zone.wallTime s = .ok v ∧ w.add (.ofSeconds τ.length) = .ok v := by
  have hnone : history.localOffset? w.second = none := by
    cases hfound : history.localOffset? w.second with
    | none => rfl
    | some o =>
      have hshown := (History.isLeast_of_localOffset? hspaced.ordered hfound).1
      exact absurd hshown (History.not_shown_of_skips hspaced hτ hskips)
  obtain ⟨hge, hlt⟩ := hskips
  have hwest := τ.before.west
  have heast := τ.before.east
  have heast' := τ.after.east
  have hfirst := hw.first
  have hlast := hw.last
  have inRange {second : Int} (hle : w.second - 172800 ≤ second) (hge : second ≤ w.second + 172800) :
      Reading.checked ⟨second, w.nano⟩ = .ok ⟨second, w.nano⟩ := by
    refine if_pos ?_
    simp only [Reading.InRange, Date.InRange, Reading.date] at *
    omega
  have hday : w.sub (.ofDays 1) = .ok ⟨w.second - 86400, w.nano⟩ := by
    rw [Reading.sub, Span.ofDays, Reading.shift_seconds hreg]
    exact inRange (by omega) (by omega)
  have hbefore : history.offsetAt (w.second - 86400) = τ.before :=
    History.offsetFrom_before hτ hspaced.pairwise (by omega) (by omega)
  have hresolve : zone.resolve w = .ok ⟨w.second - τ.before.seconds, w.nano⟩ := by
    subst hz
    simp only [resolve, hnone, hday, ok_bind, hbefore]
    rw [Reading.sub, Reading.shift_seconds hreg]
    exact inRange (by omega) (by omega)
  have hafter : history.offsetAt (w.second - τ.before.seconds) = τ.after :=
    History.offsetFrom_after hτ hspaced.pairwise (by omega) (by omega)
  have hsum : w.second - τ.before.seconds + τ.after.seconds = w.second + τ.length := by
    rw [Turn.length]
    omega
  refine ⟨_, ⟨w.second + τ.length, w.nano⟩, hresolve, ?_, ?_⟩
  · rw [wallTime_eq_ok, shown_eq_iff hz, hafter]
    refine ⟨(Reading.checked_eq_ok.1 (inRange ?_ ?_)).1, hsum, rfl⟩
    · omega
    · omega
  · rw [Reading.add, Reading.shift_ofSeconds hreg]
    exact inRange (by omega) (by omega)

theorem secondPass_of_shown (hspaced : history.Spaced) (hst : s < t)
    (hshown : zone.shown s = zone.shown t) :
    ∃ τ ∈ history.turns, τ.SecondPass t.second := by
  obtain ⟨hsecond, hnano⟩ := (shown_eq_iff hz).1 hshown
  obtain ⟨hsecond', -⟩ := (shown_eq_iff hz).1 (rfl : zone.shown t = zone.shown t)
  have hwest := (history.offsetAt t.second).west
  have heast := (history.offsetAt s.second).east
  have hnano' : s.nano = t.nano := hnano
  have hlt : s.second < t.second := by
    rw [Reading.lt_def] at hst
    omega
  obtain ⟨τ, hτ, hsτ, hτt⟩ : ∃ τ ∈ history.turns, s.second < τ.second ∧ τ.second ≤ t.second := by
    refine History.exists_turn (Int.le_of_lt hlt) fun heq => ?_
    have hsame : history.offsetAt s.second = history.offsetAt t.second := heq
    rw [hsame] at hsecond
    omega
  have hbefore : history.offsetAt s.second = τ.before :=
    History.offsetFrom_before hτ hspaced.pairwise (by omega) hsτ
  have hafter : history.offsetAt t.second = τ.after :=
    History.offsetFrom_after hτ hspaced.pairwise hτt (by omega)
  rw [hbefore] at hsecond
  rw [hafter] at hsecond'
  exact ⟨τ, hτ, hτt, by omega, by omega⟩

theorem shown_of_secondPass (hspaced : history.Spaced) (hτ : τ ∈ history.turns)
    (hpass : τ.SecondPass t.second) :
    ∃ s, s < t ∧ ∀ u, zone.shown u = zone.shown t ↔ u = s ∨ u = t := by
  obtain ⟨hle, hge, hlt⟩ := hpass
  have hwest := τ.after.west
  have hwest' := τ.before.west
  have heast := τ.before.east
  have hafter : history.offsetAt t.second = τ.after :=
    History.offsetFrom_after hτ hspaced.pairwise hle (by omega)
  have hshown : zone.shown t = ⟨t.second + τ.after.seconds, t.nano⟩ :=
    (shown_eq_iff hz).2 ⟨by rw [hafter], rfl⟩
  have hbefore : history.offsetAt (t.second + τ.after.seconds - τ.before.seconds) = τ.before :=
    History.offsetFrom_before hτ hspaced.pairwise (by omega) (by omega)
  refine ⟨⟨t.second + τ.after.seconds - τ.before.seconds, t.nano⟩, .inl (by dsimp only; omega),
    fun u => ⟨fun hu => ?_, ?_⟩⟩
  · rw [hshown, shown_eq_iff hz] at hu
    obtain ⟨hsecond, hnano⟩ := hu
    rcases History.near_turn hspaced hτ hsecond (by dsimp only; omega) (by dsimp only; omega) with
      ⟨-, husecond⟩ | ⟨-, husecond⟩
    · exact .inl (congrArg₂ Reading.mk husecond hnano)
    · exact .inr (congrArg₂ Reading.mk (by dsimp only at husecond; omega) hnano)
  · rintro (rfl | rfl)
    · rw [hshown, shown_eq_iff hz, hbefore]
      exact ⟨Int.sub_add_cancel .., rfl⟩
    · rfl

end Named

/-- Wall clock and instant are inverse but for the changes of the clocks, where these are at least
two days apart. A reading that is shown at all stands for the first instant that shows it, and all
are shown but those that a change skips; such a one stands for an instant that shows it later by
what the clocks are put forward. An instant is what its own reading stands for, except in the
second pass of a repeated stretch, where that is the one earlier instant of the same reading. -/
theorem resolve_wallTime_inverse (hz : zone = .named name history) (hspaced : history.Spaced) :
    (∀ w : WallTime, w.Inner →
      ((∃ u, zone.wallTime u = .ok w) →
        ∃ s, zone.resolve w = .ok s ∧ IsLeast {u | zone.wallTime u = .ok w} s) ∧
      (w.Regular → ∀ τ ∈ history.turns, τ.Skips w.second → ∃ s v, zone.resolve w = .ok s ∧
        zone.wallTime s = .ok v ∧ w.add (.ofSeconds τ.length) = .ok v) ∧
      ((∃ u, zone.wallTime u = .ok w) ↔ ∀ τ ∈ history.turns, ¬ τ.Skips w.second)) ∧
    ∀ t : Instant, t.Inner → ∃ v, zone.wallTime t = .ok v ∧
      ((∀ τ ∈ history.turns, ¬ τ.SecondPass t.second) → zone.resolve v = .ok t) ∧
      ∀ τ ∈ history.turns, τ.SecondPass t.second → ∃ s, zone.resolve v = .ok s ∧ s < t ∧
        ∀ u, zone.wallTime u = .ok v ↔ u = s ∨ u = t := by
  refine ⟨fun w hw => ⟨?_, ?_, ?_⟩, fun t ht => ?_⟩
  · rintro ⟨u, hu⟩
    obtain ⟨hin, hshown⟩ := wallTime_eq_ok.1 hu
    have hfirst := hw.first
    have hlast := hw.last
    simp only [wallTime_eq_ok, hin, true_and]
    exact resolve_of_shown hz hspaced (by omega) (by omega) hshown
  · exact fun hreg τ hτ hskips => resolve_of_skips hz hspaced hw hreg hτ hskips
  · simp only [← History.exists_shown_iff hspaced, wallTime_eq_ok, hw.inRange, true_and,
      shown_eq_iff hz]
    exact ⟨fun ⟨u, hu, _⟩ => ⟨u.second, hu⟩, fun ⟨utc, hutc⟩ => ⟨⟨utc, w.nano⟩, hutc, rfl⟩⟩
  · have hwest := (zone.offsetAt t).west
    have heast := (zone.offsetAt t).east
    obtain ⟨hfirst, hlast⟩ := ht.near (u := zone.shown t)
      (by simp only [shown]; omega) (by simp only [shown]; omega)
    have hin : (zone.shown t).InRange := ⟨Int.le_of_lt hfirst, Int.le_of_lt hlast⟩
    obtain ⟨s, hresolve, hs, hleast⟩ := resolve_of_shown hz hspaced hfirst hlast rfl
    simp only [wallTime_eq_ok]
    refine ⟨zone.shown t, ⟨hin, rfl⟩, fun honce => ?_, fun τ hτ hpass => ?_⟩
    · rcases (hleast rfl : s ≤ t).lt_or_eq with hlt | rfl
      · obtain ⟨τ, hτ, hpass⟩ := secondPass_of_shown hz hspaced hlt hs
        exact absurd hpass (honce τ hτ)
      · exact hresolve
    · obtain ⟨s', hs't, hboth⟩ := shown_of_secondPass hz hspaced hτ hpass
      have hss' : s ≤ s' := hleast ((hboth s').2 (.inl rfl))
      obtain rfl : s = s' := ((hboth s).1 hs).resolve_right (lt_of_le_of_lt hss' hs't).ne
      exact ⟨s, hresolve, hs't, fun u => by rw [← hboth u, and_iff_right hin]⟩

theorem resolve_wallTime_inverse_berlin :
    History.europeBerlin.Spaced ∧
      (∃ s v, (named "Europe/Berlin" .europeBerlin).resolve ⟨1774751400, 0⟩ = .ok s ∧
        (named "Europe/Berlin" .europeBerlin).wallTime s = .ok v ∧ v = ⟨1774755000, 0⟩) ∧
      ∃ s v, (named "Europe/Berlin" .europeBerlin).wallTime ⟨1792891800, 0⟩ = .ok v ∧
        (named "Europe/Berlin" .europeBerlin).resolve v = .ok s ∧ s < ⟨1792891800, 0⟩ ∧
        (named "Europe/Berlin" .europeBerlin).wallTime s = .ok v := by
  have hspaced : History.europeBerlin.Spaced := by decide +kernel
  have hz : named "Europe/Berlin" .europeBerlin = .named "Europe/Berlin" .europeBerlin := rfl
  obtain ⟨hreadings, hinstants⟩ := resolve_wallTime_inverse hz hspaced
  have hspring : (⟨1774746000, .ofMinutes 60, .ofMinutes 120⟩ : Turn) ∈
      History.europeBerlin.turns := by decide +kernel
  have hautumn : (⟨1792890000, .ofMinutes 120, .ofMinutes 60⟩ : Turn) ∈
      History.europeBerlin.turns := by decide +kernel
  obtain ⟨s, v, hs, hv, hsum⟩ := (hreadings ⟨1774751400, 0⟩ ⟨by decide, by decide⟩).2.1 (by decide)
    _ hspring (by decide)
  obtain ⟨v', hv', -, hpass⟩ := hinstants ⟨1792891800, 0⟩ ⟨by decide, by decide⟩
  obtain ⟨s', hs', hlt, hboth⟩ := hpass _ hautumn (by decide)
  exact ⟨hspaced, ⟨s, v, hs, hv, (Except.ok.inj hsum).symm⟩, s', v', hv', hs', hlt,
    (hboth s').2 (.inl rfl)⟩

end Zone

end Followup
