import Followup.Proofs.BusinessHours.Membership
import Followup.Proofs.Engine.Eviction
import Followup.Proofs.Engine.Pace
import Mathlib.Order.Bounds.Basic

/-! The business time on the account of a case. Account is taken at the firings that wake the case
and at the response that ends it, from the first notice on, and what is kept is the greatest time
that has ever been told. -/

namespace Followup

theorem Span.nanos_max (a b : Span) : (a.max b).nanos = Max.max a.nanos b.nanos := by
  rw [Span.max]
  split
  · next hab => exact (Int.max_eq_right hab).symm
  · next hab => exact (Int.max_eq_left (Int.le_of_lt (Int.not_le.1 hab))).symm

section Tally

variable {h : BusinessHours} {first : Instant} {first? : Option Instant} {t : Instant}
  {ts : List Instant} {d d' : Span}

def BusinessHours.accounts (h : BusinessHours) (first? : Option Instant) (ts : List Instant) :
    Set Span :=
  {d | ∃ first ∈ first?, ∃ t ∈ ts, h.between first t = .ok d}

/-- An account that was taken at some instants. All of them came after a first notice, the time that
had passed could be told at each, and the greatest of those times is what is kept. -/
structure Tallied (h : BusinessHours) (first? : Option Instant) (ts : List Instant) (d : Span) :
    Prop where
  told : ∀ t ∈ ts, ∃ first d, first? = some first ∧ h.between first t = .ok d
  greatest : IsGreatest (insert .zero (h.accounts first? ts)) d

theorem Tallied.nil (h : BusinessHours) (first? : Option Instant) : Tallied h first? [] .zero where
  told := List.forall_mem_nil _
  greatest := by
    refine ⟨Set.mem_insert _ _, fun d hd => ?_⟩
    rcases hd with rfl | ⟨_, _, t, ht, _⟩
    · exact Int.le_refl _
    · cases ht

theorem Tallied.begun (ht : Tallied h none ts d) (first? : Option Instant) :
    Tallied h first? ts d := by
  have hnil : ts = [] := List.eq_nil_iff_forall_not_mem.2 fun t hmem => by
    obtain ⟨first, d, hfirst, -⟩ := ht.told t hmem
    cases hfirst
  subst hnil
  rcases ht.greatest.1 with rfl | ⟨first, hfirst, -⟩
  · exact .nil h first?
  · cases hfirst

theorem Tallied.snoc (ht : Tallied h (some first) ts d) (hb : h.between first t = .ok d') :
    Tallied h (some first) (ts ++ [t]) (d.max d') where
  told := forall_mem_snoc.2 ⟨ht.told, first, d', rfl, hb⟩
  greatest := by
    constructor
    · rw [Span.max]
      split
      · exact .inr ⟨first, rfl, t, List.mem_concat_self, hb⟩
      · rcases ht.greatest.1 with hzero | ⟨first', hfirst, u, hu, hbu⟩
        · exact .inl hzero
        · exact .inr ⟨first', hfirst, u, List.mem_append_left _ hu, hbu⟩
    · intro b hin
      have hmax := Span.nanos_max d d'
      rw [Span.le_def, hmax]
      rcases hin with hzero | ⟨first', hfirst, hlater⟩
      · exact le_trans (ht.greatest.2 (.inl hzero)) (Int.le_max_left _ _)
      rcases exists_mem_snoc.1 hlater with hbefore | hlast
      · exact le_trans (ht.greatest.2 (.inr ⟨first', hfirst, hbefore⟩)) (Int.le_max_left _ _)
      · cases hfirst
        obtain rfl := Except.ok.inj (hb.symm.trans hlast)
        exact Int.le_max_right _ _

theorem Tallied.between_last (ht : Tallied h (some first) ts d) (hp : h.Plain)
    (hfirst : first.Proper) (hts : ∀ t ∈ ts, t.Proper) (hsorted : ts.Pairwise (· ≤ ·))
    (hlast : t ∈ ts.getLast?) : h.between first t = .ok d := by
  obtain ⟨init, rfl⟩ := List.getLast?_eq_some_iff.1 hlast
  have hmem : t ∈ init ++ [t] := List.mem_concat_self
  obtain ⟨first', total, hfirst', htotal⟩ := ht.told t hmem
  obtain rfl := Option.some.inj hfirst'
  have hle : total ≤ d := ht.greatest.2 (.inr ⟨_, rfl, t, hmem, htotal⟩)
  have hge : d ≤ total := by
    rcases ht.greatest.1 with rfl | ⟨first', hfirst', u, hu, hbu⟩
    · exact BusinessHours.zero_le_between hp hfirst (hts t hmem) htotal
    · obtain rfl := Option.some.inj hfirst'
      have hut : u ≤ t := by
        rcases List.mem_append.1 hu with hu' | hu'
        · exact (pairwise_snoc.1 hsorted).2 u hu'
        · exact le_of_eq (List.mem_singleton.1 hu')
      exact BusinessHours.between_mono hp hfirst (hts u hu) (hts t hmem) hut hbu htotal
  rw [htotal, Span.eq_of_nanos (Int.le_antisymm hle hge)]

end Tally

namespace Engine

variable {e e' e₀ : Engine} {c c' : Case} {id : CaseId} {now : Instant} {op : Operation}
  {r : Except EngineError Reply} {target : Option Stage} {ids : List CaseId} {ts : List Instant}
  {x : Step} {l : List Step}

def Step.effectTime? (x : Step) (id : CaseId) : Option Instant :=
  match x.op, x.reply with
  | .respond other now, .ok (.responded true) => if other = id then some now else none
  | _, _ => if x.wakes id then some x.before.clock.now else none

/-- When a step took account of the case of an id. It does so once a first notice was sent. -/
def Step.accountTime? (x : Step) (id : CaseId) : Option Instant :=
  ((x.after.get? id).bind Case.firstSent).bind fun _ => x.effectTime? id

def accountTimes (id : CaseId) (l : List Step) : List Instant := l.filterMap (·.accountTime? id)

theorem accountTimes_snoc (id : CaseId) (l : List Step) (x : Step) :
    accountTimes id (l ++ [x]) = accountTimes id l ++ (x.accountTime? id).toList := by
  rw [accountTimes, List.filterMap_append, List.filterMap_cons]
  cases x.accountTime? id <;> rfl

theorem Step.effectTime?_eq_none (hw : ∀ c ∈ x.woken?, c.id ≠ id)
    (hr : x.reply = .ok (.responded true) → ∀ now, x.op ≠ .respond id now) :
    x.effectTime? id = none := by
  rw [effectTime?, wakes_eq_false hw]
  split
  · next other now hop hreply =>
    refine if_neg fun hid => hr hreply now ?_
    rw [hop, hid]
  · exact if_neg Bool.false_ne_true

theorem Step.effectTime?_of_woken (hw : x.woken? = some c) (hr : x.reply = .ok .done) :
    x.effectTime? c.id = some x.before.clock.now := by
  rw [effectTime?, wakes_eq_true hw rfl]
  split
  · next hreply => cases hr.symm.trans hreply
  · exact if_pos rfl

theorem Step.effectTime?_of_resumed (hop : x.op = .respond id now)
    (hr : x.reply = .ok (.responded true)) : x.effectTime? id = some now := by
  rw [effectTime?, hop, hr]
  exact if_pos rfl

theorem Moved.elapsed_eq (h : Moved e c now target e' c') : c'.elapsed = c.elapsed := by
  cases h with
  | @rearmed stage p => cases p <;> simp [Plan.advance]
  | @closed stage p => cases p <;> simp [Plan.advance, Case.ended]
  | ended => rfl

theorem elapsed_of_account (h : e.accountElapsed c now = .ok c') :
    c'.firstSent = c.firstSent ∧
      (c.firstSent = none ∧ c'.elapsed = c.elapsed ∨
        ∃ first d, c.firstSent = some first ∧ e.settings.hours.between first now = .ok d ∧
          c'.elapsed = c.elapsed.max d) := by
  rw [accountElapsed] at h
  split at h
  · next first hfirst =>
    obtain ⟨d, hd, h⟩ := bind_eq_ok.1 h
    cases h
    exact ⟨rfl, .inr ⟨first, d, hfirst, hd, rfl⟩⟩
  · next hnone =>
    cases h
    exact ⟨rfl, .inl ⟨hnone, rfl⟩⟩

inductive Step.Counts (x : Step) (id : CaseId) (c' : Case) : Prop
  | kept (hc : x.before.get? id = some c') (heffect : x.effectTime? id = none)
  | opened (hid : id ∈ x.op.started?) (hzero : c'.elapsed = .zero)
      (heffect : x.effectTime? id = none)
  | taken {c c₁ : Case} {now : Instant} (hc : x.before.get? id = some c)
      (ha : x.before.accountElapsed c₁ now = .ok c')
      (hfirst : ∀ first, c.firstSent = some first → c₁.firstSent = some first)
      (helapsed : c₁.elapsed = c.elapsed) (heffect : x.effectTime? id = some now)

theorem Performed.account_of_resumed (hn : (e.cases.map Case.id).Nodup)
    (h : Performed e (.respond id now) (.ok (.responded true)) e') :
    ∃ c c', e.get? id = some c ∧ e.accountElapsed (c.ended .resumed none now) now = .ok c' ∧
      e'.get? id = some c' := by
  cases h with
  | idle hw hidle => cases hidle
  | @resumed c c' now before after hcs hne ho ha =>
    have hid : c'.id = c.id := by
      obtain ⟨⟨d, rfl⟩, -⟩ := accountElapsed_cases ha
      rfl
    exact ⟨c, c', get?_of_mem hn (by simp [hcs]), ha, get?_middle _ hne hid⟩
  | evicted hk hop hidle => cases hidle

theorem Performed.counts (hreg : Registry ids x.before) (hnew : ∀ id ∈ x.op.started?, id ∉ ids)
    (h : Performed x.before x.op x.reply x.after) (hc : x.after.get? id = some c') :
    x.Counts id c' := by
  cases h.revised hreg hnew id with
  | same hw hr hs hfile =>
    exact .kept ((get?_of_file hfile).symm.trans hc) (Step.effectTime?_eq_none hw hr)
  | woken hw hr hid hget ho hclock hm ha hout hfile =>
    subst hid
    obtain rfl := Option.some.inj (case_of_file hfile hc)
    rw [now_of_read hclock] at hm ha
    exact .taken hget ha (fun first => hm.firstSent) hm.elapsed_eq
      (Step.effectTime?_of_woken hw hr)
  | resumed hw hr hop =>
    have heffect := Step.effectTime?_of_resumed hop hr
    rw [hop, hr] at h
    obtain ⟨c, d, hget, ha, hafter⟩ := h.account_of_resumed hreg.nodup
    obtain rfl := Option.some.inj (hafter.symm.trans hc)
    exact .taken hget ha (fun first hfirst => hfirst) rfl heffect
  | started hw hr hop hnone hm hfile =>
    obtain rfl := Option.some.inj (case_of_file hfile hc)
    refine .opened (by rw [hop]; rfl) hm.elapsed_eq (Step.effectTime?_eq_none ?_ fun hreply => ?_)
    · exact fun c hc => nomatch hw.symm.trans hc
    · cases hr.symm.trans hreply
  | evicted hw hr hi hget hres hfile => cases case_of_file hfile hc

theorem Step.Counts.elapsed_le (h : x.Counts id c') (hc : x.before.get? id = some c)
    (hid : id ∉ x.op.started?) : c.elapsed ≤ c'.elapsed := by
  cases h with
  | kept hc' =>
    obtain rfl := Option.some.inj (hc.symm.trans hc')
    exact Int.le_refl _
  | opened hstarted => exact absurd hstarted hid
  | taken hc' ha hfirst helapsed =>
    obtain rfl := Option.some.inj (hc.symm.trans hc')
    rw [← helapsed]
    obtain ⟨-, ⟨-, heq⟩ | ⟨first, d, -, -, heq⟩⟩ := elapsed_of_account ha
    · exact heq ▸ Int.le_refl _
    · rw [heq, Span.le_def, Span.nanos_max]
      exact Int.le_max_left _ _

theorem Step.Counts.tallied (h : x.Counts id c') (hafter : x.after.get? id = some c')
    (hstart : id ∈ x.op.started? → ts = [])
    (ht : ∀ c, x.before.get? id = some c →
      Tallied x.before.settings.hours c.firstSent ts c.elapsed) :
    Tallied x.before.settings.hours c'.firstSent (ts ++ (x.accountTime? id).toList) c'.elapsed := by
  have htime : x.accountTime? id = c'.firstSent.bind fun _ => x.effectTime? id := by
    rw [accountTime?, hafter, Option.bind_some]
  have quiet (heffect : x.effectTime? id = none) : ts ++ (x.accountTime? id).toList = ts := by
    rw [htime, heffect, Option.bind_fun_none]
    exact List.append_nil ts
  cases h with
  | kept hc heffect =>
    rw [quiet heffect]
    exact ht c' hc
  | opened hid hzero heffect =>
    rw [quiet heffect, hstart hid, hzero]
    exact .nil _ _
  | @taken c c₁ now hc ha hfirst helapsed heffect =>
    have hbefore := ht c hc
    obtain ⟨hsame, ⟨hnone, heq⟩ | ⟨first, d, hsome, hd, heq⟩⟩ := elapsed_of_account ha
    · have hnone' : c.firstSent = none := by
        cases hf : c.firstSent with
        | none => rfl
        | some first => cases hnone.symm.trans (hfirst first hf)
      rw [htime, hsame, hnone, heq, helapsed]
      rw [hnone'] at hbefore
      exact (List.append_nil ts).symm ▸ hbefore
    · rw [htime, hsame, hsome, heffect, heq, helapsed]
      refine Tallied.snoc ?_ hd
      cases hf : c.firstSent with
      | none => exact (hf ▸ hbefore).begun _
      | some first' =>
        obtain rfl := Option.some.inj (hsome.symm.trans (hfirst first' hf))
        exact hf ▸ hbefore

inductive Step.IsPassive (x : Step) : Prop
  | evaluation {id : CaseId} {now : Instant} (hop : x.op = .evaluate id now)
  | firing (hop : x.op.firing?.isSome) (hw : x.woken? = none)
  | response {id : CaseId} {now : Instant} (hop : x.op = .respond id now)
      (hres : x.before.Resolved id)

theorem Step.IsPassive.cases_eq (hx : x.IsPassive) (hn : (x.before.cases.map Case.id).Nodup)
    (h : x.before.perform x.op = .ok (x.after, x.reply)) : x.after.cases = x.before.cases := by
  cases hx with
  | evaluation hop =>
    rw [hop] at h
    obtain ⟨a, -, h⟩ := bind_eq_ok.1 h
    rw [(Prod.mk.inj (Except.ok.inj h)).1]
  | firing hop hw =>
    rw [(performed_of_perform hn h).unwoken hop hw]
  | response hop hres =>
    obtain ⟨c, hc, hres⟩ := hres
    rw [hop] at h
    obtain ⟨a, ha, h⟩ := bind_eq_ok.1 h
    simp only [onExternalResponse, hc, if_pos hres] at ha
    rw [← (Prod.mk.inj (Except.ok.inj h)).1, ← (Prod.mk.inj (Except.ok.inj ha)).1]

/-- What the accounts of all cases of a run have come to. -/
structure Audited (e₀ : Engine) (l : List Step) (e : Engine) : Prop where
  settings : e.settings = e₀.settings
  known : ∀ x ∈ l, ∀ id, (x.after.get? id).isSome → id ∈ startsOf l
  tallied : ∀ id c, e.get? id = some c →
    Tallied e₀.settings.hours c.firstSent (accountTimes id l) c.elapsed
  grown : ∀ x ∈ l, ∀ id c d, x.after.get? id = some c → e.get? id = some d →
    c.elapsed ≤ d.elapsed
  pairwise : l.Pairwise fun x y => ∀ id c d, x.after.get? id = some c → y.after.get? id = some d →
    c.elapsed ≤ d.elapsed
  passive : ∀ x ∈ l, x.IsPassive → x.after.cases = x.before.cases

theorem Audited.nil (h : Initial e₀) : Audited e₀ [] e₀ where
  settings := rfl
  known := List.forall_mem_nil _
  tallied id _ hc := nomatch (get?_of_file (file_of_initial h id)).symm.trans hc
  grown := List.forall_mem_nil _
  pairwise := .nil
  passive := List.forall_mem_nil _

theorem Audited.accountTimes_eq_nil (ha : Audited e₀ l e) (hid : id ∉ startsOf l) :
    accountTimes id l = [] := by
  refine List.filterMap_eq_nil_iff.2 fun x hx => ?_
  rw [Step.accountTime?]
  cases hget : x.after.get? id with
  | none => rfl
  | some c => exact absurd (ha.known x hx id (hget ▸ rfl)) hid

theorem Audited.step (ha : Audited e₀ l x.before) (hreg : Registry (startsOf l) x.before)
    (hnew : ∀ id ∈ x.op.started?, id ∉ startsOf l)
    (h : x.before.perform x.op = .ok (x.after, x.reply)) : Audited e₀ (l ++ [x]) x.after := by
  have hdone := performed_of_perform hreg.nodup h
  have hreg' := hreg.step hnew hdone.effect
  have hcounts {id : CaseId} {c : Case} (hc : x.after.get? id = some c) : x.Counts id c :=
    hdone.counts hreg hnew hc
  have hgrown (y : Step) (hy : y ∈ l) (id : CaseId) (c d : Case) (hc : y.after.get? id = some c)
      (hd : x.after.get? id = some d) : c.elapsed ≤ d.elapsed := by
    have hid : id ∉ x.op.started? := fun hstarted =>
      hnew id hstarted (ha.known y hy id (hc ▸ rfl))
    cases hget : x.before.get? id with
    | none =>
      have hnone := (hdone.revised hreg hnew id).get?_eq_none hid hget
      cases hnone.symm.trans hd
    | some c₁ => exact Int.le_trans (ha.grown y hy id c c₁ hc hget) ((hcounts hd).elapsed_le hget hid)
  refine {
    settings := hdone.settings_eq.trans ha.settings
    known := ?_
    tallied := fun id c hc => ?_
    grown := forall_mem_snoc.2 ⟨hgrown, fun id c d hc hd => ?_⟩
    pairwise := pairwise_snoc.2 ⟨ha.pairwise, hgrown⟩
    passive := forall_mem_snoc.2 ⟨ha.passive, fun hx => hx.cases_eq hreg.nodup h⟩ }
  · rw [startsOf_snoc]
    refine forall_mem_snoc.2 ⟨fun y hy id hid => List.mem_append_left _ (ha.known y hy id hid),
      fun id hid => ?_⟩
    obtain ⟨c, hc⟩ := Option.isSome_iff_exists.1 hid
    exact id_of_get? hc ▸ hreg'.known c (List.mem_of_find?_eq_some hc)
  · rw [accountTimes_snoc]
    have htally := (hcounts hc).tallied hc (fun hid => ha.accountTimes_eq_nil (hnew id hid))
      (ha.settings ▸ ha.tallied id)
    exact ha.settings ▸ htally
  · obtain rfl := Option.some.inj (hc.symm.trans hd)
    exact Int.le_refl _

/-- The business time on the account of a case is exactly what was last accounted. After every run
it is the greatest of the business times from the first notice up to the firings that woke the case
since, and up to the response that ended it, and none where there were no such times. So it never
becomes less, whatever the clock does; and if those instants come in order, it is the business time
up to the last of them. Evaluations, stale and failed firings and late responses leave it as it
is. -/
theorem elapsed_exact (h₀ : Initial e₀) (hids : (startsOf l).Nodup) (h : Runs e₀ l e) :
    (∀ c ∈ e.cases,
      (∀ t ∈ accountTimes c.id l, ∃ first d, c.firstSent = some first ∧
        e₀.settings.hours.between first t = .ok d) ∧
      IsGreatest (insert .zero (e₀.settings.hours.accounts c.firstSent (accountTimes c.id l)))
        c.elapsed) ∧
    (l.Pairwise fun x y => ∀ id c d, x.after.get? id = some c → y.after.get? id = some d →
      c.elapsed ≤ d.elapsed) ∧
    (∀ offset, e₀.settings.hours.zone = .fixed offset → ¬ e₀.settings.hours.start.IsLeap →
      ¬ e₀.settings.hours.finish.IsLeap → ∀ c ∈ e.cases, ∀ first, c.firstSent = some first →
      first.Proper → (∀ t ∈ accountTimes c.id l, t.Proper) →
      (accountTimes c.id l).Pairwise (· ≤ ·) → ∀ t ∈ (accountTimes c.id l).getLast?,
      e₀.settings.hours.between first t = .ok c.elapsed) ∧
    ∀ x ∈ l, x.IsPassive → x.after.cases = x.before.cases := by
  obtain ⟨hreg, ha⟩ := h.invariant (registry_of_initial h₀) (Audited.nil h₀)
    (fun hrun hreg hnew ha _ => ha.step hreg hnew (hrun.performed List.mem_concat_self)) hids
  have tallied (c : Case) (hc : c ∈ e.cases) :
      Tallied e₀.settings.hours c.firstSent (accountTimes c.id l) c.elapsed :=
    ha.tallied c.id c (get?_of_mem hreg.nodup hc)
  refine ⟨fun c hc => ⟨(tallied c hc).told, (tallied c hc).greatest⟩, ha.pairwise,
    fun offset hz hs hf c hc first hfirst hproper hts hsorted t hlast => ?_, ha.passive⟩
  have ht := tallied c hc
  rw [hfirst] at ht
  exact ht.between_last (BusinessHours.plain_of_fixed hz hs hf) hproper hts hsorted hlast

theorem elapsed_exact_reminded :
    Initial standard ∧ (startsOf toReminded).Nodup ∧ Runs standard toReminded reminded ∧
      accountTimes ⟨1⟩ toReminded = [⟨1792407600, 0⟩] ∧
      ∃ c ∈ reminded.cases, c.elapsed = .ofHours 1 ∧
        standard.settings.hours.between ⟨1792404000, 0⟩ ⟨1792407600, 0⟩ = .ok c.elapsed := by
  have hids : (startsOf toReminded).Nodup := List.nodup_singleton (⟨1⟩ : CaseId)
  have htimes : accountTimes ⟨1⟩ toReminded = [⟨1792407600, 0⟩] := rfl
  obtain ⟨-, -, hlast, -⟩ := elapsed_exact initial_standard hids runs_toReminded
  have hmem := List.head_mem (l := reminded.cases) (by decide)
  refine ⟨initial_standard, hids, runs_toReminded, htimes, _, hmem, rfl, ?_⟩
  refine hlast .utc rfl (by decide) (by decide) _ hmem ⟨1792404000, 0⟩ rfl ⟨by decide, by decide⟩
    ?_ ?_ ⟨1792407600, 0⟩ rfl
  · exact fun t ht => List.mem_singleton.1 ht ▸ ⟨by decide, by decide⟩
  · exact List.pairwise_singleton _ _

end Engine

end Followup
