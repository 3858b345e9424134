import Followup.Proofs.Engine.Bystander
import Followup.Proofs.Engine.Firing
import Followup.Proofs.Engine.Resolution
import Mathlib.Data.Set.Card

/-! Eviction. A case is forgotten only when it is resolved, by its id or by the time at which it was
resolved; a purge may look at the ids in any order. Nothing else of the engine changes, and nothing
brings an evicted case back. -/

namespace Followup.Engine

variable {e e' e₀ : Engine} {c d : Case} {id : CaseId} {ids : List CaseId} {cutoff now : Instant}
  {keep p : Case → Bool} {gone : CaseId → Prop} {op : Operation} {r : Except EngineError Reply}
  {x : Step} {l : List Step} {before after : List Case}

def ResolvedBy (e : Engine) (cutoff : Instant) (id : CaseId) : Prop :=
  ∃ c r, e.get? id = some c ∧ c.resolution = some r ∧ r.resolvedAt ≤ cutoff

def evictIf (e : Engine) (id : CaseId) (expired : Instant → Bool) : Answer (Option Case) :=
  match e.get? id with
  | none => (e, .error (.unknownCase id))
  | some c =>
    match c.resolution with
    | some r => if expired r.resolvedAt then (e.evict id, .ok (some c)) else (e, .ok none)
    | none => (e, .ok none)

def walk (cutoff : Instant) : List CaseId → Engine × Nat → Engine × Nat
  | [], a => a
  | id :: ids, (e, n) =>
    match e.evictIf id (decide <| · ≤ cutoff) with
    | (e, .ok (some _)) => walk cutoff ids (e, n + 1)
    | (e, _) => walk cutoff ids (e, n)

def isDue (cutoff : Instant) (ids : List CaseId) (c : Case) : Bool :=
  decide (c.id ∈ ids) && isExpired cutoff c

/-- Some ids are gone; on all others, and in all else, the engine is as it was. No open case is
gone. -/
structure Evicts (e : Engine) (gone : CaseId → Prop) (e' : Engine) : Prop where
  rest : e' = { e with cases := e'.cases }
  absent : ∀ id, gone id → e'.get? id = none
  kept : ∀ id, ¬ gone id → e'.get? id = e.get? id
  activeCount_eq : e'.activeCount = e.activeCount

theorem isExpired_iff :
    isExpired cutoff c = true ↔ ∃ r, c.resolution = some r ∧ r.resolvedAt ≤ cutoff := by
  cases hr : c.resolution with
  | none => simp [isExpired, hr]
  | some r => simp [isExpired, hr]

theorem resolvedBy_iff :
    e.ResolvedBy cutoff id ↔ ∃ c, e.get? id = some c ∧ isExpired cutoff c = true := by
  simp only [ResolvedBy, isExpired_iff, exists_and_left]

section Registered

variable (hn : (e.cases.map Case.id).Nodup)
include hn

theorem countP_cases (p : Case → Bool) :
    e.cases.countP p = {id | ∃ c, e.get? id = some c ∧ p c = true}.ncard := by
  have hset : {id | ∃ c, e.get? id = some c ∧ p c = true} =
      (((e.cases.filter p).map Case.id).toFinset : Set CaseId) := by
    ext id
    simp only [Set.mem_ofPred_eq, List.coe_toFinset, List.mem_map, List.mem_filter]
    constructor
    · rintro ⟨c, hc, hp⟩
      exact ⟨c, ⟨List.mem_of_find?_eq_some hc, hp⟩, id_of_get? hc⟩
    · rintro ⟨c, ⟨hc, hp⟩, rfl⟩
      exact ⟨c, get?_of_mem hn hc, hp⟩
  have hnodup : ((e.cases.filter p).map Case.id).Nodup :=
    hn.sublist (List.filter_sublist.map _)
  rw [hset, Set.ncard_coe_finset, List.toFinset_card_of_nodup hnodup, List.length_map,
    List.countP_eq_length_filter]

theorem evicts_filter (hk : ∀ c ∈ e.cases, keep c = false → c.isResolved)
    (hgone : ∀ id, gone id ↔ ∃ c, e.get? id = some c ∧ keep c = false) :
    Evicts e gone { e with cases := e.cases.filter keep } := by
  refine ⟨rfl, fun id hid => ?_, fun id hid => ?_, ?_⟩
  · obtain ⟨c, hc, hkeep⟩ := (hgone id).1 hid
    rw [get?_filter hn, hc, Option.filter_some_neg (by simp [hkeep])]
  · rw [get?_filter hn]
    cases hc : e.get? id with
    | none => rfl
    | some c =>
      have hkeep : keep c = true := by
        by_contra hfalse
        exact hid ((hgone id).2 ⟨c, hc, Bool.eq_false_iff.2 hfalse⟩)
      exact Option.filter_some_pos hkeep
  · rw [activeCount, activeCount, List.countP_filter]
    refine List.countP_congr fun c hc => ?_
    cases hkeep : keep c with
    | true => simp
    | false => simp [hk c hc hkeep]

theorem evicts_purgeResolved (cutoff : Instant) :
    Evicts e (e.ResolvedBy cutoff) (e.purgeResolved cutoff).1 :=
  evicts_filter hn (fun c _ hk => isResolved_of_isExpired (by simpa using hk)) fun id => by
    simp only [resolvedBy_iff, Bool.not_eq_false']

theorem count_purgeResolved (cutoff : Instant) :
    (e.purgeResolved cutoff).2 = {id | e.ResolvedBy cutoff id}.ncard := by
  simp only [resolvedBy_iff]
  exact countP_cases hn _

theorem evicts_remove (id : CaseId) :
    Evicts e (fun i => i = id ∧ e.Resolved i) (e.remove id).1 := by
  have stays (hnot : ¬ e.Resolved id) : Evicts e (fun i => i = id ∧ e.Resolved i) e :=
    ⟨rfl, fun i hi => absurd (hi.1 ▸ hi.2) hnot, fun _ _ => rfl, rfl⟩
  simp only [remove]
  split
  · next hc =>
    refine stays ?_
    rintro ⟨c, hget, -⟩
    exact Option.some_ne_none c (hget.symm.trans hc)
  next c hc =>
  split
  · next hres =>
    refine evicts_filter hn (fun d hd hk => ?_) fun i => ⟨?_, ?_⟩
    · have hid : d.id = id := by simpa using hk
      exact eq_of_get? hn hc hd hid ▸ hres
    · rintro ⟨rfl, -⟩
      exact ⟨c, hc, by simpa using id_of_get? hc⟩
    · rintro ⟨d, hd, hk⟩
      obtain rfl : i = id := (id_of_get? hd).symm.trans (by simpa using hk)
      exact ⟨rfl, c, hc, hres⟩
  · next hres => exact stays fun hr => hres (hr.isResolved hc)

theorem evictIf_cases (cutoff : Instant) (id : CaseId) :
    (∃ c, e.get? id = some c ∧ isExpired cutoff c = true ∧
      e.evictIf id (decide <| · ≤ cutoff) = (e.evict id, .ok (some c))) ∨
    (∃ r, e.evictIf id (decide <| · ≤ cutoff) = (e, r) ∧ (∀ c, r ≠ .ok (some c)) ∧
      ∀ d ∈ e.cases, d.id = id → isExpired cutoff d = false) := by
  cases hget : e.get? id with
  | none =>
    refine .inr ⟨.error (.unknownCase id), by rw [evictIf, hget], by simp,
      fun d hd hid => ?_⟩
    exact absurd hid (by simpa using List.find?_eq_none.1 hget d hd)
  | some c =>
    have only (hc : isExpired cutoff c = false) :
        ∀ d ∈ e.cases, d.id = id → isExpired cutoff d = false := by
      intro d hd hid
      exact eq_of_get? hn hget hd hid ▸ hc
    cases hr : c.resolution with
    | none =>
      have hc : isExpired cutoff c = false := by simp only [isExpired, hr]
      exact .inr ⟨.ok none, by simp only [evictIf, hget, hr], by simp, only hc⟩
    | some r =>
      have hc : isExpired cutoff c = decide (r.resolvedAt ≤ cutoff) := by
        simp only [isExpired, hr]
      cases hle : decide (r.resolvedAt ≤ cutoff) with
      | true =>
        exact .inl ⟨c, rfl, hc.trans hle, by simp only [evictIf, hget, hr, hle, if_true]⟩
      | false =>
        refine .inr ⟨.ok none, ?_, by simp, only (hc.trans hle)⟩
        simp only [evictIf, hget, hr, hle, Bool.false_eq_true, if_false]

end Registered

theorem isDue_cons (hc : c.id ≠ id) : isDue cutoff (id :: ids) c = isDue cutoff ids c := by
  simp only [isDue, List.mem_cons, hc, false_or]

theorem evict_due (hcs : e.cases = before ++ c :: after) (hne : ∀ d ∈ before ++ after, d.id ≠ c.id)
    (hexp : isExpired cutoff c = true) (ids : List CaseId) :
    (e.evict c.id).cases = before ++ after ∧
    (e.cases.filter fun d => !isDue cutoff (c.id :: ids) d) =
      (before ++ after).filter (fun d => !isDue cutoff ids d) ∧
    e.cases.countP (isDue cutoff (c.id :: ids)) =
      (before ++ after).countP (isDue cutoff ids) + 1 := by
  have hself : isDue cutoff (c.id :: ids) c = true := by
    simp only [isDue, List.mem_cons_self, hexp, decide_true, Bool.and_true]
  have hrest : ∀ d ∈ before ++ after, isDue cutoff (c.id :: ids) d = isDue cutoff ids d :=
    fun d hd => isDue_cons (hne d hd)
  rw [evict, hcs]
  refine ⟨?_, ?_, ?_⟩
  · have hkept : (before ++ after).filter (fun d => decide (d.id ≠ c.id)) = before ++ after :=
      List.filter_eq_self.2 fun d hd => decide_eq_true (hne d hd)
    rw [List.filter_append, List.filter_cons_of_neg (by simp), ← List.filter_append, hkept]
  · rw [List.filter_append, List.filter_cons_of_neg (by simp [hself]), ← List.filter_append]
    exact List.filter_congr fun d hd => by rw [hrest d hd]
  · rw [List.perm_middle.countP_eq, List.countP_cons_of_pos hself]
    exact congrArg (· + 1) (List.countP_congr fun d hd => by rw [hrest d hd])

theorem walk_eq (hids : ids.Nodup) (hn : (e.cases.map Case.id).Nodup) (n : Nat) :
    walk cutoff ids (e, n) =
      ({ e with cases := e.cases.filter fun c => !isDue cutoff ids c },
        n + e.cases.countP (isDue cutoff ids)) := by
  induction ids generalizing e n with
  | nil =>
    have hnone : isDue cutoff [] = fun _ => false := rfl
    simp [walk, hnone]
  | cons id ids ih =>
    have hrest := (List.nodup_cons.1 hids).2
    -- An id that has been evicted is not met again, so no case is counted twice.
    rcases evictIf_cases hn cutoff id with ⟨c, hc, hexp, hev⟩ | ⟨r, hev, hr, hnone⟩
    · obtain rfl := id_of_get? hc
      obtain ⟨before, after, hcs, hne⟩ := split_of_get? hn hc
      obtain ⟨hcases, hfilter, hcount⟩ := evict_due hcs hne hexp ids
      have hn' : ((e.evict c.id).cases.map Case.id).Nodup :=
        hn.sublist (List.filter_sublist.map _)
      have hwalk : walk cutoff (c.id :: ids) (e, n) = walk cutoff ids (e.evict c.id, n + 1) := by
        rw [walk, hev]
      rw [hwalk, ih hrest hn', hcases, hfilter, hcount, Nat.add_right_comm, Nat.add_assoc]
      rfl
    · have same : ∀ d ∈ e.cases, isDue cutoff (id :: ids) d = isDue cutoff ids d := by
        intro d hd
        by_cases hid : d.id = id
        · simp only [isDue, hnone d hd hid, Bool.and_false]
        · exact isDue_cons hid
      have hwalk : walk cutoff (id :: ids) (e, n) = walk cutoff ids (e, n) := by
        rw [walk, hev]
        cases r with
        | error err => rfl
        | ok c? =>
          cases c? with
          | none => rfl
          | some c => exact absurd rfl (hr c)
      have hfilter : (e.cases.filter fun d => !isDue cutoff (id :: ids) d) =
          e.cases.filter fun d => !isDue cutoff ids d :=
        List.filter_congr fun d hd => by rw [same d hd]
      have hcount : e.cases.countP (isDue cutoff (id :: ids)) = e.cases.countP (isDue cutoff ids) :=
        List.countP_congr fun d hd => by rw [same d hd]
      rw [hwalk, ih hrest hn, hfilter, hcount]

theorem walk_eq_purgeResolved (hn : (e.cases.map Case.id).Nodup)
    (hids : ids.Perm (e.cases.map Case.id)) (cutoff : Instant) :
    walk cutoff ids (e, 0) = e.purgeResolved cutoff := by
  have hall : ∀ c ∈ e.cases, isDue cutoff ids c = isExpired cutoff c := by
    intro c hc
    have hmem : c.id ∈ ids := hids.mem_iff.2 (List.mem_map_of_mem hc)
    simp only [isDue, hmem, decide_true, Bool.true_and]
  have hfilter : (e.cases.filter fun c => !isDue cutoff ids c) =
      e.cases.filter fun c => !isExpired cutoff c :=
    List.filter_congr fun c hc => by rw [hall c hc]
  have hcount : e.cases.countP (isDue cutoff ids) = e.cases.countP (isExpired cutoff) :=
    List.countP_congr fun c hc => by rw [hall c hc]
  rw [walk_eq (hids.nodup_iff.2 hn) hn, Nat.zero_add, hfilter, hcount, purgeResolved]

theorem perform_unknown (h : e.get? id = none) (hop : op.about? = some id)
    (hstart : op.started? = none) : e.perform op = .ok (e, .error (.unknownCase id)) := by
  cases op with
  | start => cases hstart
  | timerFired id seq =>
    cases hop
    rw [perform, handleTimerFired_unknown h]
    rfl
  | fire id =>
    cases hop
    simp only [perform, onTimerFire, wakeCase, h]
    rfl
  | respond id now =>
    cases hop
    simp only [perform, onExternalResponse, h]
    rfl
  | evaluate id now =>
    cases hop
    simp only [perform, evaluateStage, h]
    rfl
  | snapshot id =>
    cases hop
    simp only [perform, snapshot, h]
    rfl
  | remove id =>
    cases hop
    simp only [perform, remove, h]
    rfl
  | purgeResolved | purgeExpired | setClock | setOutage | setRefusal => cases hop

theorem Revised.get?_eq_none (h : Revised x id) (hnew : id ∉ x.op.started?)
    (hnone : x.before.get? id = none) : x.after.get? id = none := by
  have hret := h.retained (f := x.before.file id) (fun c hc => nomatch hnone.symm.trans hc) hnew
    (.refl _)
  rcases hret with hfile | hfile
  · exact (get?_of_file hfile).trans hnone
  · exact get?_of_file hfile

def Step.Forgets (x : Step) (id : CaseId) : Prop :=
  (∃ c, x.before.get? id = some c) ∧ x.after.get? id = none

/-- What was evicted stays away. -/
def StaysAway (l : List Step) (e : Engine) : Prop :=
  ∀ x ∈ l, ∀ id, x.Forgets id → id ∈ startsOf l ∧ e.get? id = none

theorem StaysAway.step (hs : StaysAway l e) (hreg : Registry (startsOf l) e)
    (hnew : ∀ id ∈ op.started?, id ∉ startsOf l) (h : Performed e op r e') :
    StaysAway (l ++ [⟨e, op, r, e'⟩]) e' := by
  have hsub {id : CaseId} (hid : id ∈ startsOf l) : id ∈ startsOf (l ++ [⟨e, op, r, e'⟩]) := by
    rw [startsOf_snoc]
    exact List.mem_append_left _ hid
  refine forall_mem_snoc.2 ⟨fun x hx id hid => ?_, fun id ⟨⟨c, hc⟩, hnone⟩ => ?_⟩
  · obtain ⟨hmem, hnone⟩ := hs x hx id hid
    exact ⟨hsub hmem, (h.revised hreg hnew id).get?_eq_none (fun hid => hnew id hid hmem) hnone⟩
  · exact ⟨hsub (id_of_get? hc ▸ hreg.known c (List.mem_of_find?_eq_some hc)), hnone⟩

theorem staysAway_of_runs (h₀ : Initial e₀) (hids : (startsOf l).Nodup) (h : Runs e₀ l e) :
    Registry (startsOf l) e ∧ StaysAway l e :=
  h.invariant (registry_of_initial h₀) (List.forall_mem_nil _)
    (fun _ hreg hnew hs hdone => hs.step hreg hnew hdone) hids

/-- Eviction is exact in all that a run comes to. A purge takes just the cases that were resolved by
the cutoff and tells how many they were, whatever the order in which it looks at the ids; the
regular purge does so for the time that the retention goes back from the clock, and nothing while
the clock is down. A case that is to be removed is evicted just if it is resolved, and given in its
last state. Nothing else is changed, nor does the count of open cases change. From then on every
operation on an evicted id is refused. -/
theorem eviction_exact (h₀ : Initial e₀) (hids : (startsOf l).Nodup) (h : Runs e₀ l e) :
    (∀ cutoff, Evicts e (e.ResolvedBy cutoff) (e.purgeResolved cutoff).1 ∧
      (e.purgeResolved cutoff).2 = {id | e.ResolvedBy cutoff id}.ncard ∧
      ∀ ids : List CaseId, ids.Perm (e.cases.map Case.id) →
        walk cutoff ids (e, 0) = e.purgeResolved cutoff) ∧
    (∀ now cutoff, e.clock.read = .ok now → now.sub e.settings.retention = .ok cutoff →
      e.purgeExpired = .ok ((e.purgeResolved cutoff).1, .ok (e.purgeResolved cutoff).2)) ∧
    (∀ err, e.clock.read = .error err → e.purgeExpired = .ok (e, .error err)) ∧
    (∀ id, Evicts e (fun i => i = id ∧ e.Resolved i) (e.remove id).1 ∧
      (e.remove id).2 = (e.snapshot id).map fun c => if c.isResolved then some c else none) ∧
    e.activeCount = {id | ∃ c, e.get? id = some c ∧ c.resolution = none}.ncard ∧
    (∀ x ∈ l, ∀ id, x.Forgets id →
      (∀ op, op.about? = some id → op.started? = none →
        e.perform op = .ok (e, .error (.unknownCase id))) ∧
      e.outcome id = .error (.unknownCase id)) := by
  obtain ⟨hreg, haway⟩ := staysAway_of_runs h₀ hids h
  have hn := hreg.nodup
  refine ⟨fun cutoff => ?_, fun now cutoff hclock hsub => ?_, fun err hclock => ?_, fun id => ?_,
    ?_, fun x hx id hid => ?_⟩
  · exact ⟨evicts_purgeResolved hn cutoff, count_purgeResolved hn cutoff,
      fun ids hperm => walk_eq_purgeResolved hn hperm cutoff⟩
  · simp only [purgeExpired, hclock, hsub, ok_bind]
    rfl
  · simp only [purgeExpired, hclock]
    rfl
  · refine ⟨evicts_remove hn id, ?_⟩
    rw [remove, snapshot]
    cases e.get? id with
    | none => rfl
    | some c =>
      dsimp only
      split
      · next hres => exact congrArg Except.ok (if_pos hres).symm
      · next hres => exact congrArg Except.ok (if_neg hres).symm
  · have hopen (c : Case) : (!c.isResolved) = true ↔ c.resolution = none := by
      rw [Bool.not_eq_true', ← Case.not_isResolved, Bool.not_eq_true]
    rw [activeCount, countP_cases hn]
    simp only [hopen]
  · obtain ⟨-, hnone⟩ := haway x hx id hid
    refine ⟨fun op => perform_unknown hnone, ?_⟩
    simp only [outcome, snapshot, hnone]
    rfl

def answeredAtNoon : Engine :=
  { reminded with
    timers := reminded.timers.cancel 1
    commands := reminded.commands ++ [.resolved ⟨1⟩ .resumed none ⟨1792411200, 0⟩]
    cases := [{ Case.fresh ⟨1⟩ "UNREADABLE_DOCUMENT" ⟨1792404000, 0⟩ with
      stage := .followUp1
      firstSent := some ⟨1792404000, 0⟩
      lastSent := some ⟨1792407600, 0⟩
      elapsed := .ofHours 2
      resolution := some ⟨.resumed, none, ⟨1792411200, 0⟩⟩
      history := [.initial, .followUp1] }] }

def noonPurge : Step :=
  ⟨answeredAtNoon, .purgeResolved ⟨1792411200, 0⟩, .ok (.purged 1),
    { answeredAtNoon with cases := [] }⟩

def toPurged : List Step :=
  toReminded ++ [⟨reminded, .respond ⟨1⟩ ⟨1792411200, 0⟩, .ok (.responded true), answeredAtNoon⟩,
    noonPurge]

theorem eviction_exact_answered :
    Initial standard ∧ (startsOf toPurged).Nodup ∧ Runs standard toPurged noonPurge.after ∧
      noonPurge.Forgets ⟨1⟩ ∧ noonPurge.after.perform (.timerFired ⟨1⟩ 2) =
        .ok (noonPurge.after, .error (.unknownCase ⟨1⟩)) := by
  have hids : (startsOf toPurged).Nodup := List.nodup_singleton (⟨1⟩ : CaseId)
  have hanswered : Runs standard (toPurged.take 4) answeredAtNoon :=
    .snoc (l := toReminded) runs_toReminded _ rfl
  have hl : Runs standard toPurged noonPurge.after := .snoc (l := toPurged.take 4) hanswered _ rfl
  have hforgets : noonPurge.Forgets ⟨1⟩ := ⟨⟨_, rfl⟩, rfl⟩
  have hmem : noonPurge ∈ toPurged := List.mem_append_right _ (.tail _ (.head _))
  obtain ⟨-, -, -, -, -, refused⟩ := eviction_exact initial_standard hids hl
  exact ⟨initial_standard, hids, hl, hforgets,
    (refused noonPurge hmem ⟨1⟩ hforgets).1 (.timerFired ⟨1⟩ 2) rfl rfl⟩

end Followup.Engine
