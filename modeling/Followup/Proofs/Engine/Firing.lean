import Followup.Proofs.Engine.TimerBalance

/-! Timer firings. They may come late, twice, out of order or made up; a firing counts only when it
carries the number that an open case waits under, and every number counts at most once. -/

namespace Followup.Engine

variable {e e' e₀ : Engine} {c c' d : Case} {id : CaseId} {now : Instant} {seq n : Nat}
  {target : Option Stage} {op : Operation} {r : Except EngineError Reply} {l : List Step}

def Step.spent? (x : Step) : Option Nat := x.woken?.bind fun c => c.wake.map Wake.seq

/-- A timer firing that is not what an open case waits for. -/
def Step.isStale (x : Step) : Bool :=
  match x.op with
  | .timerFired _ _ => (x.before.wakes? x.op).isNone
  | _ => false

theorem handleTimerFired_unknown (h : e.get? id = none) (seq : Nat) :
    e.handleTimerFired id seq = .ok (e, .error (.unknownCase id)) := by
  simp only [handleTimerFired, wakeCase, h]
  rfl

theorem handleTimerFired_stale (hn : (e.cases.map Case.id).Nodup) (h : e.get? id = some c)
    (hs : c.isResolved ∨ c.wake.map Wake.seq ≠ some seq) :
    e.handleTimerFired id seq = .ok (e, .ok ()) := by
  have hfire : e.fire c (some seq) = .ok (e, .ok c) := by
    rw [fire]
    by_cases hres : c.isResolved
    · rw [if_pos hres]
      rfl
    · have hseq : some seq ≠ c.wake.map Wake.seq := Ne.symm (hs.resolve_left hres)
      rw [if_neg hres, if_pos ⟨rfl, hseq⟩]
      rfl
  obtain rfl := id_of_get? h
  simp only [handleTimerFired, wakeCase, h, hfire, ok_bind]
  exact congrArg (fun e => Except.ok (e, Except.ok ())) (update_self hn h)

theorem eq_of_isStale (hn : (e.cases.map Case.id).Nodup)
    (hp : e.perform op = .ok (e', r)) (hs : Step.isStale ⟨e, op, r, e'⟩) : e' = e := by
  cases op with
  | timerFired id seq =>
    have hw : e.wakes? (.timerFired id seq) = none := Option.isNone_iff_eq_none.1 hs
    obtain ⟨a, ha, hp⟩ := bind_eq_ok.1 hp
    cases hp
    cases hc : e.get? id with
    | none =>
      rw [handleTimerFired_unknown hc] at ha
      cases ha
      rfl
    | some c =>
      have hstale : c.isResolved ∨ c.wake.map Wake.seq ≠ some seq := by
        by_contra hcon
        rw [not_or, not_not] at hcon
        have ho := Case.not_isResolved.1 hcon.1
        have hop : (Operation.timerFired id seq).firing? = some (id, some seq) := rfl
        cases hw.symm.trans ((wakes?_eq_some hop).2 ⟨hc, ho, fun _ => hcon.2.symm⟩)
      rw [handleTimerFired_stale hn hc hstale] at ha
      cases ha
      rfl
  | _ => cases hs

theorem Balanced.seq_inj (hb : e.Balanced) (hn : (e.cases.map Case.id).Nodup) (hc : c ∈ e.cases)
    (hd : d ∈ e.cases) (hcn : c.wake.map Wake.seq = some n) (hdn : d.wake.map Wake.seq = some n) :
    c = d := by
  obtain ⟨w, hw, rfl⟩ := Option.map_eq_some_iff.1 hcn
  obtain ⟨v, hv, hvw⟩ := Option.map_eq_some_iff.1 hdn
  have armed {c : Case} {w : Wake} (hc : c ∈ e.cases) (hw : c.wake = some w) :
      ⟨c.id, w.seq, w.wakeAt⟩ ∈ e.timers.armed :=
    List.mem_map_of_mem (List.mem_of_getElem? (hb.serves.entry c hc w hw))
  have hnodup : (e.timers.armed.map WakeRequest.seq).Nodup :=
    hb.increasing.imp fun h => Nat.ne_of_lt h
  have heq := List.inj_on_of_nodup_map hnodup (armed hc hw) (armed hd hv) hvw.symm
  exact List.inj_on_of_nodup_map hn hc hd (congrArg WakeRequest.id heq)

theorem Moved.seq_fresh (h : Moved e c now target e' c') (hn : n ≤ e.lastSeq) :
    c'.wake.map Wake.seq ≠ some n := by
  cases h with
  | rearmed =>
    intro heq
    have : e.lastSeq + 1 = n := Option.some.inj heq
    omega
  | closed | ended => exact fun heq => nomatch heq

def Past (e : Engine) (n : Nat) : Prop :=
  n ≤ e.lastSeq ∧ ∀ c ∈ e.cases, c.wake.map Wake.seq ≠ some n

theorem Effect.past {started : Option CaseId} (h : Effect e started e') (hp : e.Past n) :
    e'.Past n := by
  obtain ⟨hle, hcases⟩ := hp
  cases h with
  | idle clock refusal hn => exact ⟨Nat.le_trans hle hn, hcases⟩
  | @moved c c₁ now target e₁ before after elapsed hcs hne ho hm ht =>
    refine ⟨Nat.le_trans hle hm.lastSeq_le, fun d hd => ?_⟩
    rcases List.mem_cons.1 (List.perm_middle.mem_iff.1 hd) with rfl | hd
    · exact hm.seq_fresh hle
    · exact hcases d (hcs ▸ List.perm_middle.mem_iff.2 (List.mem_cons_of_mem _ hd))
  | @admitted id reason now e₁ c hs hm =>
    refine ⟨Nat.le_trans hle hm.lastSeq_le, fun d hd => ?_⟩
    rcases List.mem_append.1 hd with hd | hd
    · exact hcases d (hm.cases_eq ▸ hd)
    · exact List.mem_singleton.1 hd ▸ hm.seq_fresh hle
  | evicted => exact ⟨hle, fun c hc => hcases c (List.mem_of_mem_filter hc)⟩

theorem Performed.spent (hb : e.Balanced) (hn : (e.cases.map Case.id).Nodup)
    (h : Performed e op r e') (hs : Step.spent? ⟨e, op, r, e'⟩ = some n) :
    ¬ e.Past n ∧ e'.Past n := by
  obtain ⟨c, hc, hcn⟩ := Option.bind_eq_some_iff.1 hs
  cases h with
  | failed => cases hc
  | idle hw => cases hw.symm.trans hc
  | outside clock refusal hop => cases (wakes?_eq_none hop).symm.trans hc
  | @woken _ c₀ c₁ c' now e₁ before after hw hcs hne ho hclock hm ha hout =>
    obtain rfl := Option.some.inj (hw.symm.trans hc)
    have hmem : c₀ ∈ e.cases := by simp [hcs]
    obtain ⟨w, hwake, rfl⟩ := Option.map_eq_some_iff.1 hcn
    have hle : w.seq ≤ e.lastSeq :=
      hb.bounded ⟨c₀.id, w.seq, w.wakeAt⟩
        (List.mem_map_of_mem (List.mem_of_getElem? (hb.serves.entry c₀ hmem w hwake)))
    refine ⟨fun hpast => hpast.2 c₀ hmem hcn, Nat.le_trans hle hm.lastSeq_le, fun d hd => ?_⟩
    rcases List.mem_cons.1 (List.perm_middle.mem_iff.1 hd) with rfl | hd
    · obtain ⟨⟨elapsed, rfl⟩, -⟩ := accountElapsed_cases ha
      exact hm.seq_fresh hle
    · intro hdn
      have hdmem : d ∈ e.cases := hcs ▸ List.perm_middle.mem_iff.2 (List.mem_cons_of_mem _ hd)
      exact hne d hd (congrArg Case.id (hb.seq_inj hn hdmem hmem hdn hcn))
  | resumed => cases hc
  | started => cases hc
  | evicted hk hop => cases (wakes?_eq_none hop).symm.trans hc

theorem Performed.unwoken (h : Performed e op r e') (hop : op.firing?.isSome)
    (hw : Step.woken? ⟨e, op, r, e'⟩ = none) : e' = { e with lastSeq := e'.lastSeq } := by
  cases h with
  | failed => rfl
  | idle => rfl
  | outside clock refusal hnone => cases hnone ▸ hop
  | woken hsome => cases hsome.symm.trans hw
  | resumed => cases hop
  | started => cases hop
  | evicted hk hnone => cases hnone ▸ hop

/-- How the firings of a run have gone. -/
structure FiredOnce (e₀ : Engine) (l : List Step) (e : Engine) : Prop where
  idle : ∀ x ∈ l, x.op.firing?.isSome → x.woken? = none →
    x.after = { x.before with lastSeq := x.after.lastSeq }
  once : (l.filterMap Step.spent?).Nodup
  past : ∀ n ∈ l.filterMap Step.spent?, e.Past n
  erased : run ((l.filter fun x => !x.isStale).map Step.op) e₀ = .ok e

theorem FiredOnce.step (hb : e.Balanced) (hn : (e.cases.map Case.id).Nodup)
    (hf : FiredOnce e₀ l e) (hp : e.perform op = .ok (e', r)) (h : Performed e op r e') :
    FiredOnce e₀ (l ++ [⟨e, op, r, e'⟩]) e' := by
  have hspent : (l ++ [(⟨e, op, r, e'⟩ : Step)]).filterMap Step.spent? =
      l.filterMap Step.spent? ++ (Step.spent? ⟨e, op, r, e'⟩).toList := by
    rw [List.filterMap_append, List.filterMap_cons, List.filterMap_nil]
    cases Step.spent? ⟨e, op, r, e'⟩ <;> rfl
  refine ⟨?_, ?_, fun n hmem => ?_, ?_⟩
  · exact forall_mem_snoc.2 ⟨hf.idle, h.unwoken⟩
  · rw [hspent, List.nodup_append]
    refine ⟨hf.once, Option.toList_nodup _, fun n hmem m hm => ?_⟩
    rintro rfl
    exact (h.spent hb hn (Option.mem_toList.1 hm)).1 (hf.past n hmem)
  · rw [hspent] at hmem
    rcases List.mem_append.1 hmem with hmem | hmem
    · exact h.effect.past (hf.past n hmem)
    · exact (h.spent hb hn (Option.mem_toList.1 hmem)).2
  · rw [List.filter_append, List.map_append, run_append, hf.erased, ok_bind]
    cases hs : Step.isStale ⟨e, op, r, e'⟩ with
    | true =>
      rw [List.filter_cons_of_neg (by simp [hs]), eq_of_isStale hn hp hs]
      rfl
    | false =>
      rw [List.filter_cons_of_pos (by simp [hs])]
      exact bind_eq_ok.2 ⟨_, hp, rfl⟩

/-- At every point of a run, a timer firing for an id that is not registered is refused, and one for
a resolved case, or under a number that the case does not wait for, is answered though the clock and
the timers be down; neither changes anything. A firing of any kind that does not wake a case uses up
numbers at most. No number wakes a case twice, and the run without the stale firings comes to the
same engine. -/
theorem firing_counts_once (h₀ : Initial e₀) (hids : (startsOf l).Nodup) (h : Runs e₀ l e) :
    (∀ id seq, e.get? id = none →
      e.handleTimerFired id seq = .ok (e, .error (.unknownCase id))) ∧
    (∀ id seq c, e.get? id = some c → (c.isResolved ∨ c.wake.map Wake.seq ≠ some seq) →
      e.handleTimerFired id seq = .ok (e, .ok ())) ∧
    (∀ x ∈ l, x.op.firing?.isSome → x.woken? = none →
      x.after = { x.before with lastSeq := x.after.lastSeq }) ∧
    (l.filterMap Step.spent?).Nodup ∧
    run ((l.filter fun x => !x.isStale).map Step.op) e₀ = .ok e := by
  have hstart : FiredOnce e₀ [] e₀ := ⟨List.forall_mem_nil _, .nil, List.forall_mem_nil _, rfl⟩
  have hkept : Registry (startsOf l) e ∧ e.Balanced ∧ FiredOnce e₀ l e := by
    refine h.invariant (P := fun l e => e.Balanced ∧ FiredOnce e₀ l e) (registry_of_initial h₀)
      ⟨balanced_of_initial h₀, hstart⟩ ?_ hids
    rintro l e op r e' hr hreg hnew ⟨hb, hf⟩ hdone
    have hp := hr.performed (List.mem_append_right _ (List.mem_singleton_self _))
    exact ⟨hb.step hreg hnew hdone.effect, hf.step hb hreg.nodup hp hdone⟩
  obtain ⟨hreg, -, hf⟩ := hkept
  exact ⟨fun id seq hnone => handleTimerFired_unknown hnone seq,
    fun id seq c hc => handleTimerFired_stale hreg.nodup hc, hf.idle, hf.once, hf.erased⟩

def repeated : List Step :=
  let e := reminded.setOutage (some "down")
  toReminded ++ [⟨reminded, .setOutage (some "down"), .ok .done, e⟩,
    ⟨e, .timerFired ⟨1⟩ 1, .ok .done, e⟩,
    ⟨e, .timerFired ⟨7⟩ 2, .error (.unknownCase ⟨7⟩), e⟩]

theorem firing_counts_once_repeated :
    Initial standard ∧ (startsOf repeated).Nodup ∧
      Runs standard repeated (reminded.setOutage (some "down")) ∧
      repeated.filterMap Step.spent? = [1] ∧ (repeated.filterMap Step.spent?).Nodup ∧
      (repeated.filter fun x => !x.isStale).length = 4 ∧
      run ((repeated.filter fun x => !x.isStale).map Step.op) standard =
        .ok (reminded.setOutage (some "down")) := by
  have hids : (startsOf repeated).Nodup := List.nodup_singleton (⟨1⟩ : CaseId)
  have hdown : Runs standard (repeated.take 4) (reminded.setOutage (some "down")) :=
    .snoc (l := toReminded) runs_toReminded _ rfl
  have hagain : Runs standard (repeated.take 5) (reminded.setOutage (some "down")) :=
    .snoc (l := repeated.take 4) hdown _ rfl
  have hl : Runs standard repeated (reminded.setOutage (some "down")) :=
    .snoc (l := repeated.take 5) hagain _ rfl
  obtain ⟨-, -, -, once, erased⟩ := firing_counts_once initial_standard hids hl
  exact ⟨initial_standard, hids, hl, rfl, once, rfl, erased⟩

end Followup.Engine
