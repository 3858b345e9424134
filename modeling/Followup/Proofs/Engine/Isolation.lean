import Followup.Proofs.Engine.Mirror
import Mathlib.Data.List.Forall2

/-! Cases do not interfere. When all that is about other ids is taken out of a run, what is left
goes as before, but for the numbers that wake-ups are armed under. -/

namespace Followup

def Operation.concerns (id : CaseId) (op : Operation) : Bool := op.about?.all (· = id)

/-- What is left for an id, with the numbers that firings carry renumbered. -/
def alone (id : CaseId) (ρ : Nat → Nat) (ops : List Operation) : List Operation :=
  (ops.filter (·.concerns id)).map (.renumber ρ)

theorem concerns_iff {id : CaseId} {op : Operation} :
    op.concerns id = true ↔ op.about? = none ∨ op.about? = some id := by
  rw [Operation.concerns]
  cases op.about? <;> simp

theorem about_other {id : CaseId} {op : Operation} (h : ¬ op.concerns id) :
    ∃ other, op.about? = some other ∧ id ≠ other := by
  rw [concerns_iff, not_or] at h
  obtain ⟨other, hop⟩ := Option.ne_none_iff_exists'.1 h.1
  exact ⟨other, hop, fun heq => h.2 (heq ▸ hop)⟩

theorem started?_renumber (ρ : Nat → Nat) (op : Operation) :
    (op.renumber ρ).started? = op.started? := by
  cases op <;> rfl

theorem exists_renumbering {ns : List Nat} (h : ns.Nodup) :
    ∃ ρ : Nat → Nat, ρ.Injective ∧ ns.map ρ = List.range' 1 ns.length := by
  refine ⟨fun n => if n ∈ ns then ns.idxOf n + 1 else n + ns.length + 1, fun m n hmn => ?_, ?_⟩
  · have hlt {n : Nat} (hn : n ∈ ns) : ns.idxOf n < ns.length := List.idxOf_lt_length_of_mem hn
    by_cases hm : m ∈ ns <;> by_cases hn : n ∈ ns
    · simp only [hm, hn, if_true, Nat.add_right_cancel_iff] at hmn
      exact (List.idxOf_inj hm).1 hmn
    · have := hlt hm
      simp only [hm, hn, if_true, if_false] at hmn
      omega
    · have := hlt hn
      simp only [hm, hn, if_true, if_false] at hmn
      omega
    · simp only [hm, hn, if_false] at hmn
      omega
  · refine List.ext_getElem (by simp) fun i hi hi' => ?_
    have hi : i < ns.length := by simpa using hi
    simp only [List.getElem_map, List.getElem_mem, if_true, List.getElem_range',
      h.idxOf_getElem i hi]
    omega

namespace Engine

variable {e e' e₀ d : Engine} {id : CaseId} {ρ : Nat → Nat} {l l' : List Step} {x y : Step}

/-- Both engines show the same case under an id, and have told and armed the same for it. -/
structure Agrees (id : CaseId) (ρ : Nat → Nat) (e d : Engine) : Prop where
  shown : (d.get? id).map Case.shown = (e.get? id).map Case.shown
  told : d.commandsOf id = e.commandsOf id
  armed : d.armedFor id = (e.armedFor id).map (WakeRequest.renumber ρ)

/-- The second step does for an id what the first one does, at the same time and under the same
outages. -/
structure Step.Alike (id : CaseId) (ρ : Nat → Nat) (x y : Step) : Prop where
  op : y.op = x.op.renumber ρ
  clock : y.before.clock = x.before.clock
  refusal : y.before.timers.refusal = x.before.timers.refusal
  reply : x.op.about? = some id → y.reply.map Reply.shown = x.reply.map Reply.shown
  before : Agrees id ρ x.before y.before
  after : Agrees id ρ x.after y.after

def Step.number? (id : CaseId) (x : Step) : Option Nat :=
  if x.op.concerns id ∧ x.after.lastSeq ≠ x.before.lastSeq then some x.after.lastSeq else none

def numbersOf (id : CaseId) (l : List Step) : List Nat := l.filterMap (Step.number? id)

theorem numbersOf_snoc (id : CaseId) (l : List Step) (x : Step) :
    numbersOf id (l ++ [x]) = numbersOf id l ++ (x.number? id).toList := by
  rw [numbersOf, List.filterMap_append]
  cases hx : x.number? id <;> simp [numbersOf, hx]

theorem Mirrors.agrees (h : Mirrors id ρ e d) : Agrees id ρ e d := by
  refine ⟨?_, h.told, h.armed⟩
  rcases h.get?_cases with ⟨hc, hd⟩ | ⟨c, c', hc, hd, ht⟩
  · rw [hc, hd]
  · rw [hc, hd]
    exact congrArg some ht.shown_eq

theorem Effect.lastSeq_le {started : Option CaseId} (h : Effect e started e') :
    e.lastSeq ≤ e'.lastSeq := by
  cases h with
  | idle clock refusal hn => exact hn
  | moved elapsed hcs hne ho hm => exact hm.lastSeq_le
  | admitted hs hm => exact hm.lastSeq_le
  | evicted => exact Nat.le_refl _

theorem nodup_numbersOf (h₀ : Initial e₀) (hids : (startsOf l).Nodup) (h : Runs e₀ l e)
    (id : CaseId) : (numbersOf id l).Nodup := by
  refine (h.invariant
    (P := fun l e => (∀ n ∈ numbersOf id l, n ≤ e.lastSeq) ∧ (numbersOf id l).Nodup)
    (registry_of_initial h₀) ⟨by simp [numbersOf], .nil⟩ ?_ hids).2.2
  rintro l e op r e' - hreg hnew ⟨hle, hnodup⟩ hdone
  have hmono := hdone.effect.lastSeq_le
  rw [numbersOf_snoc, Step.number?]
  split
  · next hused =>
    have hlt : e.lastSeq < e'.lastSeq := Nat.lt_of_le_of_ne hmono (Ne.symm hused.2)
    refine ⟨forall_mem_snoc.2 ⟨fun n hn => Nat.le_trans (hle n hn) hmono, Nat.le_refl _⟩,
      pairwise_snoc.2 ⟨hnodup, fun n hn => ?_⟩⟩
    exact Nat.ne_of_lt (Nat.lt_of_le_of_lt (hle n hn) hlt)
  · rw [Option.toList_none, List.append_nil]
    exact ⟨fun n hn => Nat.le_trans (hle n hn) hmono, hnodup⟩

theorem mirrors_of_initial (h : Initial e) (id : CaseId) (ρ : Nat → Nat) : Mirrors id ρ e e := by
  have hfile := file_of_initial h id
  have harmed : e.armedFor id = [] := congrArg CaseFile.armed hfile
  have hcase : e.get? id = none := get?_of_file hfile
  refine ⟨⟨.refl e, rfl, by rw [harmed, List.map_nil]⟩, ?_⟩
  rw [hcase]
  exact .none

theorem Mirrors.skip (h : Mirrors id ρ e d) (ht : Untouched id e e') : Mirrors id ρ e' d := by
  have hsame := ht.toSameSurroundings.symm.trans h.toSameSurroundings
  refine ⟨⟨hsame, h.told.trans ?_, h.armed.trans (congrArg _ ?_)⟩, ?_⟩
  · exact (congrArg CaseFile.told ht.file).symm
  · exact (congrArg CaseFile.armed ht.file).symm
  · rw [get?_of_file ht.file]
    exact h.twin

theorem startsOf_alike (h : List.Forall₂ (Step.Alike id ρ) l l') : startsOf l' = startsOf l := by
  induction h with
  | nil => rfl
  | cons hxy h ih =>
    simp only [startsOf, List.map_cons, startedIds, List.filterMap_cons, hxy.op,
      started?_renumber] at ih ⊢
    rw [ih]

theorem ops_alike (h : List.Forall₂ (Step.Alike id ρ) l l') :
    l'.map Step.op = (l.map Step.op).map (.renumber ρ) := by
  induction h with
  | nil => rfl
  | cons hxy h ih => rw [List.map_cons, List.map_cons, List.map_cons, ih, hxy.op]

/-- What a step that concerns an id does, a step of the other engine does for it. -/
theorem Mirrors.step {e₁ : Engine} {op : Operation} {r : Except EngineError Reply}
    (h : Mirrors id ρ e d) (hρ : ρ.Injective) (hl : e.listening = true)
    (hn : (e.cases.map Case.id).Nodup) (hn' : (d.cases.map Case.id).Nodup) (hx : op.concerns id)
    (hp : e.perform op = .ok (e₁, r)) (hnum : Numbers ρ e d e₁) :
    ∃ d₁ s, d.perform (op.renumber ρ) = .ok (d₁, s) ∧
      Step.Alike id ρ ⟨e, op, r, e₁⟩ ⟨d, op.renumber ρ, s, d₁⟩ ∧ Mirrors id ρ e₁ d₁ ∧
      InStep e d e₁ d₁ := by
  rcases concerns_iff.1 hx with hop | hop
  · obtain ⟨⟨d₁, s⟩, hd, hm, hstep⟩ := h.perform_outside hn hn' hop hp
    have hsilent : op.about? ≠ some id := by
      rw [hop]
      exact nofun
    refine ⟨d₁, s, hd, ?_, hm, hstep⟩
    exact ⟨rfl, h.clock, h.refusal, fun hop => absurd hop hsilent, h.agrees, hm.agrees⟩
  · obtain ⟨⟨d₁, s⟩, hd, hr⟩ := h.perform_about hρ hl hn hn' hop hp hnum
    refine ⟨d₁, s, hd, ?_, hr.mirrors, hr.inStep⟩
    exact ⟨rfl, h.clock, h.refusal, fun _ => hr.answer, h.agrees, hr.mirrors.agrees⟩

structure Solo (id : CaseId) (ρ : Nat → Nat) (e₀ : Engine) (l : List Step) (e : Engine)
    (l' : List Step) (d : Engine) : Prop where
  runs : Runs e₀ l' d
  alike : List.Forall₂ (Step.Alike id ρ) (l.filter (·.op.concerns id)) l'
  mirrors : Mirrors id ρ e d
  lastSeq : d.lastSeq = (numbersOf id l).length

theorem counted_snoc
    (h : (numbersOf id (l ++ [x])).map ρ = List.range' 1 (numbersOf id (l ++ [x])).length) :
    (numbersOf id l).map ρ = List.range' 1 (numbersOf id l).length ∧
      ∀ n ∈ x.number? id, ρ n = (numbersOf id l).length + 1 := by
  rw [numbersOf_snoc, List.map_append, List.length_append, ← List.range'_append_1] at h
  obtain ⟨hl, hx⟩ := List.append_inj h (by simp)
  refine ⟨hl, fun n hn => ?_⟩
  rw [hn] at hx
  have := List.singleton_inj.1 hx
  omega

theorem Solo.snoc {e₁ d₁ : Engine} {r s : Except EngineError Reply} {op : Operation}
    (hs : Solo id ρ e₀ l e l' d) (hx : op.concerns id)
    (hp : d.perform (op.renumber ρ) = .ok (d₁, s))
    (ha : Step.Alike id ρ ⟨e, op, r, e₁⟩ ⟨d, op.renumber ρ, s, d₁⟩) (hm : Mirrors id ρ e₁ d₁)
    (hstep : InStep e d e₁ d₁) :
    Solo id ρ e₀ (l ++ [⟨e, op, r, e₁⟩]) e₁ (l' ++ [⟨d, op.renumber ρ, s, d₁⟩]) d₁ := by
  refine ⟨hs.runs.snoc _ hp, ?_, hm, ?_⟩
  · rw [List.filter_append, List.filter_singleton, hx]
    exact List.rel_append hs.alike (.cons ha .nil)
  · rw [numbersOf_snoc, List.length_append, Step.number?, ← hs.lastSeq]
    rcases hstep with ⟨he, hd⟩ | ⟨he, hd⟩
    · rw [if_neg fun h => h.2 he, hd]
      rfl
    · rw [if_pos ⟨hx, by rw [he]; exact Nat.succ_ne_self _⟩, hd]
      rfl

theorem Solo.skip {e₁ : Engine} {r : Except EngineError Reply} {op : Operation}
    (hs : Solo id ρ e₀ l e l' d) (hx : ¬ op.concerns id) (ht : Untouched id e e₁) :
    Solo id ρ e₀ (l ++ [⟨e, op, r, e₁⟩]) e₁ l' d := by
  refine ⟨hs.runs, ?_, hs.mirrors.skip ht, ?_⟩
  · rw [List.filter_append, List.filter_singleton, Bool.eq_false_iff.2 hx]
    exact (List.append_nil _).symm ▸ hs.alike
  · rw [numbersOf_snoc, Step.number?, if_neg fun h => hx h.1, Option.toList_none, List.append_nil]
    exact hs.lastSeq

theorem Solo.nodup (hs : Solo id ρ e₀ l e l' d) (h₀ : Initial e₀) (hids : (startsOf l).Nodup) :
    (d.cases.map Case.id).Nodup := by
  have hsub : (startsOf (l.filter (·.op.concerns id))).Sublist (startsOf l) :=
    ((List.filter_sublist).map Step.op).filterMap Operation.started?
  have hids' : (startsOf l').Nodup := startsOf_alike hs.alike ▸ hids.sublist hsub
  exact (registry_of_runs h₀ hids' hs.runs).nodup

theorem exists_solo (h₀ : Initial e₀) (hids : (startsOf l).Nodup) (h : Runs e₀ l e)
    (hρ : ρ.Injective)
    (hnum : (numbersOf id l).map ρ = List.range' 1 (numbersOf id l).length) :
    ∃ l' d, Solo id ρ e₀ l e l' d := by
  induction h with
  | nil =>
    refine ⟨[], e₀, .nil, .nil, mirrors_of_initial h₀ id ρ, ?_⟩
    obtain ⟨settings, table, clock, refusal, h₀⟩ := h₀
    obtain ⟨r, -, h₀⟩ := bind_eq_ok.1 h₀
    cases r <;> cases h₀
    rfl
  | @snoc l e e' r h op hp ih =>
    rw [startsOf_snoc] at hids
    have hids' := (List.nodup_append.1 hids).1
    have hreg := registry_of_runs h₀ hids' h
    obtain ⟨hbefore, hlast⟩ := counted_snoc hnum
    obtain ⟨l', d, hs⟩ := ih hids' hbefore
    -- What concerns the id is done by the second engine too, under its next number.
    by_cases hx : op.concerns id
    · have hnumbers : Numbers ρ e d e' := by
        intro hused
        rw [hs.lastSeq]
        exact hlast _ (if_pos ⟨hx, hused⟩)
      obtain ⟨d₁, s, hd, ha, hm, hstep⟩ := hs.mirrors.step hρ hreg.listening hreg.nodup
        (hs.nodup h₀ hids') hx hp hnumbers
      exact ⟨_, d₁, hs.snoc hx hd ha hm hstep⟩
    · obtain ⟨other, hop, hne⟩ := about_other hx
      exact ⟨l', d, hs.skip hx (untouched_of_perform hreg.listening hp hop hne)⟩

/-- When all that is about other ids is taken out of a run, and the numbers of the wake-ups are
changed accordingly, what is left is a run as well. In it each operation on the id has the same
answer, at the same readings of the clock and under the same outages, and before and after it the
case shows the same, has been told the same and has had wake-ups armed for the same times. -/
theorem cases_isolated (h₀ : Initial e₀) (hids : (startsOf l).Nodup) (h : Runs e₀ l e)
    (id : CaseId) :
    ∃ ρ : Nat → Nat, ρ.Injective ∧ ∃ l' d, Runs e₀ l' d ∧
      l'.map Step.op = alone id ρ (l.map Step.op) ∧
      List.Forall₂ (Step.Alike id ρ) (l.filter (·.op.concerns id)) l' ∧ Agrees id ρ e d := by
  obtain ⟨ρ, hρ, hnum⟩ := exists_renumbering (nodup_numbersOf h₀ hids h id)
  obtain ⟨l', d, hs⟩ := exists_solo h₀ hids h hρ hnum
  refine ⟨ρ, hρ, l', d, hs.runs, ?_, hs.alike, hs.mirrors.agrees⟩
  rw [ops_alike hs.alike, alone, List.filter_map]
  rfl

def pair : List Operation :=
  [.start ⟨1⟩ "UNREADABLE_DOCUMENT" ⟨1792404000, 0⟩, .start ⟨2⟩ "INVALID_BAD_DATA" ⟨1792404000, 0⟩,
    .setClock ⟨1792407600, 0⟩, .timerFired ⟨2⟩ 2, .respond ⟨1⟩ ⟨1792407600, 0⟩]

theorem cases_isolated_pair :
    Initial standard ∧ ∃ l e, l.map Step.op = pair ∧ (startsOf l).Nodup ∧ Runs standard l e ∧
      ∃ ρ : Nat → Nat, ρ.Injective ∧ ∃ l' d, Runs standard l' d ∧
        l'.map Step.op = [.start ⟨2⟩ "INVALID_BAD_DATA" ⟨1792404000, 0⟩,
          .setClock ⟨1792407600, 0⟩, .timerFired ⟨2⟩ (ρ 2)] ∧
        d.commandsOf ⟨2⟩ = e.commandsOf ⟨2⟩ ∧
        (e.commandsOf ⟨2⟩).length = 2 := by
  obtain ⟨l, hops, hl⟩ := runs_of_run (show run pair standard = .ok _ from rfl)
  have hids : (startsOf l).Nodup := by
    rw [startsOf, hops]
    decide
  obtain ⟨ρ, hρ, l', d, hl', hops', -, hagrees⟩ := cases_isolated initial_standard hids hl ⟨2⟩
  refine ⟨initial_standard, l, _, hops, hids, hl, ρ, hρ, l', d, hl', ?_, hagrees.told, rfl⟩
  rw [hops', hops]
  rfl

end Engine

end Followup
