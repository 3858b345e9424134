import Followup.Proofs.Engine.Operation
import Mathlib.Data.List.Induction

/-! Runs of an engine: its operations in any order, with any arguments, while the clock is set and
the clock and the timers fail and recover. -/

namespace Followup

def startedIds (ops : List Operation) : List CaseId := ops.filterMap Operation.started?

section Snoc

variable {α β : Type} {l : List α} {x : α} {p : α → Prop}

theorem forall_mem_snoc : (∀ y ∈ l ++ [x], p y) ↔ (∀ y ∈ l, p y) ∧ p x := by
  rw [List.forall_mem_append, List.forall_mem_singleton]

theorem exists_mem_snoc : (∃ y ∈ l ++ [x], p y) ↔ (∃ y ∈ l, p y) ∨ p x := by
  simp only [List.mem_append, List.mem_singleton, or_and_right, exists_or, exists_eq_left]

theorem pairwise_snoc {R : α → α → Prop} :
    (l ++ [x]).Pairwise R ↔ l.Pairwise R ∧ ∀ y ∈ l, R y x := by
  simp only [List.pairwise_append, List.pairwise_singleton, List.mem_singleton, forall_eq, true_and]

theorem filterMap_snoc (f : α → Option β) :
    (l ++ [x]).filterMap f = l.filterMap f ++ (f x).toList := by
  rw [List.filterMap_append, List.filterMap_cons]
  cases f x with
  | none => rfl
  | some y => rfl

end Snoc

namespace Engine

def run : List Operation → Engine → Checked Engine
  | [], e => return e
  | op :: ops, e => do run ops (← e.perform op).1

/-- A new engine on timers that nothing has been armed with. -/
def Initial (e : Engine) : Prop :=
  ∃ settings table clock refusal,
    (create settings table clock ⟨[], refusal⟩).run = .ok (.ok e)

variable {e e' e₀ : Engine} {op : Operation} {ops : List Operation}

theorem run_append (as bs : List Operation) (e : Engine) :
    run (as ++ bs) e = run as e >>= run bs := by
  induction as generalizing e with
  | nil => rfl
  | cons op as ih =>
    simp only [List.cons_append, run]
    cases e.perform op with
    | error f => rfl
    | ok r => simp only [ok_bind, ih]

structure Step where
  before : Engine
  op : Operation
  reply : Except EngineError Reply
  after : Engine

def Step.woken? (x : Step) : Option Case :=
  match x.reply with
  | .ok _ => x.before.wakes? x.op
  | .error _ => none

def Step.wakes (x : Step) (id : CaseId) : Bool := x.woken?.any (·.id = id)

theorem Step.wakes_eq_false {x : Step} {id : CaseId} (h : ∀ c ∈ x.woken?, c.id ≠ id) :
    x.wakes id = false := by
  rw [wakes, Option.any_eq_false]
  exact fun c hc => decide_eq_false (h c hc)

theorem Step.wakes_eq_true {x : Step} {id : CaseId} {c : Case} (h : x.woken? = some c)
    (hid : c.id = id) : x.wakes id = true := by
  rw [wakes, h]
  exact decide_eq_true hid

inductive Runs (e₀ : Engine) : List Step → Engine → Prop
  | nil : Runs e₀ [] e₀
  | snoc {l : List Step} {e e' : Engine} {reply : Except EngineError Reply} (h : Runs e₀ l e)
      (op : Operation) (hp : e.perform op = .ok (e', reply)) :
      Runs e₀ (l ++ [⟨e, op, reply, e'⟩]) e'

def startsOf (l : List Step) : List CaseId := startedIds (l.map Step.op)

/-- What the registry, the log and the timers have to do with the ids that cases were started
under. -/
structure Registry (ids : List CaseId) (e : Engine) : Prop where
  nodup : (e.cases.map Case.id).Nodup
  known : ∀ c ∈ e.cases, c.id ∈ ids
  told : ∀ cmd ∈ e.commands, cmd.caseId ∈ ids
  armed : ∀ q ∈ e.timers.armed, q.id ∈ ids
  listening : e.listening = true

theorem initial_cases (h : Initial e) :
    e.settings.validate.run = .ok (.ok ()) ∧ e.timers.entries = [] ∧ e.cases = [] ∧
      e.commands = [] ∧ e.listening = true := by
  obtain ⟨settings, table, clock, refusal, h⟩ := h
  obtain ⟨r, hv, h⟩ := bind_eq_ok.1 h
  cases r with
  | error err => cases h
  | ok u =>
    cases h
    exact ⟨hv, rfl, rfl, rfl, rfl⟩

theorem registry_of_initial (h : Initial e) : Registry [] e := by
  obtain ⟨-, hentries, hcases, hcommands, hl⟩ := initial_cases h
  exact ⟨by simp [hcases], by simp [hcases], by simp [hcommands],
    by simp [TimerBook.armed, hentries], hl⟩

theorem Registry.step {ids : List CaseId} {started : Option CaseId} (hr : Registry ids e)
    (hnew : ∀ id ∈ started, id ∉ ids) (h : Effect e started e') :
    Registry (ids ++ started.toList) e' := by
  have weaken : ∀ {id}, id ∈ ids → id ∈ ids ++ started.toList := List.mem_append_left _
  cases h with
  | idle clock refusal hn =>
    exact ⟨hr.nodup, fun c hc => weaken (hr.known c hc), fun cmd hc => weaken (hr.told cmd hc),
      fun q hq => weaken (hr.armed q hq), hr.listening⟩
  | @moved c c₁ now target e₁ before after elapsed hcs hne ho hm ht =>
    have hids : (before ++ { c₁ with elapsed } :: after).map Case.id = e.cases.map Case.id := by
      simp only [hcs, List.map_append, List.map_cons, hm.id_eq]
    have hc : c.id ∈ ids := hr.known c (by simp [hcs])
    obtain ⟨cs, hcmds, hown⟩ := hm.commands_eq hr.listening
    refine ⟨hids ▸ hr.nodup, fun d hd => ?_, fun cmd hcmd => ?_, fun q hq => ?_,
      hm.listening_eq ▸ hr.listening⟩
    · have : d.id ∈ e.cases.map Case.id := hids ▸ List.mem_map_of_mem hd
      obtain ⟨d', hd', hid⟩ := List.mem_map.1 this
      exact weaken (hid ▸ hr.known d' hd')
    · rcases List.mem_append.1 (hcmds ▸ hcmd : cmd ∈ e.commands ++ cs) with h | h
      · exact weaken (hr.told cmd h)
      · exact weaken (hown cmd h ▸ hc)
    · rcases hm.mem_armed hq with h | h
      · exact weaken (hr.armed q h)
      · exact weaken (h ▸ hc)
  | @admitted id reason now e₁ c hs hm =>
    subst hs
    have hid : c.id = id := hm.id_eq
    have hmem : c.id ∈ ids ++ [id] := hid ▸ List.mem_append_right _ (List.mem_singleton_self _)
    obtain ⟨cs, hcs, hown⟩ := hm.commands_eq hr.listening
    refine ⟨?_, fun d hd => ?_, fun cmd hcmd => ?_, fun q hq => ?_,
      hm.listening_eq ▸ hr.listening⟩
    · rw [List.map_append, hm.cases_eq, List.map_singleton, List.nodup_append]
      refine ⟨hr.nodup, List.nodup_singleton _, fun i hi j hj hij => ?_⟩
      obtain ⟨d, hd, rfl⟩ := List.mem_map.1 hi
      rw [List.mem_singleton.1 hj, hid] at hij
      exact hnew id rfl (hij ▸ hr.known d hd)
    · rw [hm.cases_eq] at hd
      rcases List.mem_append.1 hd with h | h
      · exact weaken (hr.known d h)
      · exact List.mem_singleton.1 h ▸ hmem
    · rcases List.mem_append.1 (hcs ▸ hcmd : cmd ∈ e.commands ++ cs) with h | h
      · exact weaken (hr.told cmd h)
      · rw [show cmd.caseId = id from hown cmd h]
        exact hid ▸ hmem
    · rcases hm.mem_armed hq with h | h
      · exact weaken (hr.armed q h)
      · rw [show q.id = id from h]
        exact hid ▸ hmem
  | evicted hk =>
    exact ⟨hr.nodup.sublist (List.filter_sublist.map _),
      fun c hc => weaken (hr.known c (List.mem_of_mem_filter hc)),
      fun cmd hc => weaken (hr.told cmd hc), fun q hq => weaken (hr.armed q hq), hr.listening⟩

theorem startsOf_snoc (l : List Step) (x : Step) :
    startsOf (l ++ [x]) = startsOf l ++ x.op.started?.toList := by
  rw [startsOf, List.map_append, List.map_singleton, startedIds, filterMap_snoc]
  rfl

theorem Runs.run_eq {l : List Step} (h : Runs e₀ l e) : run (l.map Step.op) e₀ = .ok e := by
  induction h with
  | nil => rfl
  | snoc h op hp ih =>
    rw [List.map_append, run_append, ih, ok_bind]
    exact bind_eq_ok.2 ⟨_, hp, rfl⟩

theorem Runs.performed {l : List Step} {x : Step} (h : Runs e₀ l e) (hx : x ∈ l) :
    x.before.perform x.op = .ok (x.after, x.reply) := by
  induction h with
  | nil => cases hx
  | snoc h op hp ih =>
    rcases List.mem_append.1 hx with hx | hx
    · exact ih hx
    · exact List.mem_singleton.1 hx ▸ hp

theorem runs_of_run (h : run ops e₀ = .ok e) : ∃ l, l.map Step.op = ops ∧ Runs e₀ l e := by
  induction ops using List.reverseRecOn generalizing e with
  | nil =>
    cases h
    exact ⟨[], rfl, .nil⟩
  | append_singleton ops op ih =>
    rw [run_append] at h
    obtain ⟨e₁, h₁, h⟩ := bind_eq_ok.1 h
    obtain ⟨⟨e₂, r⟩, h₂, h⟩ := bind_eq_ok.1 h
    cases h
    obtain ⟨l, rfl, hl⟩ := ih h₁
    exact ⟨_, List.map_append, hl.snoc op h₂⟩

/-- What is kept by every step of a run from registered cases on holds after the run. No id is used
twice. -/
theorem Runs.invariant {P : List Step → Engine → Prop} {ids : List CaseId} {l : List Step}
    (hr : Registry ids e₀) (hp : P [] e₀)
    (step : ∀ {l e op r e'}, Runs e₀ (l ++ [⟨e, op, r, e'⟩]) e' → Registry (ids ++ startsOf l) e →
      (∀ id ∈ op.started?, id ∉ ids ++ startsOf l) → P l e → Performed e op r e' →
        P (l ++ [⟨e, op, r, e'⟩]) e')
    (hids : (ids ++ startsOf l).Nodup) (h : Runs e₀ l e) :
    Registry (ids ++ startsOf l) e ∧ P l e := by
  induction h with
  | nil => exact ⟨(List.append_nil ids).symm ▸ hr, hp⟩
  | @snoc l e e' r h op hop ih =>
    rw [startsOf_snoc, ← List.append_assoc] at hids ⊢
    obtain ⟨hreg, hp⟩ := ih (List.nodup_append.1 hids).1
    have hnew : ∀ id ∈ op.started?, id ∉ ids ++ startsOf l := by
      intro id hid hmem
      exact (List.nodup_append.1 hids).2.2 id hmem id (Option.mem_toList.2 hid) rfl
    have hdone := performed_of_perform hreg.nodup hop
    exact ⟨hreg.step hnew hdone.effect, step (h.snoc op hop) hreg hnew hp hdone⟩

theorem registry_of_runs {l : List Step} (h₀ : Initial e₀) (hids : (startsOf l).Nodup)
    (h : Runs e₀ l e) : Registry (startsOf l) e :=
  (h.invariant (P := fun _ _ => True) (registry_of_initial h₀) trivial
    (fun _ _ _ _ _ => trivial) hids).1

/-- What holds of new engines, and is kept by all that an operation can do, holds after every run.
No id is used twice. -/
theorem run_invariant {P : List CaseId → Engine → Prop} (h₀ : Initial e₀) (hp : P [] e₀)
    (step : ∀ {ids e started e'}, Registry ids e → (∀ id ∈ started, id ∉ ids) → P ids e →
      Effect e started e' → P (ids ++ started.toList) e')
    (hids : (startedIds ops).Nodup) (h : run ops e₀ = .ok e) :
    Registry (startedIds ops) e ∧ P (startedIds ops) e := by
  obtain ⟨l, rfl, hl⟩ := runs_of_run h
  refine hl.invariant (P := fun l e => P (startsOf l) e) (registry_of_initial h₀) hp ?_ hids
  intro l e op r e' _ hreg hnew hp hdone
  rw [startsOf_snoc]
  exact step hreg hnew hp hdone.effect

def standard : Engine where
  settings := .standard
  table := .notificationAction
  clock := ⟨⟨1792404000, 0⟩, none⟩
  timers := .empty
  cases := []
  lastSeq := 0
  commands := []
  listening := true

theorem initial_standard : Initial standard :=
  ⟨.standard, .notificationAction, ⟨⟨1792404000, 0⟩, none⟩, none, rfl⟩

def sample : List Operation :=
  [.start ⟨1⟩ "UNREADABLE_DOCUMENT" ⟨1792404000, 0⟩, .setRefusal (some "full"),
    .start ⟨2⟩ "UNREADABLE_DOCUMENT" ⟨1792404000, 0⟩, .setRefusal none,
    .start ⟨3⟩ "INVALID_BAD_DATA" ⟨1792404000, 0⟩, .respond ⟨3⟩ ⟨1792405000, 0⟩,
    .setClock ⟨1792407600, 0⟩, .timerFired ⟨1⟩ 1]

def waiting : Engine :=
  { standard with
    timers := ⟨[(⟨⟨1⟩, 1, ⟨1792407600, 0⟩⟩, false)], none⟩
    lastSeq := 1
    commands := [.notify ⟨1⟩ "UNREADABLE_DOCUMENT" .initial .sendNow (some .initialAlert)
      ⟨1792404000, 0⟩]
    cases := [{ Case.fresh ⟨1⟩ "UNREADABLE_DOCUMENT" ⟨1792404000, 0⟩ with
      firstSent := some ⟨1792404000, 0⟩
      lastSent := some ⟨1792404000, 0⟩
      wake := some ⟨.nextStage, ⟨1792407600, 0⟩, 1, 0⟩ }] }

def reminded : Engine :=
  { waiting with
    clock := ⟨⟨1792407600, 0⟩, none⟩
    timers := ⟨[(⟨⟨1⟩, 1, ⟨1792407600, 0⟩⟩, true), (⟨⟨1⟩, 2, ⟨1792418400, 0⟩⟩, false)], none⟩
    lastSeq := 2
    commands := waiting.commands ++
      [.notify ⟨1⟩ "UNREADABLE_DOCUMENT" .followUp1 .sendNow (some .followUp1) ⟨1792407600, 0⟩]
    cases := [{ Case.fresh ⟨1⟩ "UNREADABLE_DOCUMENT" ⟨1792404000, 0⟩ with
      stage := .followUp1
      firstSent := some ⟨1792404000, 0⟩
      lastSent := some ⟨1792407600, 0⟩
      elapsed := .ofHours 1
      wake := some ⟨.nextStage, ⟨1792418400, 0⟩, 2, 1⟩
      history := [.initial, .followUp1] }] }

def toReminded : List Step :=
  [⟨standard, .start ⟨1⟩ "UNREADABLE_DOCUMENT" ⟨1792404000, 0⟩, .ok (.started ⟨1⟩), waiting⟩,
    ⟨waiting, .setClock ⟨1792407600, 0⟩, .ok .done, waiting.setClock ⟨1792407600, 0⟩⟩,
    ⟨waiting.setClock ⟨1792407600, 0⟩, .timerFired ⟨1⟩ 1, .ok .done, reminded⟩]

theorem runs_toReminded : Runs standard toReminded reminded := by
  have hstart : Runs standard (toReminded.take 1) waiting := .snoc (l := []) .nil _ rfl
  have hclock : Runs standard (toReminded.take 2) (waiting.setClock ⟨1792407600, 0⟩) :=
    .snoc (l := toReminded.take 1) hstart _ rfl
  exact .snoc (l := toReminded.take 2) hclock _ rfl

end Engine

end Followup
