import Followup.Engine.Bridge
import Followup.Proofs.Engine.Resolution

/-! What is told of the end of an escalation. Each case that is resolved is told to have ended, once
and as it has, and nothing is told of it after that. -/

namespace Followup

variable {id : CaseId} {stage? : Option Stage} {cs : List Command} {cmd : Command}

def Command.ending? : Command → Option Ending
  | .notify .. => none
  | .resolved id outcome diagnostic _ => some ⟨id, outcome, diagnostic⟩

def Case.ending? (c : Case) : Option Ending :=
  c.resolution.map fun r => ⟨c.id, r.outcome, r.diagnostic⟩

theorem Command.id_of_ending? {ending : Ending} (h : cmd.ending? = some ending) :
    ending.id = cmd.caseId := by
  cases cmd with
  | notify => cases h
  | resolved =>
    cases h
    rfl

theorem filter_endings (cs : List Command) (id : CaseId) :
    (cs.filterMap Command.ending?).filter (·.id = id) =
      (cs.filter (·.caseId = id)).filterMap Command.ending? := by
  rw [List.filter_filterMap, List.filterMap_filter]
  refine List.filterMap_congr fun cmd _ => ?_
  cases cmd with
  | notify => simp [Command.ending?]
  | resolved other outcome diagnostic at' =>
    by_cases hid : other = id
    · simp [Command.ending?, Command.caseId, hid]
    · simp [Command.ending?, Command.caseId, hid]

theorem Blocks.ending_eq_none (h : Blocks id stage? cs) (hcmd : cmd ∈ cs) : cmd.ending? = none := by
  obtain ⟨_, _, _, _, _, rfl, -⟩ := h.notice hcmd
  rfl

theorem Blocks.pairwise (h : Blocks id stage? cs) : cs.Pairwise fun cmd _ => cmd.ending? = none := by
  induction h with
  | nil => exact .nil
  | deferred h reason kind at' ih => exact pairwise_snoc.2 ⟨ih, fun cmd => h.ending_eq_none⟩
  | sent h reason kind at' ih => exact pairwise_snoc.2 ⟨ih, fun cmd => h.ending_eq_none⟩

theorem Account.pairwise (h : Account id cs) : cs.Pairwise fun cmd _ => cmd.ending? = none := by
  cases h with
  | ongoing h => exact h.pairwise
  | @closed stage cs h reason kind at' =>
    rw [List.append_cons]
    refine pairwise_snoc.2 ⟨pairwise_snoc.2 ⟨h.pairwise, fun cmd => h.ending_eq_none⟩, ?_⟩
    exact forall_mem_snoc.2 ⟨fun cmd => h.ending_eq_none, rfl⟩
  | ended h hd at' => exact pairwise_snoc.2 ⟨h.pairwise, fun cmd => h.ending_eq_none⟩

namespace Engine

variable {e e' e₀ : Engine} {c c' : Case} {now : Instant} {target : Option Stage} {l : List Step}
  {x : Step}

def endingsOf (e : Engine) (id : CaseId) : List Ending :=
  (e.commandsOf id).filterMap Command.ending?

theorem endings_of_notices {p : Plan} {stage : Stage} :
    (p.notices (c.enter stage) now).filterMap Command.ending? = [] := by
  cases p with
  | fail | conclude | defer | send | sendLast => rfl

theorem Moved.endingsOf_eq (h : Moved e c now target e' c') (hl : e.listening = true)
    (ho : c.resolution = none) :
    e'.endingsOf c.id = e.endingsOf c.id ++ c'.ending?.toList := by
  cases h with
  | @rearmed stage p reason wakeAt =>
    have hopen : (p.advance c stage now).resolution = none := by
      cases p <;> simpa [Plan.advance] using ho
    rw [endingsOf, commandsOf_tell (by exact hl) fun cmd => caseId_of_notices,
      List.filterMap_append, endings_of_notices, Case.ending?]
    dsimp only
    rw [hopen]
    rfl
  | @closed stage p =>
    have hid : (p.advance c stage now).id = c.id := by
      cases p <;> simp [Plan.advance]
    rw [endingsOf, commandsOf_tell (by exact hl) fun cmd => caseId_of_ending,
      List.filterMap_append, List.filterMap_append, endings_of_notices, Case.ending?]
    dsimp only [Case.ended]
    rw [hid]
    rfl
  | @ended outcome diagnostic =>
    rw [endingsOf, commandsOf_tell (by exact hl) fun cmd hcmd => by
      rw [List.mem_singleton.1 hcmd, Command.caseId], List.filterMap_append]
    rfl

/-- What has been told of the end of a case: nothing while it is open, and then how it ended. -/
structure Told (id : CaseId) (l : List Step) (e : Engine) : Prop where
  resolved : ∀ x ∈ l, x.Resolves id →
    ∃ c, x.after.get? id = some c ∧ e.endingsOf id = c.ending?.toList
  unresolved : (∀ x ∈ l, ¬ x.Resolves id) → e.endingsOf id = []

theorem Told.keep (ht : Told id l x.before) (hnot : ¬ x.Resolves id)
    (hsame : x.after.endingsOf id = x.before.endingsOf id) : Told id (l ++ [x]) x.after := by
  refine ⟨forall_mem_snoc.2 ⟨fun y hy => hsame ▸ ht.resolved y hy, fun hres => absurd hres hnot⟩,
    fun hnone => ?_⟩
  rw [hsame]
  exact ht.unresolved (forall_mem_snoc.1 hnone).1

theorem Told.settle (ht : Told id l x.before) (hnone : ∀ y ∈ l, ¬ y.Resolves id)
    (hopen : ¬ x.before.Resolved id) (hc : x.after.get? id = some c)
    (hends : x.after.endingsOf id = x.before.endingsOf id ++ c.ending?.toList) :
    Told id (l ++ [x]) x.after := by
  rw [ht.unresolved hnone, List.nil_append] at hends
  refine ⟨forall_mem_snoc.2 ⟨fun y hy hres => absurd hres (hnone y hy), fun _ => ⟨c, hc, hends⟩⟩,
    fun hnever => ?_⟩
  have hres : c.resolution = none := by
    refine Case.not_isResolved.1 fun hres => ?_
    exact (forall_mem_snoc.1 hnever).2 ⟨hopen, c, hc, hres⟩
  rw [hends, Case.ending?, hres]
  rfl

theorem endingsOf_of_file {f : CaseFile} (h : e.file id = f) :
    e.endingsOf id = f.told.filterMap Command.ending? :=
  congrArg (fun g => g.told.filterMap Command.ending?) h

theorem Told.step (hf : Finality id l x.before) (ht : Told id l x.before)
    (hl : x.before.listening = true) (hnew : ∀ id ∈ x.op.started?, id ∉ startsOf l)
    (h : Revised x id) : Told id (l ++ [x]) x.after := by
  -- Where a case moves, it was open before, and the move tells how it ended if it did.
  have settled {c c' : Case} {e₁ : Engine} {now : Instant} {target : Option Stage}
      (hm : Moved x.before c now target e₁ c') (hid : c.id = id) (ho : c.resolution = none)
      (hget : x.before.get? id = some c ∨ x.before.get? id = none ∧ id ∉ startsOf l)
      (elapsed : Span) (hc' : x.after.get? id = some { c' with elapsed })
      (htold : x.after.endingsOf id = e₁.endingsOf id) : Told id (l ++ [x]) x.after := by
    have hopen : ∀ d, x.before.get? id = some d → d.resolution = none := by
      intro d hd
      rcases hget with hget | ⟨hget, -⟩
      · exact Option.some.inj (hget.symm.trans hd) ▸ ho
      · cases hget.symm.trans hd
    have hstart : x.before.get? id = none → id ∉ startsOf l := by
      intro hnone
      rcases hget with hget | ⟨-, hstart⟩
      · cases hget.symm.trans hnone
      · exact hstart
    refine ht.settle (hf.not_resolves hopen hstart) ?_ hc' ?_
    · rintro ⟨d, hd, hres⟩
      exact Case.not_isResolved.2 (hopen d hd) hres
    · rw [htold, ← hid, hm.endingsOf_eq hl ho]
      rfl
  cases h with
  | same hw hr hs hfile =>
    refine ht.keep (fun hres => hres.1 (hres.2.of_file_eq hfile.symm)) ?_
    exact endingsOf_of_file hfile
  | @woken c c₁ c' now e₁ hw hr hid hget ho hclock hm ha hout hfile =>
    obtain ⟨⟨elapsed, rfl⟩, -⟩ := accountElapsed_cases ha
    exact settled hm hid ho (.inl hget) elapsed (get?_of_file hfile) (endingsOf_of_file hfile)
  | @resumed c c' now hw hr hop hget ho hend hfile =>
    obtain ⟨elapsed, rfl⟩ := hend
    obtain rfl := id_of_get? hget
    refine settled (Moved.resumed x.before c now) rfl ho (.inl hget) elapsed
      (get?_of_file hfile) ?_
    rw [endingsOf_of_file hfile, endingsOf, commandsOf_tell (by exact hl) fun cmd hcmd => by
      rw [List.mem_singleton.1 hcmd, Command.caseId]]
    rfl
  | @started reason now e₁ c hw hr hop hnone hm hfile =>
    have hget : x.before.get? id = none := get?_of_file hnone
    have hstart : id ∉ startsOf l := hnew id (by rw [hop]; rfl)
    exact settled hm rfl rfl (.inr ⟨hget, hstart⟩) c.elapsed (get?_of_file hfile)
      (endingsOf_of_file hfile)
  | @evicted c reply hw hr hi hget hres hfile =>
    refine ht.keep ?_ (endingsOf_of_file hfile)
    rintro ⟨-, d, hd, -⟩
    cases case_of_file hfile hd

theorem told_of_runs (h₀ : Initial e₀) (hids : (startsOf l).Nodup) (h : Runs e₀ l e)
    (id : CaseId) : Told id l e := by
  have hfile := file_of_initial h₀ id
  have hnil : Told id [] e₀ := by
    refine ⟨List.forall_mem_nil _, fun _ => ?_⟩
    rw [endingsOf_of_file hfile]
    rfl
  refine (h.invariant (P := fun l e => Finality id l e ∧ Told id l e) (registry_of_initial h₀)
    ⟨.nil hfile, hnil⟩ (fun _ hreg hnew hp hdone => ?_) hids).2.2
  have hrev := hdone.revised hreg hnew id
  exact ⟨hp.1.step hreg hnew hdone, hp.2.step hp.1 hreg.listening hnew hrev⟩

theorem commands_pairwise (h₀ : Initial e₀) (hids : (startsOf l).Nodup) (h : Runs e₀ l e) :
    e.commands.Pairwise fun cmd later => ∀ ending, cmd.ending? = some ending →
      later.caseId ≠ ending.id := by
  have haccounted : e.Accounted := by
    refine (h.invariant (P := fun _ => Accounted) (registry_of_initial h₀)
      (accounted_of_initial h₀) (fun _ hreg hnew ha hdone => ?_) hids).2
    exact ha.step hreg hnew hdone.effect
  have hown (id : CaseId) : e.commands.Pairwise fun cmd later =>
      decide (cmd.caseId = id) → decide (later.caseId = id) → cmd.ending? = none :=
    List.pairwise_filter.1 (haccounted.account id).pairwise
  refine List.pairwise_iff_getElem.2 fun i j hi hj hij ending hend hid => ?_
  have hcmd := Command.id_of_ending? hend
  have hnone := List.pairwise_iff_getElem.1 (hown ending.id) i j hi hj hij
    (decide_eq_true hcmd.symm) (decide_eq_true hid)
  cases hnone.symm.trans hend

end Engine

end Followup
