import Followup.Proofs.Engine.CaseFile

/-! The end of an escalation. Whoever comes first, a response or a firing, ends it, and what the
engine has on the case then stays as it is until the case is evicted. -/

namespace Followup

namespace CaseFile

/-- What a file may become once its case is resolved. -/
def Retained (f g : CaseFile) : Prop := g = f ∨ g = f.withoutCase

theorem Retained.refl (f : CaseFile) : f.Retained f := .inl rfl

theorem Retained.case_eq {f g : CaseFile} {c d : Case} (h : f.Retained g) (hf : f.case? = some c)
    (hg : g.case? = some d) : d = c := by
  rcases h with rfl | rfl
  · exact Option.some.inj (hg.symm.trans hf)
  · cases hg

end CaseFile

namespace Engine

variable {e e₀ : Engine} {id : CaseId} {l : List Step} {x : Step} {f : CaseFile}

def Resolved (e : Engine) (id : CaseId) : Prop := ∃ c, e.get? id = some c ∧ c.isResolved

def Step.Resolves (x : Step) (id : CaseId) : Prop := ¬ x.before.Resolved id ∧ x.after.Resolved id

def Step.Resumes (x : Step) (id : CaseId) : Prop :=
  (∃ now, x.op = .respond id now) ∧ x.reply = .ok (.responded true)

theorem Resolved.of_file_eq {e' : Engine} (h : e.Resolved id) (hf : e'.file id = e.file id) :
    e'.Resolved id := by
  obtain ⟨c, hc, hres⟩ := h
  exact ⟨c, (get?_of_file hf).trans hc, hres⟩

theorem Resolved.isResolved (h : e.Resolved id) {c : Case} (hc : e.get? id = some c) :
    c.isResolved := by
  obtain ⟨d, hd, hres⟩ := h
  exact Option.some.inj (hd.symm.trans hc) ▸ hres

theorem not_resolved_of_open {c : Case} (hc : e.get? id = some c) (ho : c.resolution = none) :
    ¬ e.Resolved id := fun h => Case.not_isResolved.2 ho (h.isResolved hc)

theorem Revised.retained (h : Revised x id) (hc : ∀ c, f.case? = some c → c.isResolved)
    (hnew : id ∉ x.op.started?) (hf : f.Retained (x.before.file id)) :
    f.Retained (x.after.file id) := by
  have resolved {c : Case} (hget : x.before.get? id = some c) : ¬ c.resolution = none := by
    rcases hf with hf | hf
    · exact fun ho =>
        Case.not_isResolved.2 ho (hc c (case_of_file hf hget))
    · cases case_of_file hf hget
  cases h with
  | same hw hr hs hfile => exact hfile ▸ hf
  | woken hw hr hid hget ho => exact absurd ho (resolved hget)
  | resumed hw hr hop hget ho => exact absurd ho (resolved hget)
  | started hw hr hop => exact absurd (by rw [hop]; rfl) hnew
  | evicted hw hr hi hget hres hfile =>
    rcases hf with hf | hf
    · exact .inr (hfile.trans (congrArg CaseFile.withoutCase hf))
    · cases case_of_file hf hget

theorem Revised.resumes_iff (h : Revised x id) :
    x.Resumes id ↔ x.Resolves id ∧ ∃ c, x.after.get? id = some c ∧ c.outcome? = some .resumed := by
  cases h with
  | same hw hr hs hfile =>
    refine iff_of_false (fun ⟨⟨now, hop⟩, hreply⟩ => hr hreply now hop) fun ⟨hres, _⟩ => ?_
    exact hres.1 (hres.2.of_file_eq hfile.symm)
  | @woken c c₁ c' now e₁ hw hr hid hget ho hclock hm ha hout hfile =>
    refine iff_of_false (fun ⟨_, hreply⟩ => nomatch hr.symm.trans hreply) fun ⟨_, d, hd, hd'⟩ => ?_
    obtain rfl := Option.some.inj (case_of_file hfile hd)
    exact hout hd'
  | @resumed c c' now hw hr hop hget ho hend hfile =>
    have hafter : x.after.get? id = some c' := get?_of_file hfile
    obtain ⟨elapsed, rfl⟩ := hend
    exact iff_of_true ⟨⟨now, hop⟩, hr⟩
      ⟨⟨not_resolved_of_open hget ho, _, hafter, rfl⟩, _, hafter, rfl⟩
  | @started reason now e₁ c hw hr hop hnone hm hfile =>
    refine iff_of_false (fun ⟨_, hreply⟩ => nomatch hr.symm.trans hreply) fun ⟨_, d, hd, hd'⟩ => ?_
    obtain rfl := Option.some.inj (case_of_file hfile hd)
    exact hm.outcome_ne rfl hd'
  | evicted hw hr hi hget hres hfile =>
    refine iff_of_false (fun ⟨_, hreply⟩ => ?_) fun ⟨_, d, hd, _⟩ => ?_
    · cases Except.ok.inj (hr.symm.trans hreply)
      cases hi
    cases case_of_file hfile hd

theorem Revised.resumes (h : Revised x id) {now : Instant} (hop : x.op = .respond id now)
    (hres : x.Resolves id) : x.Resumes id := by
  have hw' : x.before.wakes? x.op = none := wakes?_eq_none (by rw [hop]; rfl)
  cases h with
  | same hw hr hs hfile => exact absurd (hres.2.of_file_eq hfile.symm) hres.1
  | woken hw hr =>
    rw [Step.woken?, hr] at hw
    cases hw'.symm.trans hw
  | resumed hw hr => exact ⟨⟨now, hop⟩, hr⟩
  | started hw hr hop' => cases hop.symm.trans hop'
  | @evicted c reply hw hr hi hget hc => exact absurd ⟨c, hget, hc⟩ hres.1

theorem reply_of_respond {now : Instant} {e' : Engine} {r : Except EngineError Reply}
    (h : e.perform (.respond id now) = .ok (e', r)) :
    r = (e.snapshot id).map fun c => .responded !c.isResolved := by
  obtain ⟨⟨e₁, r₁⟩, hresp, h⟩ := bind_eq_ok.1 h
  cases h
  simp only [onExternalResponse] at hresp
  split at hresp
  · next hc =>
    cases hresp
    simp only [snapshot, hc]
    rfl
  next c hc =>
  have hsnap : e.snapshot id = .ok c := by simp only [snapshot, hc]
  rw [hsnap]
  split at hresp
  · next hres =>
    cases hresp
    exact congrArg (fun b => Except.ok (Reply.responded !b)) hres.symm
  · next hres =>
    obtain ⟨c₁, -, hresp⟩ := bind_eq_ok.1 hresp
    cases hresp
    exact congrArg (fun b => Except.ok (Reply.responded !b)) (Bool.eq_false_iff.2 hres).symm

/-- How a run has treated the end of the case of an id. -/
structure Finality (id : CaseId) (l : List Step) (e : Engine) : Prop where
  kept : ∀ x ∈ l, x.after.Resolved id → id ∈ startsOf l ∧ (x.after.file id).Retained (e.file id)
  once : l.Pairwise fun x y => ¬ (x.Resolves id ∧ y.Resolves id)
  final : l.Pairwise fun x y => x.after.Resolved id →
    (x.after.file id).Retained (y.before.file id) ∧ (x.after.file id).Retained (y.after.file id)
  resumes : ∀ x ∈ l, x.Resumes id ↔
    x.Resolves id ∧ ∃ c, x.after.get? id = some c ∧ c.outcome? = some .resumed
  outcome : ∀ c, e.get? id = some c → (c.outcome? = some .resumed ↔ ∃ x ∈ l, x.Resumes id)

theorem Revised.not_resolves (h : Revised x id) (hnew : id ∉ x.op.started?)
    (hnone : (x.before.file id).case? = none) : ¬ x.Resolves id := by
  rintro ⟨-, c, hc, -⟩
  have hret := h.retained (f := x.before.file id) (fun c hc => nomatch hnone.symm.trans hc) hnew
    (.refl _)
  rcases hret with heq | heq
  · cases case_of_file heq hc ▸ hnone
  · cases case_of_file heq hc

theorem Finality.not_resolves (hf : Finality id l e)
    (hc : ∀ c, e.get? id = some c → c.resolution = none)
    (hnew : e.get? id = none → id ∉ startsOf l) : ∀ x ∈ l, ¬ x.Resolves id := by
  intro x hx hres
  obtain ⟨hmem, hret⟩ := hf.kept x hx hres.2
  rcases hret with heq | heq
  · obtain ⟨c, hget, -⟩ := hres.2.of_file_eq heq
    exact not_resolved_of_open hget (hc c hget) (hres.2.of_file_eq heq)
  · exact hnew (get?_of_file heq) hmem

theorem Finality.not_resumed (hf : Finality id l e)
    (hc : ∀ c, e.get? id = some c → c.resolution = none)
    (hnew : e.get? id = none → id ∉ startsOf l) : ¬ ∃ x ∈ l, x.Resumes id := by
  rintro ⟨x, hx, hres⟩
  exact hf.not_resolves hc hnew x hx ((hf.resumes x hx).1 hres).1

theorem Finality.outcome_step (hf : Finality id l x.before)
    (hnew : ∀ id ∈ x.op.started?, id ∉ startsOf l) (h : Revised x id) {c : Case}
    (hc : x.after.get? id = some c) :
    c.outcome? = some .resumed ↔ ∃ y ∈ l ++ [x], y.Resumes id := by
  rw [exists_mem_snoc]
  cases h with
  | same hw hr hs hfile =>
    have hbefore : x.before.get? id = some c := case_of_file hfile hc
    have hnot : ¬ x.Resumes id := by
      rintro ⟨⟨now, hop⟩, hreply⟩
      exact hr hreply now hop
    rw [hf.outcome c hbefore, or_iff_left hnot]
  | @woken c₀ c₁ c' now e₁ hw hr hid hget ho hclock hm ha hout hfile =>
    obtain rfl := Option.some.inj (case_of_file hfile hc)
    have hnone : ¬ ∃ y ∈ l, y.Resumes id := by
      refine hf.not_resumed (fun d hd => Option.some.inj (hget.symm.trans hd) ▸ ho) fun h => ?_
      cases hget.symm.trans h
    have hnot : ¬ x.Resumes id := by
      rintro ⟨-, hreply⟩
      cases hr.symm.trans hreply
    exact iff_of_false hout (not_or_intro hnone hnot)
  | @resumed c₀ c' now hw hr hop hget ho hend hfile =>
    obtain rfl := Option.some.inj (case_of_file hfile hc)
    obtain ⟨elapsed, rfl⟩ := hend
    exact iff_of_true rfl (.inr ⟨⟨now, hop⟩, hr⟩)
  | @started reason now e₁ c' hw hr hop hnone hm hfile =>
    obtain rfl := Option.some.inj (case_of_file hfile hc)
    have hget : x.before.get? id = none := get?_of_file hnone
    have hnone' : ¬ ∃ y ∈ l, y.Resumes id := by
      refine hf.not_resumed (fun d hd => ?_) fun _ => hnew id (by rw [hop]; rfl)
      cases hget.symm.trans hd
    have hnot : ¬ x.Resumes id := by
      rintro ⟨-, hreply⟩
      cases hr.symm.trans hreply
    exact iff_of_false (hm.outcome_ne rfl) (not_or_intro hnone' hnot)
  | evicted hw hr hi hget hres hfile => cases case_of_file hfile hc

theorem Finality.step {op : Operation} {r : Except EngineError Reply} {e' : Engine}
    (hf : Finality id l e) (hreg : Registry (startsOf l) e)
    (hnew : ∀ id ∈ op.started?, id ∉ startsOf l) (h : Performed e op r e') :
    Finality id (l ++ [⟨e, op, r, e'⟩]) e' := by
  have hrev := h.revised hreg hnew id
  have hreg' := hreg.step hnew h.effect
  have hstarts := startsOf_snoc l ⟨e, op, r, e'⟩
  rw [← hstarts] at hreg'
  have hsub : id ∈ startsOf l → id ∈ startsOf (l ++ [⟨e, op, r, e'⟩]) := by
    rw [hstarts]
    exact List.mem_append_left _
  have keeps : ∀ x ∈ l, x.after.Resolved id → (x.after.file id).Retained (e'.file id) := by
    intro x hx hres
    obtain ⟨hmem, hret⟩ := hf.kept x hx hres
    exact hrev.retained (fun c => hres.isResolved) (fun hid => hnew id hid hmem) hret
  refine ⟨?_, pairwise_snoc.2 ⟨hf.once, fun x hx => ?_⟩,
    pairwise_snoc.2 ⟨hf.final, fun x hx hres => ?_⟩,
    forall_mem_snoc.2 ⟨hf.resumes, hrev.resumes_iff⟩,
    fun c => Finality.outcome_step hf hnew hrev⟩
  · refine forall_mem_snoc.2 ⟨fun x hx hres => ?_, fun hres => ⟨?_, .refl _⟩⟩
    · exact ⟨hsub (hf.kept x hx hres).1, keeps x hx hres⟩
    · obtain ⟨c, hc, -⟩ := hres
      exact id_of_get? hc ▸ hreg'.known c (List.mem_of_find?_eq_some hc)
  · -- A case that was resolved is resolved before the step or was evicted, and then stays away.
    rintro ⟨hx', hy'⟩
    obtain ⟨hmem, hret⟩ := hf.kept x hx hx'.2
    rcases hret with heq | heq
    · exact hy'.1 (hx'.2.of_file_eq heq)
    · exact hrev.not_resolves (fun hid => hnew id hid hmem) (get?_of_file heq) hy'
  · exact ⟨(hf.kept x hx hres).2, keeps x hx hres⟩

theorem Finality.nil (hfile : e.file id = .empty) : Finality id [] e := by
  refine ⟨List.forall_mem_nil _, .nil, .nil, List.forall_mem_nil _, fun c hc => ?_⟩
  cases case_of_file hfile hc

theorem finality_of_runs (h₀ : Initial e₀) (hids : (startsOf l).Nodup) (h : Runs e₀ l e)
    (id : CaseId) : Finality id l e :=
  (h.invariant (registry_of_initial h₀) (.nil (file_of_initial h₀ id))
    (fun _ hreg hnew hf hdone => hf.step hreg hnew hdone) hids).2

/-- Whatever a run does, at most one of its steps resolves the case of an id. What the engine has on
that case stays as it is from then on, but that the case may be evicted. A response is told to have
come first just if it was the step that resumed the workflow, and not to have come first when the
case was resolved before. A case has resumed just if some response was told so. -/
theorem resolution_final (h₀ : Initial e₀) (hids : (startsOf l).Nodup) (h : Runs e₀ l e)
    (id : CaseId) :
    (l.Pairwise fun x y => ¬ (x.Resolves id ∧ y.Resolves id)) ∧
    (l.Pairwise fun x y => x.after.Resolved id →
      (x.after.file id).Retained (y.after.file id)) ∧
    (∀ x ∈ l, x.Resumes id ↔
      x.Resolves id ∧ ∃ c, x.after.get? id = some c ∧ c.outcome? = some .resumed) ∧
    (l.Pairwise fun x y => x.after.Resolved id → ∀ now, y.op = .respond id now →
      y.reply = match y.before.get? id with
        | some _ => .ok (.responded false)
        | none => .error (.unknownCase id)) ∧
    (∀ c, e.get? id = some c → (c.outcome? = some .resumed ↔ ∃ x ∈ l, x.Resumes id)) := by
  have hf := finality_of_runs h₀ hids h id
  refine ⟨hf.once, hf.final.imp fun hxy hres => (hxy hres).2, hf.resumes, ?_, hf.outcome⟩
  refine hf.final.imp_of_mem fun {x y} hx hy hxy hres now hop => ?_
  have hp := h.performed hy
  rw [hop] at hp
  rw [reply_of_respond hp, snapshot]
  cases hget : y.before.get? id with
  | none => rfl
  | some c =>
    have hc : c.isResolved := by
      obtain ⟨d, hd, hd'⟩ := hres
      exact (hxy ⟨d, hd, hd'⟩).1.case_eq hd hget ▸ hd'
    exact congrArg (fun b => Except.ok (Reply.responded !b)) hc

theorem resolution_final_of_sample :
    Initial standard ∧ ∃ l e, l.map Step.op = sample ∧ (startsOf l).Nodup ∧ Runs standard l e ∧
      (∃ c, e.get? ⟨3⟩ = some c ∧ c.outcome? = some .resumed) ∧ ∃ x ∈ l, x.Resumes ⟨3⟩ := by
  obtain ⟨l, hops, hl⟩ := runs_of_run (rfl : run sample standard = .ok _)
  have hids : (startsOf l).Nodup := by
    rw [startsOf, hops]
    decide
  refine ⟨initial_standard, l, _, hops, hids, hl, ⟨_, rfl, rfl⟩, ?_⟩
  exact ((resolution_final initial_standard hids hl ⟨3⟩).2.2.2.2 _ rfl).1 rfl

end Engine

end Followup
