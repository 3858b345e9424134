import Followup.Proofs.Engine.Run

/-! What is told of a case, in order: deferrals of a stage and then its notice, stage after stage
and none left out, and in the end that the escalation is over. -/

namespace Followup

variable {id : CaseId} {cs : List Command} {stage : Stage} {stage? : Option Stage}

/-- What is told before a stage is over. Each stage is deferred any number of times and then sent
once, which leads on to the next one; after the last there is none. -/
inductive Blocks (id : CaseId) : Option Stage → List Command → Prop
  | nil : Blocks id (some .initial) []
  | deferred {cs : List Command} {stage : Stage} (h : Blocks id (some stage) cs) (reason : String)
      (kind : NoticeKind) (at' : Instant) :
      Blocks id (some stage)
        (cs ++ [.notify id reason stage .scheduleNextWindow (some kind) at'])
  | sent {cs : List Command} {stage : Stage} (h : Blocks id (some stage) cs) (reason : String)
      (kind : NoticeKind) (at' : Instant) :
      Blocks id stage.next? (cs ++ [.notify id reason stage .sendNow (some kind) at'])

/-- All that is told of a case. -/
inductive Account (id : CaseId) : List Command → Prop
  | ongoing {stage? : Option Stage} {cs : List Command} (h : Blocks id stage? cs) : Account id cs
  | closed {stage : Stage} {cs : List Command} (h : Blocks id (some stage) cs) (reason : String)
      (kind : Option NoticeKind) (at' : Instant) :
      Account id
        (cs ++ [.notify id reason stage .closeWorkflow kind at', .resolved id .closed none at'])
  | ended {stage? : Option Stage} {cs : List Command} (h : Blocks id stage? cs) {outcome : Outcome}
      {diagnostic : Option String} (hd : outcome = .closed ↔ diagnostic.isSome) (at' : Instant) :
      Account id (cs ++ [.resolved id outcome diagnostic at'])

theorem Blocks.notice (h : Blocks id stage? cs) {cmd : Command} (hcmd : cmd ∈ cs) :
    ∃ reason stage action kind at', cmd = .notify id reason stage action (some kind) at' ∧
      action ≠ .closeWorkflow := by
  induction h with
  | nil => cases hcmd
  | deferred h reason kind at' ih =>
    rcases List.mem_append.1 hcmd with hcmd | hcmd
    · exact ih hcmd
    · exact ⟨_, _, _, _, _, List.mem_singleton.1 hcmd, by decide⟩
  | sent h reason kind at' ih =>
    rcases List.mem_append.1 hcmd with hcmd | hcmd
    · exact ih hcmd
    · exact ⟨_, _, _, _, _, List.mem_singleton.1 hcmd, by decide⟩

theorem Account.kind_of_mem (h : Account id cs) {reason : String} {action : Action}
    {kind : Option NoticeKind} {at' : Instant}
    (hcmd : .notify id reason stage action kind at' ∈ cs) (ha : action ≠ .closeWorkflow) :
    kind.isSome := by
  have some_of : ∀ {stage?} {cs : List Command}, Blocks id stage? cs →
      .notify id reason stage action kind at' ∈ cs → kind.isSome := by
    intro stage? cs hb hmem
    obtain ⟨_, _, _, _, _, heq, -⟩ := hb.notice hmem
    cases heq
    rfl
  cases h with
  | ongoing hb => exact some_of hb hcmd
  | closed hb =>
    rcases List.mem_append.1 hcmd with hcmd | hcmd
    · exact some_of hb hcmd
    · simp only [List.mem_cons, Command.notify.injEq, ha, false_and, and_false, reduceCtorEq,
        List.not_mem_nil, or_self] at hcmd
  | ended hb =>
    rcases List.mem_append.1 hcmd with hcmd | hcmd
    · exact some_of hb hcmd
    · cases List.mem_singleton.1 hcmd

theorem Account.closing_iff {outcome : Outcome} {diagnostic : Option String} {at' : Instant}
    (h : Account id (cs ++ [.resolved id outcome diagnostic at'])) :
    (outcome = .closed ∧ diagnostic = none) ↔ ∃ reason stage kind t,
      cs.getLast? = some (.notify id reason stage .closeWorkflow kind t) := by
  have open_of : ∀ {stage?} {cs : List Command}, Blocks id stage? cs → ∀ reason stage kind t,
      cs.getLast? ≠ some (.notify id reason stage .closeWorkflow kind t) := by
    intro stage? cs hb reason stage kind t hlast
    obtain ⟨_, _, _, _, _, heq, hne⟩ := hb.notice (List.mem_of_getLast? hlast)
    cases heq
    exact hne rfl
  generalize hall : cs ++ [.resolved id outcome diagnostic at'] = all at h
  cases h with
  | ongoing hb =>
    obtain ⟨_, _, _, _, _, heq, -⟩ := hb.notice (hall ▸ List.mem_append_right cs
      (List.mem_singleton_self _))
    cases heq
  | @closed stage cs' hb reason kind t =>
    obtain ⟨rfl, hlast⟩ := List.append_inj' (hall.trans (List.append_cons cs' ..)) rfl
    cases hlast
    exact iff_of_true ⟨rfl, rfl⟩ ⟨_, _, _, _, List.getLast?_concat⟩
  | ended hb hd t =>
    obtain ⟨rfl, hlast⟩ := List.append_inj' hall rfl
    cases hlast
    refine iff_of_false ?_ fun ⟨_, _, _, _, hlast⟩ => open_of hb _ _ _ _ hlast
    rintro ⟨rfl, rfl⟩
    exact absurd (hd.1 rfl) (by simp)

namespace Engine

variable {e e' e₀ : Engine} {c c' : Case} {now : Instant} {target : Option Stage}
  {ops : List Operation}

def commandsOf (e : Engine) (id : CaseId) : List Command := e.commands.filter (·.caseId = id)

theorem commandsOf_tell {ds : List Command} (hl : e.listening = true)
    (hds : ∀ cmd ∈ ds, cmd.caseId = id) : (e.tell ds).commandsOf id = e.commandsOf id ++ ds := by
  have hall : ds.filter (·.caseId = id) = ds := List.filter_eq_self.2 (by simpa using hds)
  simp only [commandsOf, tell, hl, if_true, List.filter_append, hall]

theorem commandsOf_other {ds : List Command} (h : e'.commands = e.commands ++ ds)
    (hds : ∀ cmd ∈ ds, cmd.caseId ≠ id) : e'.commandsOf id = e.commandsOf id := by
  have hnone : ds.filter (·.caseId = id) = [] := List.filter_eq_nil_iff.2 (by simpa using hds)
  rw [commandsOf, h, List.filter_append, hnone, List.append_nil, commandsOf]

theorem stage_enter (h : wakeTarget c = some stage) : (c.enter stage).stage = stage := by
  have ahead (hs : c.stage.next? = some stage) : (c.enter stage).stage = stage := by
    have hlt : c.stage.index < stage.index := by
      rw [Stage.index_next hs]
      exact Nat.lt_succ_self _
    simp only [Case.enter, hlt, if_true]
  simp only [wakeTarget] at h
  split at h
  · cases h
    simp only [Case.enter, Nat.lt_irrefl, if_false]
  · exact ahead h
  · exact ahead h

def Expects (c : Case) (cs : List Command) : Prop :=
  ∃ stage, wakeTarget c = some stage ∧ Blocks c.id (some stage) cs

theorem Expects.account {cs : List Command} (h : Expects c cs) : Account c.id cs := by
  obtain ⟨stage, -, hb⟩ := h
  exact .ongoing hb

theorem expects_of_plan {stage : Stage} {p : Plan} {cs : List Command} {reason : WakeReason}
    {wakeAt : Instant} (hp : e.plan c stage now = .ok p) (hs : (c.enter stage).stage = stage)
    (hw : p.wake? = some (reason, wakeAt)) (hb : Blocks c.id (some stage) cs) (seq handle : Nat) :
    Expects { p.advance c stage now with wake := some ⟨reason, wakeAt, seq, handle⟩ }
      (cs ++ p.notices (c.enter stage) now) := by
  have hg := grounds_of_plan hp
  cases p with
  | defer kind at' =>
    cases hw
    obtain ⟨kind, rfl⟩ := Option.isSome_iff_exists.1 hg.1
    have hb' := hb.deferred c.reason kind now
    refine ⟨stage, by simp [wakeTarget, Plan.advance, hs], ?_⟩
    simpa only [Plan.advance, Plan.notices, Case.enter_id, Case.enter_reason, hs] using hb'
  | send kind at' =>
    cases hw
    obtain ⟨kind, rfl⟩ := Option.isSome_iff_exists.1 hg.1
    obtain ⟨next, hnext⟩ := Option.isSome_iff_exists.1 (next?_of_nextStageAt hg.2.2)
    have hb' := hb.sent c.reason kind now
    rw [hnext] at hb'
    refine ⟨next, by simp [wakeTarget, Plan.advance, hs, hnext], ?_⟩
    simpa only [Plan.advance, Plan.notices, Case.enter_id, Case.enter_reason, hs] using hb'
  | fail | conclude | sendLast => cases hw

theorem account_of_plan {stage : Stage} {p : Plan} {cs : List Command}
    (hp : e.plan c stage now = .ok p) (hs : (c.enter stage).stage = stage) (hw : p.wake? = none)
    (hb : Blocks c.id (some stage) cs) :
    Account c.id (cs ++ (p.notices (c.enter stage) now ++
      [.resolved c.id .closed (p.diagnostic stage) now])) := by
  have hg := grounds_of_plan hp
  cases p with
  | fail diagnostic => exact .ended hb (by simp [Plan.diagnostic]) now
  | conclude kind =>
    simp only [Plan.notices, Case.enter_id, Case.enter_reason, hs]
    exact .closed hb c.reason kind now
  | sendLast kind =>
    obtain ⟨kind, rfl⟩ := Option.isSome_iff_exists.1 hg.1
    simp only [Plan.notices, Case.enter_id, Case.enter_reason, hs, ← List.append_assoc]
    exact .ended (hb.sent c.reason kind now) (by simp [Plan.diagnostic]) now
  | defer | send => cases hw

theorem Moved.account (h : Moved e c now target e' c') (hl : e.listening = true)
    {stage : Stage} (hb : Blocks c.id (some stage) (e.commandsOf c.id))
    (ht : ∀ s, target = some s → s = stage ∧ (c.enter s).stage = s) :
    Account c.id (e'.commandsOf c.id) ∧
      (c'.resolution = none → Expects c' (e'.commandsOf c.id)) := by
  have hid := h.id_eq
  cases h with
  | @rearmed s p reason wakeAt hp hw =>
    obtain ⟨rfl, hs⟩ := ht s rfl
    have hx := expects_of_plan hp hs hw hb (e.lastSeq + 1) e.timers.entries.length
    rw [commandsOf_tell (by exact hl) fun cmd => caseId_of_notices]
    exact ⟨hid ▸ hx.account, fun _ => hx⟩
  | @closed s p hp hw =>
    obtain ⟨rfl, hs⟩ := ht s rfl
    refine ⟨?_, fun h => by cases h⟩
    rw [commandsOf_tell (by exact hl) fun cmd => caseId_of_ending]
    exact account_of_plan hp hs hw hb
  | @ended outcome diagnostic hd =>
    refine ⟨?_, fun h => by cases h⟩
    rw [commandsOf_tell (by exact hl) fun cmd hcmd => by
      rw [List.mem_singleton.1 hcmd, Command.caseId]]
    exact .ended hb hd now

theorem Moved.commandsOf_ne (h : Moved e c now target e' c') (hl : e.listening = true)
    (hid : id ≠ c.id) : e'.commandsOf id = e.commandsOf id := by
  obtain ⟨ds, hds, hown⟩ := h.commands_eq hl
  exact commandsOf_other hds fun cmd hcmd => hown cmd hcmd ▸ hid.symm

/-- Every case is accounted for, and the open ones are where their accounts leave off. -/
structure Accounted (e : Engine) : Prop where
  account : ∀ id, Account id (e.commandsOf id)
  expects : ∀ c ∈ e.cases, c.resolution = none → Expects c (e.commandsOf c.id)

theorem Accounted.step {ids : List CaseId} {started : Option CaseId} (hr : Registry ids e)
    (hnew : ∀ id ∈ started, id ∉ ids) (ha : e.Accounted) (h : Effect e started e') :
    e'.Accounted := by
  cases h with
  | idle => exact ⟨ha.account, ha.expects⟩
  | @moved c c₁ now target e₁ before after elapsed hcs hne ho hm ht =>
    obtain ⟨stage, hstage, hb⟩ := ha.expects c (by simp [hcs]) ho
    have hown := hm.account hr.listening hb fun s hs => by
      have := ht s hs
      exact ⟨Option.some.inj (this.symm.trans hstage), stage_enter this⟩
    refine ⟨fun id => ?_, fun d hd hd' => ?_⟩
    · by_cases hid : id = c.id
      · exact hid ▸ hown.1
      · exact (hm.commandsOf_ne hr.listening hid) ▸ ha.account id
    · rcases List.mem_cons.1 (List.perm_middle.mem_iff.1 hd) with rfl | hd
      · change Expects c₁ (e₁.commandsOf c₁.id)
        exact hm.id_eq ▸ hown.2 hd'
      · have hmem : d ∈ e.cases := hcs ▸ List.perm_middle.mem_iff.2 (List.mem_cons_of_mem _ hd)
        exact (hm.commandsOf_ne hr.listening (hne d hd)) ▸ ha.expects d hmem hd'
  | @admitted id reason now e₁ c hs hm =>
    -- Nothing has been told of an id that no case was started under.
    have hnone : e.commandsOf id = [] := List.filter_eq_nil_iff.2 fun cmd hcmd heq =>
      hnew id hs (of_decide_eq_true heq ▸ hr.told cmd hcmd)
    have hb : Blocks id (some .initial) (e.commandsOf id) := hnone ▸ .nil
    have hown := hm.account hr.listening hb fun s hs =>
      ⟨(Option.some.inj hs).symm, Option.some.inj hs ▸ rfl⟩
    refine ⟨fun other => ?_, fun d hd hd' => ?_⟩
    · by_cases hid : other = id
      · exact hid ▸ hown.1
      · exact (hm.commandsOf_ne hr.listening hid) ▸ ha.account other
    · rw [hm.cases_eq] at hd
      rcases List.mem_append.1 hd with hd | hd
      · have hid : d.id ≠ id := fun hid => hnew id hs (hid ▸ hr.known d hd)
        exact (hm.commandsOf_ne hr.listening hid) ▸ ha.expects d hd hd'
      · obtain rfl := List.mem_singleton.1 hd
        change Expects d (e₁.commandsOf d.id)
        exact hm.id_eq ▸ hown.2 hd'
  | evicted => exact ⟨ha.account, fun c hc => ha.expects c (List.mem_of_mem_filter hc)⟩

theorem accounted_of_initial (h : Initial e) : e.Accounted := by
  obtain ⟨-, -, hcases, hcommands, -⟩ := initial_cases h
  refine ⟨fun id => ?_, by simp [hcases]⟩
  rw [commandsOf, hcommands]
  exact .ongoing .nil

/-- After every run, each id has been told of in the order that an account has: its end comes last,
after a closing notice just if it was closed and nothing went wrong, and all notices but the
closing one are of some kind. -/
theorem account_of_run (h₀ : Initial e₀) (hids : (startedIds ops).Nodup) (h : run ops e₀ = .ok e)
    (id : CaseId) :
    Account id (e.commandsOf id) ∧
    (∀ cs outcome diagnostic at',
      e.commandsOf id = cs ++ [.resolved id outcome diagnostic at'] →
        ((outcome = .closed ∧ diagnostic = none) ↔ ∃ reason stage kind t,
          cs.getLast? = some (.notify id reason stage .closeWorkflow kind t))) ∧
    (∀ reason stage action kind at', .notify id reason stage action kind at' ∈ e.commands →
      action ≠ .closeWorkflow → kind.isSome) := by
  obtain ⟨-, ha⟩ := run_invariant (P := fun _ => Accounted) h₀ (accounted_of_initial h₀)
    (fun hr hnew ha he => ha.step hr hnew he) hids h
  have hid := ha.account id
  refine ⟨hid, fun cs outcome diagnostic at' hcs => ?_, fun _ _ _ _ _ hmem hne => ?_⟩
  · rw [hcs] at hid
    exact hid.closing_iff
  · exact hid.kind_of_mem (List.mem_filter.2 ⟨hmem, by simp [Command.caseId]⟩) hne

theorem account_of_sample :
    Initial standard ∧ (startedIds sample).Nodup ∧
      ∃ e, run sample standard = .ok e ∧ (e.commandsOf ⟨3⟩).length = 2 ∧
        Account ⟨3⟩ (e.commandsOf ⟨3⟩) :=
  have hids : (startedIds sample).Nodup := by decide
  ⟨initial_standard, hids, _, rfl, rfl, (account_of_run initial_standard hids rfl ⟨3⟩).1⟩

end Engine

end Followup
