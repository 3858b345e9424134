import Followup.Proofs.Engine.Bystander
import Followup.Proofs.Engine.Firing

/-! Tables that give nothing to go by. They may be malformed, have no rule that holds, or put out
what names no action: the escalation that a stage was looked at for is then closed, and that is
all. -/

namespace Followup

/-- A record says what is to be done with a stage. It names an action, and a kind of notice if there
is one; an escalation alone can be closed without. -/
structure Says (output : Columns Fact) (action : Action) (kind : Option NoticeKind) : Prop where
  named : output.get? Field.action = some (.text action.name)
  noticed : output.get? Field.notificationKind = kind.map fun k => .text k.name
  sent : action ≠ .closeWorkflow → kind.isSome

def Table.Decides (t : Table) (facts : Facts) : Prop :=
  ∃ hit output action kind, t.evaluate facts = .ok hit ∧ hit.output? = some output ∧
    Says output action kind

variable {output : Columns Fact} {rule : Option Nat} {t : Table} {facts : Facts}

theorem Action.eq_name {text : String} {action : Action} (h : Action.ofName text = .ok action) :
    text = action.name := by
  unfold Action.ofName at h
  split at h <;> cases h <;> rfl

theorem NoticeKind.eq_name {text : String} {kind : NoticeKind}
    (h : NoticeKind.ofName text = .ok kind) : text = kind.name := by
  unfold NoticeKind.ofName at h
  split at h <;> cases h <;> rfl

namespace Decision

theorem get?_of_textIn {column text : String} (h : textIn output column = .ok text) :
    output.get? column = some (.text text) := by
  rw [textIn] at h
  split at h
  · next text' htext =>
    cases h
    obtain ⟨value, hvalue, htext⟩ := Option.bind_eq_some_iff.1 htext
    cases value with
    | text => cases htext; exact hvalue
    | bool | int | stamp => cases htext
  · cases h

theorem get?_of_kindIn {kind : Option NoticeKind} (h : kindIn output = .ok kind) :
    output.get? Field.notificationKind = kind.map fun k => .text k.name := by
  rw [kindIn] at h
  split at h
  · next hnone =>
    cases h
    exact hnone
  · next name hname =>
    split at h
    · next kind hkind =>
      cases h
      rw [hname, NoticeKind.eq_name hkind]
      rfl
    · cases h
  · cases h

theorem says_of_ofOutput {d : Decision} (h : ofOutput rule output = .ok d) :
    Says output d.action d.kind := by
  have hsent := Engine.kind_of_ofOutput h
  obtain ⟨name, hname, h⟩ := bind_eq_ok.1 h
  cases haction : Action.ofName name with
  | error err => simp only [haction] at h; cases h
  | ok action =>
  simp only [haction, pure_bind] at h
  obtain ⟨kind, hkind, h⟩ := bind_eq_ok.1 h
  have hd : d = ⟨action, kind, rule⟩ := by
    split at h
    · cases h
    · cases h
      rfl
  subst hd
  exact ⟨Action.eq_name haction ▸ get?_of_textIn hname, get?_of_kindIn hkind, hsent⟩

theorem ofOutput_of_says {action : Action} {kind : Option NoticeKind}
    (h : Says output action kind) : ofOutput rule output = .ok ⟨action, kind, rule⟩ := by
  have htext : textIn output Field.action = .ok action.name := by
    rw [textIn, h.named]
    rfl
  have hkind : kindIn output = .ok kind := by
    rw [kindIn, h.noticed]
    cases kind with
    | none => rfl
    | some kind => simp only [Option.map_some, NoticeKind.ofName_name]
  have hsent : ¬ (!action.isTerminal && kind.isNone) = true := by
    cases action with
    | closeWorkflow => simp [Action.isTerminal]
    | sendNow | scheduleNextWindow => simp [Option.isSome_iff_ne_none.1 (h.sent (by decide))]
  simp only [ofOutput, htext, ok_bind, Action.ofName_name, pure_bind, hkind, hsent]
  rfl

theorem output_of_decide {d : Decision} (h : decide t facts = .ok (some d)) :
    ∃ hit output rule, t.evaluate facts = .ok hit ∧ hit.output? = some output ∧
      ofOutput rule output = .ok d := by
  obtain ⟨hit, hhit, h⟩ := bind_eq_ok.1 h
  cases hit with
  | matched | catchAll =>
    dsimp only at h
    split at h
    · next hd =>
      cases h
      exact ⟨_, _, _, hhit, rfl, hd⟩
    · cases h
  | noMatch => cases h

theorem exists_decision_iff : (∃ d, decide t facts = .ok (some d)) ↔ t.Decides facts := by
  constructor
  · rintro ⟨d, h⟩
    obtain ⟨hit, output, rule, hhit, houtput, hd⟩ := output_of_decide h
    exact ⟨hit, output, d.action, d.kind, hhit, houtput, says_of_ofOutput hd⟩
  · rintro ⟨hit, output, action, kind, hhit, houtput, hsays⟩
    cases hit with
    | matched | catchAll =>
      cases houtput
      simp only [decide, hhit, ok_bind, ofOutput_of_says hsays]
      exact ⟨_, rfl⟩
    | noMatch => cases houtput

end Decision

namespace Engine

variable {e e' e₀ e₁ : Engine} {c c' : Case} {id : CaseId} {now : Instant} {stage : Stage}
  {reason diagnostic : String} {op : Operation} {r : Except EngineError Reply} {seq? : Option Nat}
  {inHours : Bool} {ids : List CaseId} {l : List Step}

theorem plan_of_undecided (hopen : e.settings.hours.isOpen now = .ok inHours)
    (hno : ¬ e.table.Decides (Decision.facts c.reason stage inHours)) :
    ∃ diagnostic, e.plan c stage now = .ok (.fail diagnostic) := by
  simp only [plan, decideStage, hopen, ok_bind]
  cases hd : Decision.decide e.table (Decision.facts c.reason stage inHours) with
  | error err => exact ⟨_, rfl⟩
  | ok d? =>
    cases d? with
    | none => exact ⟨_, rfl⟩
    | some d => exact absurd (Decision.exists_decision_iff.1 ⟨d, hd⟩) hno

theorem transition_of_fail (ho : c.resolution = none)
    (hp : e.plan c stage now = .ok (.fail diagnostic)) :
    e.transition c stage now =
      .ok (tell { e with timers := e.timers.release c.wake }
          [.resolved c.id .closed (some diagnostic) now],
        .ok ((c.enter stage).ended .closed (some diagnostic) now)) := by
  rw [transition_eq ho, hp]
  rfl

theorem Moved.of_fail (hm : Moved e c now (some stage) e' c')
    (hp : e.plan c stage now = .ok (.fail diagnostic)) :
    e' = tell { e with timers := e.timers.release c.wake }
        [.resolved c.id .closed (some diagnostic) now] ∧
      c' = (c.enter stage).ended .closed (some diagnostic) now := by
  cases hm with
  | rearmed hp' hw =>
    cases hp.symm.trans hp'
    cases hw
  | closed hp' =>
    cases hp.symm.trans hp'
    exact ⟨rfl, rfl⟩

theorem reply_of_start {r : Except EngineError CaseId} (h : e.start id reason now = .ok (e', r)) :
    r = .ok id ∨ ∃ cause, r = .error (.schedulingUnavailable cause) := by
  obtain ⟨⟨e₁, r₁⟩, htr, h⟩ := bind_eq_ok.1 h
  rcases transition_cases rfl htr with ⟨refusal, rfl, rfl⟩ | ⟨c, rfl, hm⟩
  · cases h
    exact .inr ⟨refusal, rfl⟩
  · cases h
    exact .inl rfl

theorem reply_of_wakeCase {r : Except EngineError Unit} (hc : e.get? id = some c)
    (h : e.wakeCase id seq? = .ok (e', r)) :
    r = .ok () ∨ ∃ cause, r = .error (.schedulingUnavailable cause) := by
  simp only [wakeCase, hc] at h
  obtain ⟨⟨e₁, r₁⟩, hf, h⟩ := bind_eq_ok.1 h
  rcases fire_cases hf with
    ⟨-, rfl, -⟩ | ⟨cause, n, -, -, rfl⟩ | ⟨now, c₁, c', -, -, -, -, -, -, rfl⟩
  · cases h
    exact .inl rfl
  · cases h
    exact .inr ⟨cause, rfl⟩
  · cases h
    exact .inl rfl

theorem wakeCase_of_perform (hop : op.firing? = some (id, seq?))
    (h : e.perform op = .ok (e', r)) :
    ∃ r₁, e.wakeCase id seq? = .ok (e', r₁) ∧ r = r₁.map fun _ => .done := by
  cases op with
  | timerFired | fire =>
    cases hop
    obtain ⟨a, ha, h⟩ := bind_eq_ok.1 h
    cases h
    exact ⟨_, ha, rfl⟩
  | _ => cases hop

theorem fire_of_fail (ho : c.resolution = none) (hseq : seq?.isSome → seq? = c.wake.map Wake.seq)
    (hclock : e.clock.read = .ok now) (hs : wakeTarget c = some stage)
    (hp : e.plan c stage now = .ok (.fail diagnostic)) {r : Except EngineError Case}
    (h : e.fire c seq? = .ok (e', r)) : ∃ c', r = .ok c' := by
  have hres : ¬ c.isResolved := Case.not_isResolved.2 ho
  have hfresh : ¬ (seq?.isSome ∧ seq? ≠ c.wake.map Wake.seq) := fun hstale =>
    hstale.2 (hseq hstale.1)
  rw [fire, if_neg hres, if_neg hfresh] at h
  simp only [hclock, hs, transition_of_fail ho hp, ok_bind] at h
  obtain ⟨c', -, h⟩ := bind_eq_ok.1 h
  cases h
  exact ⟨c', rfl⟩

/-- The stage of a case that an operation looks at, and when. -/
inductive Looks (e : Engine) : Operation → Case → Stage → Instant → Prop
  | first (id : CaseId) (reason : String) (now : Instant) :
      Looks e (.start id reason now) (.fresh id reason now) .initial now
  | awake {op : Operation} {c : Case} {stage : Stage} {now : Instant} (hw : e.wakes? op = some c)
      (hclock : e.clock.read = .ok now) (hs : wakeTarget c = some stage) : Looks e op c stage now

theorem Looks.answered (hl : Looks e op c stage now)
    (hp : e.plan c stage now = .ok (.fail diagnostic)) (h : e.perform op = .ok (e', r)) :
    ∃ reply, r = .ok reply := by
  cases hl with
  | first id reason =>
    obtain ⟨⟨e₁, r₁⟩, ha, h⟩ := bind_eq_ok.1 h
    cases h
    rw [start, transition_of_fail rfl hp, ok_bind] at ha
    cases ha
    exact ⟨_, rfl⟩
  | awake hw hclock hs =>
    obtain ⟨⟨id, seq?⟩, hop, hc⟩ := Option.bind_eq_some_iff.1 hw
    obtain ⟨hget, ho, hseq⟩ := (wakes?_eq_some hop).1 hw
    obtain ⟨r₁, hwake, rfl⟩ := wakeCase_of_perform hop h
    simp only [wakeCase, hget] at hwake
    obtain ⟨⟨e₁, r₂⟩, hf, hwake⟩ := bind_eq_ok.1 hwake
    obtain ⟨c', rfl⟩ := fire_of_fail ho hseq hclock hs hp hf
    cases hwake
    exact ⟨_, rfl⟩

/-- The case has ended at the stage, and why is told. No wake-up was asked for, and all that there
is on any other id is as it was. -/
structure Contained (e : Engine) (c : Case) (stage : Stage) (now : Instant) (e' : Engine) :
    Prop where
  ended : ∃ c' diagnostic, e'.get? c.id = some c' ∧ c'.stage = stage ∧ c'.wake = none ∧
    c'.resolution = some ⟨.closed, some diagnostic, now⟩ ∧
    e'.commands = e.commands ++ [.resolved c.id .closed (some diagnostic) now]
  armed : e'.timers.armed = e.timers.armed
  lastSeq : e'.lastSeq = e.lastSeq
  others : ∀ id ≠ c.id, e'.file id = e.file id ∧
    e'.timers.live.filter (·.id = id) = e.timers.live.filter (·.id = id)

theorem Moved.contained (hm : Moved e c now (some stage) e₁ c')
    (hp : e.plan c stage now = .ok (.fail diagnostic)) (hl : e.listening = true)
    (hs : (c.enter stage).stage = stage) {cases : List Case} (elapsed : Span)
    (hget : get? { e₁ with cases } c.id = some { c' with elapsed })
    (hothers : ∀ id ≠ c.id, file { e₁ with cases } id = e.file id ∧
      e₁.timers.live.filter (·.id = id) = e.timers.live.filter (·.id = id)) :
    Contained e c stage now { e₁ with cases } := by
  obtain ⟨rfl, rfl⟩ := hm.of_fail hp
  refine ⟨⟨_, diagnostic, hget, hs, rfl, rfl, ?_⟩, ?_, tell_lastSeq .., hothers⟩
  · simp only [tell, hl, if_true]
  · simp only [tell_timers, TimerBook.armed_release]

theorem about_of_firing (hop : op.firing? = some (id, seq?)) : op.about? = some id := by
  cases op with
  | timerFired | fire =>
    cases hop
    rfl
  | _ => cases hop

theorem Looks.about (hl : Looks e op c stage now) : op.about? = some c.id := by
  cases hl with
  | first => rfl
  | awake hw =>
    obtain ⟨⟨id, seq?⟩, hop, -⟩ := Option.bind_eq_some_iff.1 hw
    rw [about_of_firing hop, id_of_get? ((wakes?_eq_some hop).1 hw).1]

theorem Looks.contained (hlook : Looks e op c stage now) (hreg : Registry ids e) (hb : e.Balanced)
    (hnew : ∀ id ∈ op.started?, id ∉ ids) (hopen : e.settings.hours.isOpen now = .ok inHours)
    (hno : ¬ e.table.Decides (Decision.facts c.reason stage inHours))
    (h : e.perform op = .ok (e', r)) : (∃ reply, r = .ok reply) ∧ Contained e c stage now e' := by
  obtain ⟨diagnostic, hp⟩ := plan_of_undecided hopen hno
  obtain ⟨reply, rfl⟩ := hlook.answered hp h
  refine ⟨⟨reply, rfl⟩, ?_⟩
  have hdone := performed_of_perform hreg.nodup h
  have hothers (id : CaseId) (hid : id ≠ c.id) : e'.file id = e.file id ∧
      e'.timers.live.filter (·.id = id) = e.timers.live.filter (·.id = id) := by
    have hsame := untouched_of_perform hreg.listening h hlook.about hid
    exact ⟨hsame.file, hsame.live_eq hb (hb.step hreg hnew hdone.effect) hreg.nodup
      (hreg.step hnew hdone.effect).nodup⟩
  cases hlook with
  | first id reason =>
    obtain rfl : reply = .started id := by
      obtain ⟨⟨e₁, r₁⟩, ha, h⟩ := bind_eq_ok.1 h
      rcases reply_of_start ha with rfl | ⟨cause, rfl⟩
      · cases h
        rfl
      · cases h
    cases hdone with
    | @started _ _ _ e₁ c' hm =>
      have hid : c'.id = id := hm.id_eq
      have hnone : e.get? id = none := get?_of_file (hreg.file_eq_empty (hnew id rfl))
      refine hm.contained hp hreg.listening rfl c'.elapsed ?_ hothers
      rw [get?_append e₁ hm.cases_eq, show Case.id (.fresh id reason now) = id from rfl, hnone,
        if_pos hid, Option.none_or]
    | idle hw hidle => cases hidle
    | evicted hk hop hidle => cases hidle
  | awake hw hclock hs =>
    cases hdone with
    | @woken _ c₀ c₁ c' now' e₁ before after hw' hcs hne ho hclock' hm ha hout =>
      obtain rfl := Option.some.inj (hw.symm.trans hw')
      obtain rfl := Except.ok.inj (hclock.symm.trans hclock')
      obtain ⟨⟨elapsed, rfl⟩, -⟩ := accountElapsed_cases ha
      rw [hs] at hm
      exact hm.contained hp hreg.listening (stage_enter hs) elapsed
        (get?_middle e₁ hne hm.id_eq) hothers
    | idle hw' => cases hw.symm.trans hw'
    | outside clock refusal hop => cases hw.symm.trans (wakes?_eq_none hop)
    | resumed hcs hne ho ha => cases hw
    | started hm => cases hw
    | evicted hk hop => cases hw.symm.trans (wakes?_eq_none hop)

/-- Whatever the table, a start gives the id or finds scheduling unavailable, and so a firing for a
registered case goes well or finds it unavailable. Where there is no decision for the stage that is
looked at, the case is closed there with a diagnostic and nothing else happens. Nothing is ever sent
or deferred without a kind of notice. -/
theorem failures_contained (h₀ : Initial e₀) (hids : (startsOf l).Nodup) (h : Runs e₀ l e) :
    (∀ id reason now e' r, e.start id reason now = .ok (e', r) →
      r = .ok id ∨ ∃ cause, r = .error (.schedulingUnavailable cause)) ∧
    (∀ id seq? e' r, (e.get? id).isSome → e.wakeCase id seq? = .ok (e', r) →
      r = .ok () ∨ ∃ cause, r = .error (.schedulingUnavailable cause)) ∧
    (∀ op c stage now inHours e' r, Looks e op c stage now →
      (∀ id ∈ op.started?, id ∉ startsOf l) → e.settings.hours.isOpen now = .ok inHours →
      ¬ e.table.Decides (Decision.facts c.reason stage inHours) → e.perform op = .ok (e', r) →
        (∃ reply, r = .ok reply) ∧ Contained e c stage now e') ∧
    (∀ id reason stage action kind at', .notify id reason stage action kind at' ∈ e.commands →
      action ≠ .closeWorkflow → kind.isSome) := by
  obtain ⟨hreg, ha, hb⟩ := h.invariant (P := fun _ e => e.Accounted ∧ e.Balanced)
    (registry_of_initial h₀) ⟨accounted_of_initial h₀, balanced_of_initial h₀⟩
    (fun _ hreg hnew hp hdone =>
      ⟨hp.1.step hreg hnew hdone.effect, hp.2.step hreg hnew hdone.effect⟩) hids
  refine ⟨fun id reason now e' r => reply_of_start, fun id seq? e' r hsome hwake => ?_,
    fun op c stage now inHours e' r hlook hnew hopen hno hperform =>
      hlook.contained hreg hb hnew hopen hno hperform,
    fun id reason stage action kind at' hmem hne => ?_⟩
  · obtain ⟨c, hc⟩ := Option.isSome_iff_exists.1 hsome
    exact reply_of_wakeCase hc hwake
  · exact (ha.account id).kind_of_mem (List.mem_filter.2 ⟨hmem, by simp [Command.caseId]⟩) hne

def sketch : Table :=
  { Table.notificationAction with rules := Table.notificationAction.rules.take 4 }

def onSketch (e : Engine) : Engine := { e with table := sketch }

def toFollowUp : List Step :=
  [⟨onSketch standard, .start ⟨1⟩ "UNREADABLE_DOCUMENT" ⟨1792404000, 0⟩, .ok (.started ⟨1⟩),
      onSketch waiting⟩,
    ⟨onSketch waiting, .setClock ⟨1792407600, 0⟩, .ok .done,
      (onSketch waiting).setClock ⟨1792407600, 0⟩⟩]

theorem runs_toFollowUp :
    Runs (onSketch standard) toFollowUp ((onSketch waiting).setClock ⟨1792407600, 0⟩) := by
  have hstart : Runs (onSketch standard) (toFollowUp.take 1) (onSketch waiting) :=
    .snoc (l := []) .nil _ rfl
  exact .snoc (l := toFollowUp.take 1) hstart _ rfl

theorem failures_contained_sketch :
    Initial (onSketch standard) ∧ (startsOf toFollowUp).Nodup ∧
      ∃ e c e', Runs (onSketch standard) toFollowUp e ∧
        Looks e (.timerFired ⟨1⟩ 1) c .followUp1 ⟨1792407600, 0⟩ ∧
        ¬ e.table.Decides (Decision.facts c.reason .followUp1 true) ∧
        e.perform (.timerFired ⟨1⟩ 1) = .ok (e', .ok .done) ∧
        Contained e c .followUp1 ⟨1792407600, 0⟩ e' := by
  have h₀ : Initial (onSketch standard) :=
    ⟨.standard, sketch, ⟨⟨1792404000, 0⟩, none⟩, none, rfl⟩
  have hids : (startsOf toFollowUp).Nodup := List.nodup_singleton (⟨1⟩ : CaseId)
  have hlook : Looks ((onSketch waiting).setClock ⟨1792407600, 0⟩) (.timerFired ⟨1⟩ 1) _ .followUp1
      ⟨1792407600, 0⟩ := .awake rfl rfl rfl
  have hno : ¬ sketch.Decides (Decision.facts "UNREADABLE_DOCUMENT" .followUp1 true) := by
    rw [← Decision.exists_decision_iff]
    rintro ⟨d, hd⟩
    cases hd.symm.trans (show Decision.decide sketch _ = .ok none from rfl)
  obtain ⟨-, -, hcontained, -⟩ := failures_contained h₀ hids runs_toFollowUp
  exact ⟨h₀, hids, _, _, _, runs_toFollowUp, hlook, hno, rfl,
    (hcontained _ _ _ _ true _ _ hlook (by simp [Operation.started?]) rfl hno rfl).2⟩

end Engine

end Followup
