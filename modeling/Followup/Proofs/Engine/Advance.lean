import Followup.Proofs.Engine.CaseFile
import Followup.Proofs.Engine.Timetable

/-! A case on its timetable. Under the built-in table, a look at a case at the time of its next
phase tells the notice of that phase, arms the wake-up for the one after it and leaves the case as
the timetable has it. -/

namespace Followup

namespace Timetable

variable {T : Timetable} {s : Settings} {start : Instant} {id : CaseId} {reason : String}
  {p q r : Phase}

def plan (T : Timetable) : Phase → Plan
  | .deferred => .defer (some .initialAlert) T.alert
  | .alerted => .send (some .initialAlert) T.followUp1
  | .remindedOnce => .send (some .followUp1) T.followUp2
  | .remindedTwice => .send (some .followUp2) T.deadline
  | .closed => .conclude (some .closingMessage)

def firstSent (T : Timetable) : Phase → Option Instant
  | .deferred => none
  | .alerted | .remindedOnce | .remindedTwice | .closed => some T.alert

def lastSent (T : Timetable) : Phase → Option Instant
  | .deferred => none
  | .alerted => some T.alert
  | .remindedOnce => some T.followUp1
  | .remindedTwice | .closed => some T.followUp2

def resolution (T : Timetable) : Phase → Option Resolution
  | .deferred | .alerted | .remindedOnce | .remindedTwice => none
  | .closed => some ⟨.closed, none, T.deadline⟩

def caseAt (T : Timetable) (id : CaseId) (reason : String) (p : Phase) (wake : Option Wake) :
    Case where
  id := id
  reason := reason
  stage := p.stage
  createdAt := T.start
  firstSent := T.firstSent p
  lastSent := T.lastSent p
  elapsed := T.elapsed p
  resolution := T.resolution p
  wake := wake
  history := Stage.all.take (p.stage.index + 1)

def notice (T : Timetable) (id : CaseId) (reason : String) (p : Phase) : Command :=
  .notify id reason p.stage p.action (some p.kind) (T.time p)

def ending (T : Timetable) (id : CaseId) : Phase → List Command
  | .closed => [.resolved id .closed none T.deadline]
  | .deferred | .alerted | .remindedOnce | .remindedTwice => []

def ahead? (T : Timetable) : Phase → Option (WakeReason × Instant)
  | .deferred => some (.deferred, T.alert)
  | .alerted => some (.nextStage, T.followUp1)
  | .remindedOnce => some (.nextStage, T.followUp2)
  | .remindedTwice => some (.nextStage, T.deadline)
  | .closed => none

/-- A case for which a phase comes next. -/
inductive Awaits (T : Timetable) (id : CaseId) (reason : String) : Phase → Case → Prop
  | fresh {q : Phase} (h : T.phases.head? = some q) :
      Awaits T id reason q (.fresh id reason T.start)
  | after {p q : Phase} (h : p.next? = some q) (wake : Option Wake) :
      Awaits T id reason q (T.caseAt id reason p wake)

theorem wake?_plan (T : Timetable) (p : Phase) : (T.plan p).wake? = T.ahead? p := by
  cases p <;> rfl

theorem head_phases (h : T.phases.head? = some q) :
    T.inHours = false ∧ q = .deferred ∨ T.inHours = true ∧ q = .alerted := by
  cases hin : T.inHours with
  | false =>
    rw [phases, hin] at h
    cases h
    exact .inl ⟨rfl, rfl⟩
  | true =>
    rw [phases, hin] at h
    cases h
    exact .inr ⟨rfl, rfl⟩

theorem Fits.time_head (hf : T.Fits s start) (h : T.phases.head? = some q) : T.time q = start := by
  rcases head_phases h with ⟨-, rfl⟩ | ⟨hin, rfl⟩
  · exact hf.start
  · have halert := hf.alert
    rw [if_pos hin] at halert
    exact halert

theorem Fits.accepted (hf : T.Fits s start) {wait₁ wait₂ : Span} (hs : s.Accepted wait₁ wait₂) :
    s.Accepted T.wait₁ T.wait₂ := by
  obtain rfl := Option.some.inj (hs.followUp1.symm.trans hf.wait₁)
  obtain rfl := Option.some.inj (hs.followUp2.symm.trans hf.wait₂)
  exact hs

theorem Awaits.id_eq {c : Case} (h : T.Awaits id reason q c) : c.id = id := by
  cases h <;> rfl

theorem Awaits.reason_eq {c : Case} (h : T.Awaits id reason q c) : c.reason = reason := by
  cases h <;> rfl

theorem Awaits.open {c : Case} (h : T.Awaits id reason q c) : c.resolution = none := by
  cases h with
  | fresh => rfl
  | @after p _ hnext =>
    cases p with
    | closed => cases hnext
    | deferred | alerted | remindedOnce | remindedTwice => rfl

theorem Awaits.advance {c : Case} (h : T.Awaits id reason q c) :
    (T.plan q).advance c q.stage (T.time q) =
      { T.caseAt id reason q c.wake with elapsed := c.elapsed, resolution := none } := by
  cases h with
  | fresh h => rcases head_phases h with ⟨-, rfl⟩ | ⟨-, rfl⟩ <;> rfl
  | @after p _ hnext => cases p <;> cases hnext <;> rfl

theorem Awaits.notices {c : Case} (h : T.Awaits id reason q c) :
    (T.plan q).notices (c.enter q.stage) (T.time q) = [T.notice id reason q] := by
  cases h with
  | fresh h => rcases head_phases h with ⟨-, rfl⟩ | ⟨-, rfl⟩ <;> rfl
  | @after p _ hnext => cases p <;> cases hnext <;> rfl

theorem decide_phase (hr : reason ∈ Table.escalatingReasons) (p : Phase) :
    ∃ rule, Decision.decide .notificationAction
      (Decision.facts reason p.stage (decide (p ≠ .deferred))) =
        .ok (some ⟨p.action, some p.kind, rule⟩) := by
  simp only [Table.escalatingReasons, List.mem_cons, List.not_mem_nil, or_false] at hr
  rcases hr with rfl | rfl | rfl | rfl <;> cases p <;> exact ⟨_, rfl⟩

structure Governs (T : Timetable) (start : Instant) (reason : String) (e : Engine) : Prop where
  fits : T.Fits e.settings start
  accepted : e.settings.Accepted T.wait₁ T.wait₂
  table : e.table = .notificationAction
  reason : reason ∈ Table.escalatingReasons

section Governs

variable {e : Engine} {c : Case}

theorem Awaits.isOpen (h : T.Awaits id reason q c) (hf : T.Fits s start) :
    s.hours.isOpen (T.time q) = .ok (decide (q ≠ .deferred)) := by
  cases h with
  | fresh h =>
    rcases head_phases h with ⟨hin, rfl⟩ | ⟨-, rfl⟩
    · exact (congrArg s.hours.isOpen hf.start).trans (hf.inHours.trans (congrArg Except.ok hin))
    · exact hf.isOpen _ (by decide)
  | @after p _ hnext => cases p <;> cases hnext <;> exact hf.isOpen _ (by decide)

theorem Awaits.decideStage (h : T.Awaits id reason q c) (hg : T.Governs start reason e) :
    ∃ rule, e.decideStage c q.stage (T.time q) =
      .ok (.ok (some ⟨q.action, some q.kind, rule⟩)) := by
  obtain ⟨rule, hd⟩ := decide_phase hg.reason q
  refine ⟨rule, ?_⟩
  rw [Engine.decideStage, h.isOpen hg.fits, ok_bind, h.reason_eq, hg.table, hd]
  cases q <;> rfl

theorem Awaits.planFor (h : T.Awaits id reason q c) (hg : T.Governs start reason e)
    (rule : Option Nat) :
    e.planFor c q.stage (T.time q) ⟨q.action, some q.kind, rule⟩ = .ok (T.plan q) := by
  have hf := hg.fits
  cases q with
  | deferred =>
    have hnext : e.settings.hours.nextStart T.start = .ok T.alert := by
      cases h with
      | fresh h =>
        rcases head_phases h with ⟨hin, -⟩ | ⟨-, hq⟩
        · rw [hf.start]
          simpa only [hin, Bool.false_eq_true, if_false] using hf.alert
        · cases hq
      | @after p _ hnext => cases p <;> cases hnext
    simp only [Engine.planFor, Phase.action, time, hnext]
    rfl
  | alerted =>
    simp only [Engine.planFor, Phase.action, Phase.stage, time, Engine.nextStageAt, Stage.next?,
      hf.wait₁, hf.followUp1, ok_bind, Reading.max_of_lt hf.alert_lt]
    rfl
  | remindedOnce =>
    simp only [Engine.planFor, Phase.action, Phase.stage, time, Engine.nextStageAt, Stage.next?,
      hf.wait₂, hf.followUp2, ok_bind, Reading.max_of_lt hf.followUp1_lt]
    rfl
  | remindedTwice =>
    have hfirst : c.firstSent = some T.alert := by
      cases h with
      | fresh h => rcases head_phases h with ⟨-, hq⟩ | ⟨-, hq⟩ <;> cases hq
      | @after p _ hnext => cases p <;> cases hnext; rfl
    have hwait := hg.accepted.others .deadline (by decide)
    simp only [Engine.planFor, Phase.action, Phase.stage, time, Engine.nextStageAt, Stage.next?,
      hwait, hfirst, Option.getD_some, hf.limit, hf.deadline, ok_bind,
      Reading.max_of_lt hf.followUp2_lt]
    rfl
  | closed => rfl

theorem Awaits.plan_eq (h : T.Awaits id reason q c) (hg : T.Governs start reason e) :
    e.plan c q.stage (T.time q) = .ok (T.plan q) := by
  obtain ⟨rule, hd⟩ := h.decideStage hg
  rw [Engine.plan, hd, ok_bind]
  exact h.planFor hg rule

theorem Awaits.moved (h : T.Awaits id reason q c) (hg : T.Governs start reason e)
    (hl : e.listening = true) {e' : Engine} {c' : Case}
    (hm : Engine.Moved e c (T.time q) (some q.stage) e' c') :
    (∃ wake, c' = { T.caseAt id reason q wake with elapsed := c.elapsed } ∧
      wake.map (fun w => (w.reason, w.wakeAt)) = T.ahead? q) ∧
    e'.commandsOf id = e.commandsOf id ++ T.notice id reason q :: T.ending id q ∧
    (e'.armedFor id).map WakeRequest.wakeAt =
      (e.armedFor id).map WakeRequest.wakeAt ++ ((T.ahead? q).map Prod.snd).toList := by
  have hplan := h.plan_eq hg
  obtain rfl := h.id_eq
  cases hm with
  | @rearmed _ plan wakeReason wakeAt hp hw =>
    obtain rfl := Except.ok.inj (hp.symm.trans hplan)
    rw [Engine.commandsOf_tell (by exact hl) fun cmd => Engine.caseId_of_notices,
      Engine.armedFor_rearm, h.notices, List.map_append]
    rw [wake?_plan] at hw
    -- Where a wake-up is armed, the phase is not the last one.
    have hopen : T.resolution q = none ∧ T.ending c.id q = [] := by
      cases q <;> first | exact ⟨rfl, rfl⟩ | cases hw
    refine ⟨⟨some ⟨wakeReason, wakeAt, e.lastSeq + 1, e.timers.entries.length⟩, ?_, hw.symm⟩,
      ?_, ?_⟩
    · rw [h.advance]
      simp only [caseAt, hopen.1]
    · rw [hopen.2]
      rfl
    · rw [hw]
      rfl
  | closed hp hw =>
    obtain rfl := Except.ok.inj (hp.symm.trans hplan)
    rw [Engine.commandsOf_tell (by exact hl) fun cmd => Engine.caseId_of_ending,
      Engine.armedFor_release, h.notices, h.advance]
    rw [wake?_plan] at hw
    cases q with
    | closed => exact ⟨⟨none, rfl, rfl⟩, rfl, (List.append_nil _).symm⟩
    | deferred | alerted | remindedOnce | remindedTwice => cases hw

theorem Awaits.elapsed_le (h : T.Awaits id reason q c) (hg : T.Governs start reason e) :
    c.elapsed ≤ T.elapsed q := by
  cases h with
  | fresh h => rcases head_phases h with ⟨-, rfl⟩ | ⟨-, rfl⟩ <;> exact Int.le_refl _
  | @after p _ hnext =>
    obtain ⟨hpos₁, hpos₂, hlt⟩ := hg.accepted.nanos
    rw [hg.fits.limit] at hlt
    cases p with
    | deferred => cases hnext; exact Int.le_refl _
    | alerted => cases hnext; exact Int.le_of_lt hpos₁
    | remindedOnce =>
      cases hnext
      exact Int.le_add_of_nonneg_right (Int.le_of_lt hpos₂)
    | remindedTwice => cases hnext; exact Int.le_of_lt hlt
    | closed => cases hnext

theorem Awaits.account (h : T.Awaits id reason q c) (hg : T.Governs start reason e)
    (wake : Option Wake) :
    e.accountElapsed { T.caseAt id reason q wake with elapsed := c.elapsed } (T.time q) =
      .ok (T.caseAt id reason q wake) := by
  have hle := h.elapsed_le hg
  have told (hne : q ≠ .deferred) (hfirst : T.firstSent q = some T.alert) :
      e.accountElapsed { T.caseAt id reason q wake with elapsed := c.elapsed } (T.time q) =
        .ok (T.caseAt id reason q wake) := by
    simp only [Engine.accountElapsed, caseAt, hfirst, hg.fits.between q hne, ok_bind,
      Case.recordElapsed, Span.max, if_pos hle]
    rfl
  cases q with
  | deferred =>
    -- Nothing has been sent, so there is no time to take account of.
    cases h with
    | fresh => rfl
    | @after p _ hnext => cases p <;> cases hnext
  | alerted | remindedOnce | remindedTwice | closed => exact told (by decide) rfl

theorem Awaits.transition (h : T.Awaits id reason q c) (hg : T.Governs start reason e)
    (hr : e.timers.refusal = none) :
    ∃ e₁ c₁, e.transition c q.stage (T.time q) = .ok (e₁, .ok c₁) ∧
      Engine.Moved e c (T.time q) (some q.stage) e₁ c₁ := by
  have hplan := h.plan_eq hg
  rw [Engine.transition_eq h.open, hplan]
  cases hw : (T.plan q).wake? with
  | none =>
    refine ⟨_, _, ?_, .closed hplan hw⟩
    simp only [Except.map, Engine.commit, hw]
  | some wake =>
    refine ⟨_, _, ?_, .rearmed hplan hw⟩
    simp only [Except.map, Engine.commit, hw, hr]

end Governs

theorem wakeTarget_caseAt (id : CaseId) (reason : String) (hnext : p.next? = some q)
    {wake : Option Wake}
    (hw : wake.map (fun w => (w.reason, w.wakeAt)) = T.ahead? p) :
    ∃ w, wake = some w ∧ w.wakeAt = T.time q ∧
      Engine.wakeTarget (T.caseAt id reason p wake) = some q.stage := by
  cases p <;> cases hnext
  all_goals
    obtain ⟨w, rfl, hw⟩ := Option.map_eq_some_iff.1 hw
    obtain ⟨wakeReason, wakeAt, seq, handle⟩ := w
    cases hw
    exact ⟨_, rfl, rfl, rfl⟩

end Timetable

end Followup
