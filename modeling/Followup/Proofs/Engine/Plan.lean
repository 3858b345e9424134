import Followup.Engine.Operations

/-! A transition of a case, cut in two. The plan reads the settings, the table and the case, and
nothing that an outage touches. Carrying it out arms the next wake-up first; only then does the
case change, and only then is anything told. -/

namespace Followup

namespace TimerBook

def release (b : TimerBook) : Option Wake → TimerBook
  | some w => b.cancel w.handle
  | none => b

def rearm (b : TimerBook) (w : Option Wake) (r : WakeRequest) : TimerBook :=
  release { b with entries := b.entries ++ [(r, false)] } w

theorem armed_release (b : TimerBook) (w : Option Wake) : (b.release w).armed = b.armed := by
  cases w with
  | none => rfl
  | some w => exact armed_cancel b w.handle

theorem armed_rearm (b : TimerBook) (w : Option Wake) (r : WakeRequest) :
    (b.rearm w r).armed = b.armed ++ [r] := by
  rw [rearm, armed_release]
  simp [armed]

end TimerBook

/-- What a transition has settled on before it changes anything. -/
inductive Plan where
  | fail (diagnostic : String)
  | conclude (kind : Option NoticeKind)
  | defer (kind : Option NoticeKind) (wakeAt : Instant)
  | send (kind : Option NoticeKind) (wakeAt : Instant)
  | sendLast (kind : Option NoticeKind)

namespace Plan

def wake? : Plan → Option (WakeReason × Instant)
  | defer _ wakeAt => some (.deferred, wakeAt)
  | send _ wakeAt => some (.nextStage, wakeAt)
  | fail _ | conclude _ | sendLast _ => none

def diagnostic (stage : Stage) : Plan → Option String
  | fail diagnostic => some diagnostic
  | sendLast _ => some s!"no stage after {stage.name}"
  | conclude _ | defer _ _ | send _ _ => none

def notices (c : Case) (now : Instant) : Plan → List Command
  | fail _ => []
  | conclude kind => [.notify c.id c.reason c.stage .closeWorkflow kind now]
  | defer kind _ => [.notify c.id c.reason c.stage .scheduleNextWindow kind now]
  | send kind _ | sendLast kind => [.notify c.id c.reason c.stage .sendNow kind now]

def advance (c : Case) (stage : Stage) (now : Instant) : Plan → Case
  | send _ _ =>
    { c.enter stage with firstSent := some (c.firstSent.getD now), lastSent := some now }
  | sendLast _ => { c.enter stage with lastSent := some now }
  | fail _ | conclude _ | defer _ _ => c.enter stage

end Plan

namespace Case

theorem not_isResolved {c : Case} : ¬ c.isResolved ↔ c.resolution = none := by
  rw [isResolved, Bool.not_eq_true, Option.isSome_eq_false_iff, Option.isNone_iff_eq_none]

@[simp] theorem enter_id (c : Case) (stage : Stage) : (c.enter stage).id = c.id := by
  simp only [enter]; split <;> rfl
@[simp] theorem enter_reason (c : Case) (stage : Stage) : (c.enter stage).reason = c.reason := by
  simp only [enter]; split <;> rfl
@[simp] theorem enter_wake (c : Case) (stage : Stage) : (c.enter stage).wake = c.wake := by
  simp only [enter]; split <;> rfl
@[simp] theorem enter_resolution (c : Case) (stage : Stage) :
    (c.enter stage).resolution = c.resolution := by
  simp only [enter]; split <;> rfl

@[simp] theorem enter_firstSent (c : Case) (stage : Stage) :
    (c.enter stage).firstSent = c.firstSent := by
  simp only [enter]; split <;> rfl
@[simp] theorem enter_lastSent (c : Case) (stage : Stage) :
    (c.enter stage).lastSent = c.lastSent := by
  simp only [enter]; split <;> rfl
@[simp] theorem enter_elapsed (c : Case) (stage : Stage) :
    (c.enter stage).elapsed = c.elapsed := by
  simp only [enter]; split <;> rfl

theorem enter_withWake (c : Case) (stage : Stage) (w : Option Wake) :
    { c with wake := w }.enter stage = { c.enter stage with wake := w } := by
  simp only [enter]; split <;> rfl

def ended (c : Case) (outcome : Outcome) (diagnostic : Option String) (now : Instant) : Case :=
  { c with wake := none, resolution := some ⟨outcome, diagnostic, now⟩ }

end Case

theorem Plan.firstSent_advance {c : Case} {first : Instant} (hf : c.firstSent = some first)
    (p : Plan) (stage : Stage) (now : Instant) :
    (p.advance c stage now).firstSent = some first := by
  cases p with
  | send => exact congrArg (fun t => some (Option.getD t now)) hf
  | fail | conclude | defer | sendLast => exact (Case.enter_firstSent c stage).trans hf

namespace Engine

variable {e e' : Engine} {c c' : Case} {stage : Stage} {now : Instant} {p : Plan}

def tell (e : Engine) (cs : List Command) : Engine :=
  if e.listening then { e with commands := e.commands ++ cs } else e

def planFor (e : Engine) (c : Case) (stage : Stage) (now : Instant) (d : Decision) :
    Checked Plan := do
  match d.action with
  | .closeWorkflow => return .conclude d.kind
  | .scheduleNextWindow => return .defer d.kind (← e.settings.hours.nextStart now)
  | .sendNow =>
    match ← e.nextStageAt stage (c.firstSent.getD now) now with
    | some wakeAt => return .send d.kind wakeAt
    | none => return .sendLast d.kind

def plan (e : Engine) (c : Case) (stage : Stage) (now : Instant) : Checked Plan := do
  match ← e.decideStage c stage now with
  | .ok (some d) => e.planFor c stage now d
  | .ok none => return .fail s!"no rule matched stage {stage.name}"
  | .error err => return .fail err.message

def commit (e : Engine) (c : Case) (stage : Stage) (now : Instant) (p : Plan) : Answer Case :=
  match p.wake? with
  | some (reason, wakeAt) =>
    let seq := e.lastSeq + 1
    match e.timers.refusal with
    | some refusal => ({ e with lastSeq := seq }, .error (.schedulingUnavailable refusal))
    | none =>
      (tell { e with lastSeq := seq, timers := e.timers.rearm c.wake ⟨c.id, seq, wakeAt⟩ }
        (p.notices (c.enter stage) now),
        .ok { p.advance c stage now with
          wake := some ⟨reason, wakeAt, seq, e.timers.entries.length⟩ })
  | none =>
    (tell { e with timers := e.timers.release c.wake }
      (p.notices (c.enter stage) now ++ [.resolved c.id .closed (p.diagnostic stage) now]),
      .ok ((p.advance c stage now).ended .closed (p.diagnostic stage) now))

section Tell

variable (e : Engine) (cs ds : List Command)

@[simp] theorem tell_settings : (e.tell cs).settings = e.settings := by
  simp only [tell]; split <;> rfl
@[simp] theorem tell_table : (e.tell cs).table = e.table := by
  simp only [tell]; split <;> rfl
@[simp] theorem tell_timers : (e.tell cs).timers = e.timers := by
  simp only [tell]; split <;> rfl
@[simp] theorem tell_cases : (e.tell cs).cases = e.cases := by
  simp only [tell]; split <;> rfl
@[simp] theorem tell_lastSeq : (e.tell cs).lastSeq = e.lastSeq := by
  simp only [tell]; split <;> rfl
@[simp] theorem tell_listening : (e.tell cs).listening = e.listening := by
  simp only [tell]; split <;> rfl

theorem tell_nil : e.tell [] = e := by
  simp only [tell, List.append_nil, ite_self]

end Tell

theorem emit_eq (e : Engine) (cmd : Command) : e.emit cmd = e.tell [cmd] := rfl

theorem cancelWake_eq (e : Engine) (c : Case) :
    e.cancelWake c = { e with timers := e.timers.release c.wake } := by
  cases h : c.wake <;> simp only [cancelWake, h, TimerBook.release]

theorem resolve_tell (e : Engine) (cs : List Command) (h : c.resolution = none)
    (outcome : Outcome) (diagnostic : Option String) (now : Instant) :
    (e.tell cs).resolve c outcome diagnostic now =
      (tell { e with timers := e.timers.release c.wake }
        (cs ++ [.resolved c.id outcome diagnostic now]), c.ended outcome diagnostic now) := by
  simp only [resolve, Case.isResolved, h, Option.isSome_none, Bool.false_eq_true, if_false,
    cancelWake_eq, emit_eq, Case.ended, tell]
  split <;> simp_all

theorem resolve_eq (e : Engine) (h : c.resolution = none) (outcome : Outcome)
    (diagnostic : Option String) (now : Instant) :
    e.resolve c outcome diagnostic now =
      (tell { e with timers := e.timers.release c.wake } [.resolved c.id outcome diagnostic now],
        c.ended outcome diagnostic now) := by
  simpa only [tell_nil, List.nil_append] using resolve_tell e [] h outcome diagnostic now

theorem arm_eq (e : Engine) (c : Case) (reason : WakeReason) (wakeAt : Instant) :
    e.arm c reason wakeAt =
      match e.timers.refusal with
      | some refusal =>
        ({ e with lastSeq := e.lastSeq + 1 }, .error (.schedulingUnavailable refusal))
      | none =>
        ({ e with
            lastSeq := e.lastSeq + 1
            timers := e.timers.rearm c.wake ⟨c.id, e.lastSeq + 1, wakeAt⟩ },
          .ok { c with
            wake := some ⟨reason, wakeAt, e.lastSeq + 1, e.timers.entries.length⟩ }) := by
  cases h : e.timers.refusal <;> simp only [arm, TimerBook.arm, h, cancelWake_eq, TimerBook.rearm]

theorem act_eq (ho : c.resolution = none) (d : Decision) :
    e.act c stage now d = (e.planFor c stage now d).map (e.commit c stage now) := by
  obtain ⟨action, kind, rule⟩ := d
  cases action with
  | closeWorkflow =>
    simp only [act, planFor, close, notify, emit_eq, resolve_tell, Case.enter_resolution, ho, pure,
      Except.pure, Except.map, commit, Plan.wake?, Plan.notices, Plan.diagnostic, Plan.advance,
      Case.enter_id, Case.enter_wake]
  | scheduleNextWindow =>
    simp only [act, planFor, arm_eq]
    cases e.settings.hours.nextStart now with
    | error f => rfl
    | ok wakeAt =>
      simp only [ok_bind]
      cases h : e.timers.refusal with
      | some r => simp only [pure, Except.pure, Except.map, commit, Plan.wake?, h]
      | none =>
        simp only [pure, Except.pure, Except.map, commit, Plan.wake?, h, Case.enter_withWake]
        rfl
  | sendNow =>
    simp only [act, planFor]
    cases e.nextStageAt stage (c.firstSent.getD now) now with
    | error f => rfl
    | ok next =>
      cases next with
      | none =>
        simp only [ok_bind, close, notify, emit_eq, resolve_tell, Case.enter_resolution, ho, pure,
          Except.pure, Except.map, commit, Plan.wake?, Plan.notices, Plan.diagnostic, Plan.advance,
          Case.enter_id, Case.enter_wake]
      | some wakeAt =>
        simp only [ok_bind, arm_eq]
        cases h : e.timers.refusal with
        | some r => simp only [pure, Except.pure, Except.map, commit, Plan.wake?, h]
        | none =>
          simp only [pure, Except.pure, Except.map, commit, Plan.wake?, h, Case.enter_withWake]
          rfl

theorem transition_eq (ho : c.resolution = none) :
    e.transition c stage now = (e.plan c stage now).map (e.commit c stage now) := by
  simp only [transition, plan]
  cases e.decideStage c stage now with
  | error f => rfl
  | ok r =>
    simp only [ok_bind]
    rcases r with err | _ | d
    · simp only [close, resolve_eq, Case.enter_resolution, ho, Case.enter_id, Case.enter_wake]
      rfl
    · simp only [close, resolve_eq, Case.enter_resolution, ho, Case.enter_id, Case.enter_wake]
      rfl
    · exact act_eq ho d

theorem kind_of_ofOutput {rule : Option Nat} {output : Columns Fact} {d : Decision}
    (h : Decision.ofOutput rule output = .ok d) (ha : d.action ≠ .closeWorkflow) :
    d.kind.isSome := by
  obtain ⟨name, -, h⟩ := bind_eq_ok.1 h
  cases hn : Action.ofName name with
  | error err => simp only [hn] at h; cases h
  | ok action =>
  simp only [hn, pure_bind] at h
  obtain ⟨kind, -, h⟩ := bind_eq_ok.1 h
  by_cases hc : (!action.isTerminal && kind.isNone) = true
  · simp only [hc, if_true] at h
    cases h
  · simp only [hc] at h
    cases h
    cases action <;> cases kind <;> simp_all [Action.isTerminal]

theorem kind_of_decide {t : Table} {facts : Facts} {d : Decision}
    (h : Decision.decide t facts = .ok (some d)) (ha : d.action ≠ .closeWorkflow) :
    d.kind.isSome := by
  obtain ⟨r, -, h⟩ := bind_eq_ok.1 h
  cases r with
  | matched index output =>
    cases hd : Decision.ofOutput (some index) output with
    | error err => simp [hd] at h
    | ok d' =>
      simp only [hd] at h
      cases h
      exact kind_of_ofOutput hd ha
  | catchAll output =>
    cases hd : Decision.ofOutput none output with
    | error err => simp [hd] at h
    | ok d' =>
      simp only [hd] at h
      cases h
      exact kind_of_ofOutput hd ha
  | noMatch => cases h

theorem decideStage_cases {d : Decision} (h : e.decideStage c stage now = .ok (.ok (some d))) :
    (d.action ≠ .closeWorkflow → d.kind.isSome) ∧
      (d.action = .sendNow → e.settings.hours.isOpen now = .ok true) := by
  obtain ⟨inHours, hopen, h⟩ := bind_eq_ok.1 h
  cases hd : Decision.decide e.table (Decision.facts c.reason stage inHours) with
  | error err => simp [hd, Except.map, pure, Except.pure] at h
  | ok r =>
    cases r with
    | none => simp [hd, Except.map, pure, Except.pure] at h
    | some d₀ =>
      simp only [hd, Except.map, Option.map, pure, Except.pure, Except.ok.injEq,
        Option.some.injEq] at h
      have hkind := kind_of_decide hd
      split at h
      · next hs =>
        subst h
        exact ⟨fun _ => hkind (by simp [hs.1]), fun hc => by cases hc⟩
      · next hs =>
        subst h
        refine ⟨hkind, fun hsend => ?_⟩
        cases inHours with
        | true => exact hopen
        | false => exact absurd ⟨hsend, rfl⟩ hs

def Grounds (e : Engine) (c : Case) (stage : Stage) (now : Instant) : Plan → Prop
  | .fail _ | .conclude _ => True
  | .defer kind wakeAt => kind.isSome ∧ e.settings.hours.nextStart now = .ok wakeAt
  | .send kind wakeAt =>
    kind.isSome ∧ e.settings.hours.isOpen now = .ok true ∧
      e.nextStageAt stage (c.firstSent.getD now) now = .ok (some wakeAt)
  | .sendLast kind => kind.isSome ∧ e.settings.hours.isOpen now = .ok true ∧ stage.next? = none

theorem next?_of_nextStageAt {firstSent : Instant} {wakeAt? : Option Instant}
    (h : e.nextStageAt stage firstSent now = .ok wakeAt?) :
    stage.next?.isSome = wakeAt?.isSome := by
  simp only [nextStageAt] at h
  cases hn : stage.next? with
  | none =>
    simp only [hn] at h
    cases h
    rfl
  | some next =>
    simp only [hn] at h
    split at h
    all_goals
      obtain ⟨wakeAt, -, h⟩ := bind_eq_ok.1 h
      cases h
      rfl

theorem grounds_of_plan (h : e.plan c stage now = .ok p) : e.Grounds c stage now p := by
  obtain ⟨r, hr, h⟩ := bind_eq_ok.1 h
  rcases r with err | _ | d
  · cases h
    trivial
  · cases h
    trivial
  obtain ⟨hkind, hopen⟩ := decideStage_cases hr
  simp only [planFor] at h
  cases ha : d.action with
  | closeWorkflow =>
    simp only [ha] at h
    cases h
    trivial
  | scheduleNextWindow =>
    simp only [ha] at h
    obtain ⟨wakeAt, hw, h⟩ := bind_eq_ok.1 h
    cases h
    exact ⟨hkind (by simp [ha]), hw⟩
  | sendNow =>
    simp only [ha] at h
    obtain ⟨wakeAt?, hw, h⟩ := bind_eq_ok.1 h
    have hn := next?_of_nextStageAt hw
    cases wakeAt? with
    | some wakeAt =>
      cases h
      exact ⟨hkind (by simp [ha]), hopen ha, hw⟩
    | none =>
      cases h
      exact ⟨hkind (by simp [ha]), hopen ha, by simpa using hn⟩

end Engine

end Followup
