import Followup.Proofs.Engine.Advance
import Followup.Proofs.Engine.Faultless
import Followup.Proofs.Rules.Builtin

/-! The two built-in tables agree. What the one finds wrong with an intake is a reason on which the
other one alerts, at once or with the next window, and a start for any other reason is closed
without a word. -/

namespace Followup.Engine

variable {e e₀ : Engine} {id : CaseId} {reason : String} {now wakeAt : Instant} {p : Plan}
  {wakeReason : WakeReason} {ids : List CaseId} {l : List Step}
  {offset : Offset}

/-- A start has told one alert, or has put it off, and has armed one wake-up for a case that is
open. -/
structure Alerted (e : Engine) (id : CaseId) (reason : String) (now : Instant)
    (a : Answer CaseId) : Prop where
  answer : a.2 = .ok id
  told : ∃ inHours, e.settings.hours.isOpen now = .ok inHours ∧
    a.1.commands = e.commands ++ [.notify id reason .initial
      (if inHours then .sendNow else .scheduleNextWindow) (some .initialAlert) now]
  waits : ∃ c q, a.1.get? id = some c ∧ c.resolution = none ∧
    a.1.timers.live = e.timers.live ++ [q] ∧ a.1.timers.live.filter (·.id = id) = [q]

/-- A start has ended at once, with a notice that goes to nobody. -/
structure Dismissed (e : Engine) (id : CaseId) (reason : String) (now : Instant)
    (a : Answer CaseId) : Prop where
  answer : a.2 = .ok id
  told : a.1.commands = e.commands ++ [.notify id reason .initial .closeWorkflow none now,
    .resolved id .closed none now]
  closed : ∃ c, a.1.get? id = some c ∧ c.resolution = some ⟨.closed, none, now⟩
  timers : a.1.timers.live = e.timers.live

def opened (e : Engine) (id : CaseId) (reason : String) (now : Instant) (p : Plan) :
    Answer CaseId :=
  match e.commit (.fresh id reason now) .initial now p with
  | (e, .ok c) => ({ e with cases := e.cases ++ [c] }, .ok id)
  | (e, .error err) => (e, .error err)

theorem start_eq (e : Engine) (id : CaseId) (reason : String) (now : Instant) :
    e.start id reason now =
      (do return e.opened id reason now (← e.plan (.fresh id reason now) .initial now)) := by
  rw [start, transition_eq rfl]
  cases e.plan (.fresh id reason now) .initial now with
  | error f => rfl
  | ok p =>
    simp only [Except.map, ok_bind, opened]
    rcases e.commit (.fresh id reason now) .initial now p with ⟨e₁, err | c⟩ <;> rfl

theorem opened_of_wake (hl : e.listening = true) (havail : e.timers.refusal = none)
    (hw : p.wake? = some (wakeReason, wakeAt)) :
    e.opened id reason now p =
      ({ e with
          lastSeq := e.lastSeq + 1
          timers := e.timers.rearm none ⟨id, e.lastSeq + 1, wakeAt⟩
          commands := e.commands ++ p.notices (.fresh id reason now) now
          cases := e.cases ++ [{ p.advance (.fresh id reason now) .initial now with
            wake := some ⟨wakeReason, wakeAt, e.lastSeq + 1, e.timers.entries.length⟩ }] },
        .ok id) := by
  simp only [opened, commit, hw, havail, tell, hl, if_true]
  rfl

theorem opened_of_conclude (hl : e.listening = true) (kind : Option NoticeKind) :
    e.opened id reason now (.conclude kind) =
      ({ e with
          commands := e.commands ++ [.notify id reason .initial .closeWorkflow kind now,
            .resolved id .closed none now]
          cases := e.cases ++ [(Case.fresh id reason now).ended .closed none now] },
        .ok id) := by
  simp only [opened, commit, Plan.wake?, tell, hl, if_true]
  rfl

def alertPlan (inHours : Bool) (wakeAt : Instant) : Plan :=
  if inHours then .send (some .initialAlert) wakeAt else .defer (some .initialAlert) wakeAt

section Fresh

variable (hr : Registry ids e) (hid : id ∉ ids)
include hr hid

theorem get?_of_new : e.get? id = none := get?_of_file (hr.file_eq_empty hid)

theorem get?_added {e₁ : Engine} (hcs : e₁.cases = e.cases) {c : Case} (hc : c.id = id) :
    get? { e₁ with cases := e₁.cases ++ [c] } id = some c := by
  rw [get?_append e₁ hcs, get?_of_new hr hid, Option.none_or, if_pos hc]

theorem live_of_new : e.timers.live.filter (·.id = id) = [] := by
  refine List.filter_eq_nil_iff.2 fun q hq => ?_
  obtain ⟨entry, hentry, rfl⟩ := List.mem_map.1 hq
  have harmed : entry.1 ∈ e.timers.armed := List.mem_map_of_mem (List.mem_of_mem_filter hentry)
  simpa using fun h : entry.1.id = id => hid (h ▸ hr.armed entry.1 harmed)

theorem alerted_of_plan {inHours : Bool} (havail : e.timers.refusal = none)
    (hopen : e.settings.hours.isOpen now = .ok inHours) (wakeAt : Instant) :
    Alerted e id reason now (e.opened id reason now (alertPlan inHours wakeAt)) := by
  let q : WakeRequest := ⟨id, e.lastSeq + 1, wakeAt⟩
  have hlive : (e.timers.rearm none q).live = e.timers.live ++ [q] := e.timers.live_append q
  have hown : (e.timers.rearm none q).live.filter (·.id = id) = [q] := by
    have hself : decide (q.id = id) = true := decide_eq_true rfl
    rw [hlive, List.filter_append, live_of_new hr hid, List.nil_append,
      List.filter_singleton, hself]
    rfl
  cases inHours with
  | true =>
    have hw : (alertPlan true wakeAt).wake? = some (.nextStage, wakeAt) := rfl
    rw [opened_of_wake hr.listening havail hw]
    exact ⟨rfl, ⟨true, hopen, rfl⟩, _, _, get?_added hr hid rfl rfl, rfl, hlive, hown⟩
  | false =>
    have hw : (alertPlan false wakeAt).wake? = some (.deferred, wakeAt) := rfl
    rw [opened_of_wake hr.listening havail hw]
    exact ⟨rfl, ⟨false, hopen, rfl⟩, _, _, get?_added hr hid rfl rfl, rfl, hlive, hown⟩

theorem dismissed_of_plan :
    Dismissed e id reason now (e.opened id reason now (.conclude none)) := by
  rw [opened_of_conclude hr.listening]
  exact ⟨rfl, rfl, ⟨_, get?_added hr hid rfl rfl, rfl⟩, rfl⟩

end Fresh

section Plan

variable (hd : e.settings.hours.Daily) (ht : e.table = .notificationAction)
include hd ht

theorem decideStage_ends (c : Case) (stage : Stage) (now : Instant) :
    (e.decideStage c stage now).Ends fun r => ∃ inHours,
      e.settings.hours.isOpen now = .ok inHours ∧
      r = (Decision.decide .notificationAction (Decision.facts c.reason stage inHours)).map
        (Option.map fun d => if d.action = .sendNow ∧ inHours = false then
          { d with action := .scheduleNextWindow } else d) :=
  (hd.isOpen_ends now).self.bind fun inHours hopen => Checked.ends_ok ⟨inHours, hopen, by rw [ht]⟩

theorem plan_alert {wait₁ wait₂ : Span} (ha : e.settings.Accepted wait₁ wait₂)
    (hreason : reason ∈ Table.escalatingReasons) :
    (e.plan (.fresh id reason now) .initial now).Ends fun p => ∃ inHours wakeAt,
      e.settings.hours.isOpen now = .ok inHours ∧ p = alertPlan inHours wakeAt := by
  refine (decideStage_ends hd ht _ _ now).bind ?_
  rintro r ⟨inHours, hopen, hr⟩
  cases inHours with
  | true =>
    obtain ⟨rule, hdecide⟩ := Timetable.decide_phase hreason .alerted
    obtain rfl : r = .ok (some ⟨.sendNow, some .initialAlert, rule⟩) := by
      rw [hr]
      exact congrArg (Except.map _) hdecide
    have hnext : (e.nextStageAt .initial now now).Ends fun w => ∃ wakeAt, w = some wakeAt := by
      simp only [nextStageAt, Stage.next?, ha.followUp1]
      exact (hd.add_returns now wait₁).bind fun u _ => Checked.ends_ok ⟨u.max now, rfl⟩
    refine hnext.bind ?_
    rintro w ⟨wakeAt, rfl⟩
    exact Checked.ends_ok ⟨true, wakeAt, hopen, rfl⟩
  | false =>
    obtain ⟨rule, hdecide⟩ := Timetable.decide_phase hreason .deferred
    obtain rfl : r = .ok (some ⟨.scheduleNextWindow, some .initialAlert, rule⟩) := by
      rw [hr]
      exact congrArg (Except.map _) hdecide
    exact (e.settings.hours.nextStart_ends now).bind fun wakeAt _ =>
      Checked.ends_ok ⟨false, wakeAt, hopen, rfl⟩

theorem plan_dismissal (hreason : reason ∉ Table.escalatingReasons) :
    (e.plan (.fresh id reason now) .initial now).Ends fun p => p = .conclude none := by
  refine (decideStage_ends hd ht _ _ now).bind ?_
  rintro r ⟨inHours, -, hr⟩
  obtain rfl : r = .ok (some ⟨.closeWorkflow, none, some 0⟩) := by
    rw [hr]
    exact congrArg (Except.map _) (decide_other hreason .initial inHours)
  exact Checked.ends_ok rfl

end Plan

/-- The tables of an intake and of an escalation agree. An intake succeeds just if there is one
application with all that it requires, and any other one is classified by a reason on which a start
alerts: in business hours at once, and else with the next window; the case is left open, with one
timer. A start for any reason that the table does not have is closed without a word. Nothing but the
end of the calendar keeps a start from that, and it is out of reach of the years from 1970 to 9999
for settings whose times are shorter than the calendar. -/
theorem tables_agree (h₀ : Initial e₀) (ht : e₀.table = .notificationAction)
    (hz : e₀.settings.hours.zone = .fixed offset) (hids : (startsOf l).Nodup) (h : Runs e₀ l e)
    (havail : e.timers.refusal = none) (hid : id ∉ startsOf l) (now : Instant) :
    (∀ count present, ∃ c, classify .applicationValidation count present = .ok (some c) ∧
      (c = "SUCCESS" ↔ count = 1 ∧ present = true) ∧
      (c ≠ "SUCCESS" → c ∈ Table.escalatingReasons)) ∧
    (∀ reason ∈ Table.escalatingReasons,
      (e.start id reason now).Ends (Alerted e id reason now)) ∧
    (∀ reason ∉ Table.escalatingReasons,
      (e.start id reason now).Ends (Dismissed e id reason now)) ∧
    (∀ lookup reason, (Settings.ofLookup lookup).run = .ok (.ok e₀.settings) →
      e₀.settings.Bounded offset → now.Modern → ∃ a, e.start id reason now = .ok a) := by
  obtain ⟨hreg, hsettings, htable⟩ :
      Registry (startsOf l) e ∧ e.settings = e₀.settings ∧ e.table = e₀.table :=
    h.invariant (P := fun _ e => e.settings = e₀.settings ∧ e.table = e₀.table)
      (registry_of_initial h₀) ⟨rfl, rfl⟩
      (fun _ _ _ hp hdone => ⟨hdone.settings_eq.trans hp.1, hdone.table_eq.trans hp.2⟩) hids
  have hd : e.settings.hours.Daily := hsettings ▸ BusinessHours.daily_of_fixed hz
  obtain ⟨hvalid, -⟩ := initial_cases h₀
  obtain ⟨wait₁, wait₂, ha⟩ := Settings.accepted_of_validate hvalid
  refine ⟨fun count present => ⟨_, classify_applicationValidation count present,
    Table.classification_eq_success, Table.classification_escalates⟩, fun reason hreason => ?_,
    fun reason hreason => ?_, fun lookup reason hread hbound hnow => ?_⟩
  · rw [start_eq]
    refine (plan_alert hd (htable.trans ht) (hsettings ▸ ha) hreason).bind ?_
    rintro p ⟨inHours, wakeAt, hopen, rfl⟩
    exact Checked.ends_ok (alerted_of_plan hreg hid havail hopen wakeAt)
  · rw [start_eq]
    refine (plan_dismissal hd (htable.trans ht) hreason).bind ?_
    rintro p rfl
    exact Checked.ends_ok (dismissed_of_plan hreg hid)
  · have hanswers : e.settings.Answers := hsettings ▸ Settings.answers_of_bounded hread hbound
    have hfresh : (Case.fresh id reason now).Modern := fun t ht => nomatch ht
    obtain ⟨p, hp⟩ := exists_plan hanswers hfresh hnow .initial
    rw [start_eq, hp]
    exact ⟨_, rfl⟩

theorem tables_agree_reminded :
    Initial standard ∧ standard.table = .notificationAction ∧
      standard.settings.hours.zone = .fixed .utc ∧ (startsOf toReminded).Nodup ∧
      Runs standard toReminded reminded ∧ reminded.timers.refusal = none ∧
      ⟨2⟩ ∉ startsOf toReminded ∧ ∃ reason a,
        classify .applicationValidation 2 true = .ok (some reason) ∧
        reminded.start ⟨2⟩ reason ⟨1792407600, 0⟩ = .ok a ∧
        Alerted reminded ⟨2⟩ reason ⟨1792407600, 0⟩ a := by
  have hids : (startsOf toReminded).Nodup := List.nodup_singleton (⟨1⟩ : CaseId)
  have hid : (⟨2⟩ : CaseId) ∉ startsOf toReminded := by decide
  obtain ⟨classifies, alerts, -, -⟩ := tables_agree initial_standard rfl
    (rfl : standard.settings.hours.zone = .fixed .utc) hids runs_toReminded rfl hid
    ⟨1792407600, 0⟩
  obtain ⟨reason, hreason, hsuccess, hlisted⟩ := classifies 2 true
  obtain rfl : reason = "MULTI_APPLICATION" := (Option.some.inj (Except.ok.inj hreason)).symm
  have halerts := alerts "MULTI_APPLICATION" (hlisted (by decide))
  exact ⟨initial_standard, rfl, rfl, hids, runs_toReminded, rfl, hid, _, _, hreason, rfl,
    halerts.of_eq_ok rfl⟩

end Followup.Engine
