import Followup.Proofs.BusinessHours.Reach
import Followup.Proofs.Engine.Bystander
import Followup.Proofs.Settings.Lookup

/-! Which settings keep an engine from faults. Settings are accepted with waits and times to keep a
case of any length, and some are longer than the calendar. While they are shorter than that, every
operation returns, in all the years from 1970 to 9999. -/

namespace Followup

theorem Reading.Modern.dateAt {t : Instant} (ht : t.Modern) (h : BusinessHours) :
    -1 ≤ (h.dateAt t).day ∧ (h.dateAt t).day ≤ 2932897 := by
  have hfirst := ht.first
  have hlast := ht.last
  have hwest := h.day_dateAt t
  have heast := h.le_day_dateAt t
  omega

namespace Settings

variable {s : Settings} {offset : Offset} {lookup : String → Option String}

/-- Resolved cases are kept for no longer than there are days before 1970, and the deadline needs no
more than thirteen million windows, which are a quarter of a million years at one window a week. -/
structure Bounded (s : Settings) (offset : Offset) : Prop where
  fixed : s.hours.zone = .fixed offset
  retention : s.retention ≤ .ofDays (-Date.firstDay)
  deadline : s.deadline.nanos ≤ 13000000 * (s.hours.windowLength offset).nanos

structure AnswersAt (s : Settings) (P : Instant → Prop) : Prop where
  isOpen : ∀ t : Instant, P t → ∃ b, s.hours.isOpen t = .ok b
  nextStart : ∀ t : Instant, P t → ∃ u, s.hours.nextStart t = .ok u
  wait : ∀ (t : Instant) stage wait, P t → s.waitBefore stage = some wait →
    ∃ u, s.hours.add t wait = .ok u
  deadline : ∀ t : Instant, P t → ∃ u, s.hours.add t s.deadline = .ok u
  between : ∀ t u : Instant, P t → P u → ∃ b, s.hours.between t u = .ok b
  cutoff : ∀ t : Instant, P t → ∃ u, t.sub s.retention = .ok u

abbrev Answers (s : Settings) : Prop := s.AnswersAt Reading.Modern

/-- A time from which the searches of the settings do not come to the ends of the calendar: not those
for the deadline, which go through as many windows as it needs and hardly more than a week for each,
and not the one for what has been kept long enough. -/
structure Clear (s : Settings) (offset : Offset) (t : Instant) : Prop where
  nano_lt : t.nano < 2000000000
  first : Date.firstDay < (s.hours.dateAt t).day
  last : ∃ windows : Nat, s.deadline.nanos ≤ windows * (s.hours.windowLength offset).nanos ∧
    (s.hours.dateAt t).day + 7 * (windows + 3) < Date.lastDay
  cutoff : (t.shift (-s.retention)).InRange

theorem Clear.inside {t : Instant} (ht : s.Clear offset t) :
    Date.firstDay < (s.hours.dateAt t).day ∧ (s.hours.dateAt t).day + 7 < Date.lastDay := by
  obtain ⟨windows, -, hlast⟩ := ht.last
  exact ⟨ht.first, by omega⟩

theorem answersAt_clear (hvalid : s.validate.run = .ok (.ok ())) (hstart : s.hours.start.IsWhole)
    (hfinish : s.hours.finish.IsWhole) (hz : s.hours.zone = .fixed offset) :
    s.AnswersAt (s.Clear offset) := by
  obtain ⟨wait₁, wait₂, ha⟩ := accepted_of_validate hvalid
  have hadd {t : Instant} (ht : s.Clear offset t) {amount : Span} (hamount : amount ≤ s.deadline) :
      ∃ u, s.hours.add t amount = .ok u := by
    obtain ⟨windows, hdeadline, hlast⟩ := ht.last
    have hpos := ha.deadline_pos
    rw [Span.lt_def, Span.nanos_zero] at hpos
    -- A deadline that takes some time is not made up of windows without any.
    have hlength : .zero < s.hours.windowLength offset := by
      rw [Span.lt_def, Span.nanos_zero]
      refine Int.lt_of_mul_lt_mul_left ?_ (Int.natCast_nonneg windows)
      rw [Int.mul_zero]
      exact Int.lt_of_lt_of_le hpos hdeadline
    have hsecond := BusinessHours.le_windowLength hstart hfinish hlength
    exact BusinessHours.exists_add hz hfinish.nano_le ht.nano_lt ht.first windows hlast hsecond
      (Int.le_trans hamount hdeadline)
  constructor
  · intro t ht
    obtain ⟨hfirst, hlast⟩ := ht.inside
    exact BusinessHours.isOpen_ok ⟨by omega, by omega⟩
      (BusinessHours.known_of_lt hfirst (by omega))
  · intro t ht
    obtain ⟨hfirst, hlast⟩ := ht.inside
    obtain ⟨d, u, f, hnext, -⟩ := BusinessHours.exists_nextWindow hz hfirst hlast
    exact ⟨u, hnext⟩
  · intro t stage wait ht hw
    exact hadd ht (Int.le_of_lt (ha.wait_lt hw))
  · intro t ht
    exact hadd ht (Int.le_refl _)
  · intro t u ht hu
    obtain ⟨htfirst, htlast⟩ := ht.inside
    obtain ⟨hufirst, hulast⟩ := hu.inside
    exact BusinessHours.exists_between htfirst (by omega) hufirst (by omega)
  · intro t ht
    exact ⟨_, if_pos ht.cutoff⟩

theorem AnswersAt.mono {P Q : Instant → Prop} (ha : s.AnswersAt Q) (hpq : ∀ t, P t → Q t) :
    s.AnswersAt P where
  isOpen t ht := ha.isOpen t (hpq t ht)
  nextStart t ht := ha.nextStart t (hpq t ht)
  wait t stage wait ht := ha.wait t stage wait (hpq t ht)
  deadline t ht := ha.deadline t (hpq t ht)
  between t u ht hu := ha.between t u (hpq t ht) (hpq u hu)
  cutoff t ht := ha.cutoff t (hpq t ht)

theorem Bounded.clear (hb : s.Bounded offset) (hretention : .zero ≤ s.retention) {t : Instant}
    (ht : t.Modern) : s.Clear offset t := by
  obtain ⟨hfirst, hlast⟩ := ht.dateAt s.hours
  obtain ⟨u, hu⟩ := (Reading.exists_sub_iff hretention).2 hb.retention t ht
  refine ⟨ht.nano_lt, ?_, ⟨13000000, hb.deadline, ?_⟩, (Reading.checked_eq_ok.1 hu).1⟩
  · rw [Date.firstDay]
    omega
  · rw [Date.lastDay]
    omega

theorem answers_of_bounded (hs : (ofLookup lookup).run = .ok (.ok s)) (hb : s.Bounded offset) :
    s.Answers := by
  obtain ⟨hvalid, ⟨hstart, hfinish⟩, hretention⟩ := of_ofLookup hs
  exact (answersAt_clear hvalid hstart hfinish hb.fixed).mono fun _ ht => hb.clear hretention ht

end Settings

def Operation.now? : Operation → Option Instant
  | start _ _ now | respond _ now | evaluate _ now | setClock now => some now
  | _ => none

variable {P : Instant → Prop}

def Case.SentAt (c : Case) (P : Instant → Prop) : Prop := ∀ t ∈ c.firstSent, P t

abbrev Case.Modern (c : Case) : Prop := c.SentAt Reading.Modern

theorem Plan.sentAt_advance {c : Case} {now : Instant} (hc : c.SentAt P) (hnow : P now)
    (p : Plan) (stage : Stage) : (p.advance c stage now).SentAt P := by
  cases p with
  | send =>
    rintro t ht
    obtain rfl := Option.some.inj ht
    cases hf : c.firstSent with
    | none => exact hnow
    | some first => exact hc first hf
  | fail | conclude | defer | sendLast =>
    exact fun t ht => hc t ((Case.enter_firstSent c stage).symm.trans ht)

namespace Engine

variable {e e' e₀ : Engine} {c c' : Case} {now : Instant} {target : Option Stage}
  {op : Operation} {ops : List Operation}

structure Within (e : Engine) (P : Instant → Prop) : Prop where
  answers : e.settings.AnswersAt P
  clock : P e.clock.now
  cases : ∀ c ∈ e.cases, c.SentAt P

abbrev Modern (e : Engine) : Prop := e.Within Reading.Modern

theorem Moved.sentAt (h : Moved e c now target e' c') (hc : c.SentAt P) (hnow : P now) :
    c'.SentAt P := by
  cases h with
  | rearmed | closed => exact Plan.sentAt_advance hc hnow _ _
  | ended => exact hc

theorem exists_decideStage (ha : e.settings.AnswersAt P) (hnow : P now) (c : Case)
    (stage : Stage) : ∃ r, e.decideStage c stage now = .ok r := by
  obtain ⟨b, hopen⟩ := ha.isOpen now hnow
  exact ⟨_, by rw [decideStage, hopen, ok_bind]; rfl⟩

theorem exists_nextStageAt {firstSent : Instant} (ha : e.settings.AnswersAt P) (hnow : P now)
    (hfirst : P firstSent) (stage : Stage) :
    ∃ wakeAt?, e.nextStageAt stage firstSent now = .ok wakeAt? := by
  rw [nextStageAt]
  cases stage.next? with
  | none => exact ⟨none, rfl⟩
  | some next =>
    dsimp only
    cases hw : e.settings.waitBefore next with
    | none =>
      obtain ⟨u, hu⟩ := ha.deadline firstSent hfirst
      exact ⟨_, by dsimp only; rw [hu]; rfl⟩
    | some wait =>
      obtain ⟨u, hu⟩ := ha.wait now next wait hnow hw
      exact ⟨_, by dsimp only; rw [hu]; rfl⟩

theorem exists_plan (ha : e.settings.AnswersAt P) (hc : c.SentAt P) (hnow : P now) (stage : Stage) :
    ∃ p, e.plan c stage now = .ok p := by
  have hfirst : P (c.firstSent.getD now) := by
    cases hf : c.firstSent with
    | none => exact hnow
    | some first => exact hc first hf
  obtain ⟨r, hr⟩ := exists_decideStage ha hnow c stage
  rw [plan, hr, ok_bind]
  rcases r with err | _ | d
  · exact ⟨_, rfl⟩
  · exact ⟨_, rfl⟩
  · dsimp only
    rw [planFor]
    cases d.action with
    | closeWorkflow => exact ⟨_, rfl⟩
    | scheduleNextWindow =>
      obtain ⟨wakeAt, hnext⟩ := ha.nextStart now hnow
      exact ⟨_, by dsimp only; rw [hnext]; rfl⟩
    | sendNow =>
      obtain ⟨wakeAt?, hnext⟩ := exists_nextStageAt ha hnow hfirst stage
      dsimp only
      rw [hnext, ok_bind]
      cases wakeAt? with
      | none => exact ⟨_, rfl⟩
      | some wakeAt => exact ⟨_, rfl⟩

theorem exists_transition (ha : e.settings.AnswersAt P) (hc : c.SentAt P) (hnow : P now)
    (ho : c.resolution = none) (stage : Stage) : ∃ a, e.transition c stage now = .ok a := by
  obtain ⟨p, hp⟩ := exists_plan ha hc hnow stage
  rw [transition_eq ho, hp]
  exact ⟨_, rfl⟩

theorem exists_account (ha : e.settings.AnswersAt P) (hc : c.SentAt P) (hnow : P now) :
    ∃ c', e.accountElapsed c now = .ok c' := by
  rw [accountElapsed]
  cases hf : c.firstSent with
  | none => exact ⟨c, rfl⟩
  | some first =>
    obtain ⟨d, hd⟩ := ha.between first now (hc first hf) hnow
    exact ⟨_, by dsimp only; rw [hd]; rfl⟩

theorem sentAt_account (hc : c.SentAt P) (h : e.accountElapsed c now = .ok c') : c'.SentAt P := by
  obtain ⟨⟨elapsed, rfl⟩, -⟩ := accountElapsed_cases h
  exact hc

theorem Within.of_same (he : e.Within P) (hs : SameSurroundings e e')
    (hcases : ∀ c ∈ e'.cases, c ∈ e.cases) : e'.Within P :=
  ⟨hs.settings ▸ he.answers, hs.clock ▸ he.clock, fun c hc => he.cases c (hcases c hc)⟩

theorem Within.filter (he : e.Within P) (keep : Case → Bool) :
    Within { e with cases := e.cases.filter keep } P :=
  ⟨he.answers, he.clock, fun c hc => he.cases c (List.mem_filter.1 hc).1⟩

theorem Within.withCase (he : e.Within P) (hc : c.SentAt P) :
    Within { e with cases := e.cases ++ [c] } P := by
  refine ⟨he.answers, he.clock, fun d hd => ?_⟩
  rcases List.mem_append.1 hd with hd | hd
  · exact he.cases d hd
  · exact List.mem_singleton.1 hd ▸ hc

theorem Within.update (he : e.Within P) (hc : c.SentAt P) : (e.update c).Within P := by
  refine ⟨he.answers, he.clock, fun d hd => ?_⟩
  obtain ⟨d', hd', rfl⟩ := List.mem_map.1 hd
  split
  · exact hc
  · exact he.cases d' hd'

theorem Within.moved (he : e.Within P) (hm : Moved e c now target e' c') : e'.Within P :=
  he.of_same hm.surroundings fun _ hd => hm.cases_eq ▸ hd

theorem Within.used (he : e.Within P) (n : Nat) : Within { e with lastSeq := n } P :=
  ⟨he.answers, he.clock, he.cases⟩

theorem exists_start (he : e.Within P) (hnow : P now) (id : CaseId) (reason : String) :
    ∃ a, e.start id reason now = .ok a ∧ a.1.Within P := by
  have hfresh : (Case.fresh id reason now).SentAt P := fun t ht => nomatch ht
  obtain ⟨⟨e₁, r⟩, htr⟩ := exists_transition he.answers hfresh hnow rfl .initial
  rw [start, htr, ok_bind]
  rcases transition_cases rfl htr with ⟨refusal, rfl, rfl⟩ | ⟨c, rfl, hm⟩
  · exact ⟨_, rfl, he.used _⟩
  · exact ⟨_, rfl, (he.moved hm).withCase (hm.sentAt hfresh hnow)⟩

theorem exists_fire (he : e.Within P) (hc : c.SentAt P) (seq? : Option Nat) :
    ∃ a, e.fire c seq? = .ok a := by
  rw [fire]
  split
  · exact ⟨_, rfl⟩
  next hr =>
  have ho := Case.not_isResolved.1 hr
  split
  · exact ⟨_, rfl⟩
  split
  · exact ⟨_, rfl⟩
  next now hclock =>
  have hnow : P now := now_of_read hclock ▸ he.clock
  split
  · obtain ⟨c', hacc⟩ := exists_account he.answers hc hnow
    exact ⟨_, by rw [hacc]; rfl⟩
  · next stage _ =>
    obtain ⟨⟨e₁, r⟩, htr⟩ := exists_transition he.answers hc hnow ho stage
    rw [htr, ok_bind]
    rcases transition_cases ho htr with ⟨refusal, rfl, rfl⟩ | ⟨c₁, rfl, hm⟩
    · exact ⟨_, rfl⟩
    · obtain ⟨c', hacc⟩ := exists_account (hm.settings_eq ▸ he.answers) (hm.sentAt hc hnow) hnow
      exact ⟨_, by dsimp only; rw [hacc]; rfl⟩

theorem exists_wakeCase (he : e.Within P) (id : CaseId) (seq? : Option Nat) :
    ∃ a, e.wakeCase id seq? = .ok a ∧ a.1.Within P := by
  rw [wakeCase]
  cases hget : e.get? id with
  | none => exact ⟨_, rfl, he⟩
  | some c =>
    have hc := he.cases c (List.mem_of_find?_eq_some hget)
    obtain ⟨⟨e₁, r⟩, hf⟩ := exists_fire he hc seq?
    dsimp only
    rw [hf, ok_bind]
    rcases fire_cases hf with
      ⟨rfl, rfl, -⟩ | ⟨cause, n, -, rfl, rfl⟩ | ⟨now, c₁, c', -, -, hclock, hm, hacc, -, rfl⟩
    · exact ⟨_, rfl, he.update hc⟩
    · exact ⟨_, rfl, he.used n⟩
    · have hnow : P now := now_of_read hclock ▸ he.clock
      exact ⟨_, rfl, (he.moved hm).update (sentAt_account (hm.sentAt hc hnow) hacc)⟩

theorem exists_onExternalResponse (he : e.Within P) (hnow : P now) (id : CaseId) :
    ∃ a, e.onExternalResponse id now = .ok a ∧ a.1.Within P := by
  rw [onExternalResponse]
  cases hget : e.get? id with
  | none => exact ⟨_, rfl, he⟩
  | some c =>
    have hc := he.cases c (List.mem_of_find?_eq_some hget)
    dsimp only
    split
    · exact ⟨_, rfl, he⟩
    next hr =>
    have ho := Case.not_isResolved.1 hr
    obtain ⟨c₁, hacc⟩ := exists_account he.answers hc hnow
    obtain ⟨⟨elapsed, hc₁⟩, -⟩ := accountElapsed_cases hacc
    have ho₁ : c₁.resolution = none := hc₁ ▸ ho
    have hended : (c₁.ended .resumed none now).SentAt P := fun t ht => sentAt_account hc hacc t ht
    rw [hacc, ok_bind, resolve_eq _ ho₁]
    refine ⟨_, rfl, Within.update ?_ hended⟩
    exact he.of_same ((surroundings_release e _).trans (surroundings_tell _ _)) fun d hd => by
      rwa [tell_cases] at hd

theorem exists_evaluateStage (he : e.Within P) (hnow : P now) (id : CaseId) :
    ∃ r, e.evaluateStage id now = .ok r := by
  rw [evaluateStage]
  cases e.get? id with
  | none => exact ⟨_, rfl⟩
  | some c =>
    obtain ⟨r, hr⟩ := exists_decideStage he.answers hnow c c.stage
    dsimp only
    rw [hr, ok_bind]
    cases r with
    | error err => exact ⟨_, rfl⟩
    | ok d => exact ⟨_, rfl⟩

theorem within_remove (he : e.Within P) (id : CaseId) : (e.remove id).1.Within P := by
  rw [remove]
  split
  · exact he
  · split
    · exact he.filter _
    · exact he

theorem exists_purgeExpired (he : e.Within P) : ∃ a, e.purgeExpired = .ok a ∧ a.1.Within P := by
  rw [purgeExpired]
  split
  · exact ⟨_, rfl, he⟩
  next now hclock =>
  obtain ⟨cutoff, hcutoff⟩ := he.answers.cutoff now (now_of_read hclock ▸ he.clock)
  rw [hcutoff, ok_bind]
  exact ⟨_, rfl, he.filter _⟩

theorem exists_perform (he : e.Within P) (hop : ∀ t ∈ op.now?, P t) :
    ∃ a, e.perform op = .ok a ∧ a.1.Within P := by
  cases op with
  | start id reason now =>
    obtain ⟨a, ha, hwithin⟩ := exists_start he (hop now rfl) id reason
    exact ⟨_, by rw [perform, ha]; rfl, hwithin⟩
  | timerFired id seq =>
    obtain ⟨a, ha, hwithin⟩ := exists_wakeCase he id (some seq)
    exact ⟨_, by rw [perform, handleTimerFired, ha]; rfl, hwithin⟩
  | fire id =>
    obtain ⟨a, ha, hwithin⟩ := exists_wakeCase he id none
    exact ⟨_, by rw [perform, onTimerFire, ha]; rfl, hwithin⟩
  | respond id now =>
    obtain ⟨a, ha, hwithin⟩ := exists_onExternalResponse he (hop now rfl) id
    exact ⟨_, by rw [perform, ha]; rfl, hwithin⟩
  | evaluate id now =>
    obtain ⟨r, hr⟩ := exists_evaluateStage he (hop now rfl) id
    exact ⟨_, by rw [perform, hr]; rfl, he⟩
  | snapshot id => exact ⟨_, rfl, he⟩
  | remove id => exact ⟨_, rfl, within_remove he id⟩
  | purgeResolved cutoff =>
    exact ⟨_, rfl, he.filter _⟩
  | purgeExpired =>
    obtain ⟨a, ha, hwithin⟩ := exists_purgeExpired he
    exact ⟨_, by rw [perform, ha]; rfl, hwithin⟩
  | setClock now => exact ⟨_, rfl, he.answers, hop now rfl, he.cases⟩
  | setOutage outage => exact ⟨_, rfl, he.answers, he.clock, he.cases⟩
  | setRefusal refusal => exact ⟨_, rfl, he.answers, he.clock, he.cases⟩

theorem exists_run (he : e.Within P) (hops : ∀ op ∈ ops, ∀ t ∈ op.now?, P t) :
    ∃ e', run ops e = .ok e' ∧ e'.Within P := by
  induction ops generalizing e with
  | nil => exact ⟨e, rfl, he⟩
  | cons op ops ih =>
    rw [List.forall_mem_cons] at hops
    obtain ⟨a, ha, hwithin⟩ := exists_perform he hops.1
    rw [run, ha, ok_bind]
    exact ih hwithin hops.2

/-- Under accepted settings at a fixed offset that are bounded, an engine never faults: whatever the
table and whatever happens in the years 1970 to 9999, each operation returns an answer or an
error. -/
theorem never_faults {lookup : String → Option String} {offset : Offset}
    (hs : (Settings.ofLookup lookup).run = .ok (.ok e₀.settings))
    (hb : e₀.settings.Bounded offset) (h₀ : Initial e₀) (hclock : e₀.clock.now.Modern)
    (hops : ∀ op ∈ ops, ∀ t ∈ op.now?, t.Modern) : ∃ e, run ops e₀ = .ok e := by
  obtain ⟨-, -, hcases, -⟩ := initial_cases h₀
  have he₀ : e₀.Modern := ⟨Settings.answers_of_bounded hs hb, hclock, by simp [hcases]⟩
  obtain ⟨e, hrun, -⟩ := exists_run he₀ hops
  exact ⟨e, hrun⟩

theorem never_faults_sample :
    (Settings.ofLookup fun _ => none).run = .ok (.ok standard.settings) ∧
      standard.settings.Bounded .utc ∧ Initial standard ∧
      ∃ e, run (sample ++ [.purgeExpired]) standard = .ok e := by
  have hs : (Settings.ofLookup fun _ => none).run = .ok (.ok standard.settings) :=
    Settings.ofLookup_of_retention (fun _ _ => rfl) (d := .ofHours 1) (by decide +kernel)
  have hb : standard.settings.Bounded .utc := ⟨rfl, by decide, by decide⟩
  exact ⟨hs, hb, initial_standard, never_faults hs hb initial_standard (by decide) (by decide)⟩

def hoarding (key : String) : Option String :=
  if key = "RESOLVED_RETENTION" then some "9000000000000s" else none

def hoarder : Engine :=
  { standard with
    settings := { Settings.standard with retention := .ofSeconds 9000000000000 } }

theorem hoarder_faults :
    (Settings.ofLookup hoarding).run = .ok (.ok hoarder.settings) ∧
      hoarder.settings.hours.zone = .fixed .utc ∧ hoarder.table = .notificationAction ∧
      Initial hoarder ∧ hoarder.clock.now.Modern ∧
      run [.purgeExpired] hoarder = .error .outOfRange := by
  have hs : (Settings.ofLookup hoarding).run = .ok (.ok hoarder.settings) :=
    Settings.ofLookup_of_retention (fun key hkey => if_neg hkey) (by decide +kernel)
  have h₀ : Initial hoarder :=
    ⟨hoarder.settings, .notificationAction, ⟨⟨1792404000, 0⟩, none⟩, none, rfl⟩
  exact ⟨hs, rfl, rfl, h₀, by decide, rfl⟩

end Engine

end Followup
