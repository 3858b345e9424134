import Followup.Proofs.Engine.Advance

/-! Escalations that run on time under the built-in table. From the start on, every firing that
wakes the case takes it to the next phase of its timetable, and the last one closes it. -/

namespace Followup

namespace Engine

/-- The step does not start the case of an id for another reason or at another time, is no response,
and wakes the case only when the clock reads what the wake-up was armed for. -/
structure Step.OnTime (x : Step) (id : CaseId) (reason : String) (start : Instant) : Prop where
  started : ∀ reason' now, x.op = .start id reason' now → reason' = reason ∧ now = start
  silent : ∀ now, x.op ≠ .respond id now
  woken : ∀ c ∈ x.woken?, c.id = id → ∀ w ∈ c.wake, x.before.clock.now = w.wakeAt

end Engine

namespace Timetable

open Engine

variable {T : Timetable} {s : Settings} {start now : Instant} {id : CaseId} {reason : String}
  {p q : Phase} {k : Nat} {e e' e₀ e₁ : Engine} {c c₁ : Case} {x : Step} {l : List Step}
  {ids : List CaseId} {f : CaseFile}

theorem exists_head (T : Timetable) : ∃ q, T.phases.head? = some q := by
  rw [phases]
  cases T.inHours <;> exact ⟨_, rfl⟩

theorem getElem?_phases_succ (h : T.phases[k]? = some p) : T.phases[k + 1]? = p.next? := by
  rw [phases] at h ⊢
  cases hin : T.inHours <;> rw [hin] at h
  all_goals rcases k with _ | _ | _ | _ | _ | k <;> cases h <;> rfl

theorem closed_iff (h : T.phases[k]? = some p) :
    p = .closed ↔ k = if T.inHours then 3 else 4 := by
  rw [phases] at h
  cases hin : T.inHours <;> rw [hin] at h
  all_goals rcases k with _ | _ | _ | _ | _ | k <;> cases h <;> decide

theorem map_ahead? (T : Timetable) (p : Phase) :
    (T.ahead? p).map Prod.snd = p.next?.map T.time := by
  cases p <;> rfl

structure Shows (T : Timetable) (id : CaseId) (reason : String) (k : Nat) (p : Phase)
    (f : CaseFile) : Prop where
  phase : T.phases[k]? = some p
  told : f.told = (T.phases.take (k + 1)).map (T.notice id reason) ++ T.ending id p
  armed : f.armed.map WakeRequest.wakeAt = (T.phases.tail.take (k + 1)).map T.time
  /-- A closed case may have been evicted. -/
  case? : p = .closed ∧ f.case? = none ∨ ∃ wake, f.case? = some (T.caseAt id reason p wake) ∧
    wake.map (fun w => (w.reason, w.wakeAt)) = T.ahead? p

theorem Shows.of_moved (hg : T.Governs start reason e) (hl : e.listening = true)
    (hk : T.phases[k]? = some q) (h : T.Awaits id reason q c)
    (htold : e.commandsOf id = (T.phases.take k).map (T.notice id reason))
    (harmed : (e.armedFor id).map WakeRequest.wakeAt = (T.phases.tail.take k).map T.time)
    (hm : Moved e c (T.time q) (some q.stage) e₁ c₁) :
    T.Shows id reason k q
      ⟨some { c₁ with elapsed := T.elapsed q }, e₁.commandsOf id, e₁.armedFor id⟩ := by
  obtain ⟨⟨wake, rfl, hwake⟩, htold', harmed'⟩ := h.moved hg hl hm
  refine ⟨hk, ?_, ?_, .inr ⟨wake, rfl, hwake⟩⟩
  · rw [htold', htold, List.take_add_one, hk, List.map_append, List.append_assoc]
    rfl
  · rw [harmed', harmed, map_ahead?, List.take_add_one, List.getElem?_tail,
      getElem?_phases_succ hk, List.map_append]
    cases q.next? <;> rfl

theorem Shows.case_eq (h : T.Shows id reason k p f) (hc : f.case? = some c) :
    ∃ wake, c = T.caseAt id reason p wake ∧
      wake.map (fun w => (w.reason, w.wakeAt)) = T.ahead? p := by
  rcases h.case? with ⟨-, hnone⟩ | ⟨wake, hcase, hwake⟩
  · cases hnone.symm.trans hc
  · exact ⟨wake, Option.some.inj (hc.symm.trans hcase), hwake⟩

theorem next?_of_open {wake : Option Wake} (h : (T.caseAt id reason p wake).resolution = none) :
    ∃ q, p.next? = some q := by
  cases p with
  | closed => cases h
  | deferred | alerted | remindedOnce | remindedTwice => exact ⟨_, rfl⟩

theorem Shows.isResolved_iff (h : T.Shows id reason k p f) (hc : f.case? = some c) :
    c.isResolved ↔ p = .closed := by
  obtain ⟨wake, rfl, -⟩ := h.case_eq hc
  cases p with
  | closed => exact iff_of_true rfl rfl
  | deferred | alerted | remindedOnce | remindedTwice => exact iff_of_false Bool.false_ne_true nofun

theorem Shows.not_empty (h : T.Shows id reason k p f) : f ≠ .empty := by
  rintro rfl
  rcases h.case? with ⟨rfl, -⟩ | ⟨wake, hcase, -⟩
  · exact List.cons_ne_nil _ _ (List.append_eq_nil_iff.1 h.told.symm).2
  · cases hcase

theorem Shows.woken (hg : T.Governs start reason x.before) (hl : x.before.listening = true)
    (hot : x.OnTime id reason start) (hs : T.Shows id reason k p (x.before.file id))
    {c' : Case} (hw : x.woken? = some c) (hid : c.id = id) (hc : x.before.get? id = some c)
    (ho : c.resolution = none) (hclock : x.before.clock.read = .ok now)
    (hm : Moved x.before c now (wakeTarget c) e₁ c₁)
    (ha : x.before.accountElapsed c₁ now = .ok c')
    (hfile : x.after.file id = ⟨some c', e₁.commandsOf id, e₁.armedFor id⟩) :
    ∃ q, T.Shows id reason (k + 1) q (x.after.file id) := by
  obtain ⟨wake, rfl, hwake⟩ := hs.case_eq hc
  obtain ⟨q, hnext⟩ := next?_of_open ho
  obtain ⟨w, rfl, hat, htarget⟩ := wakeTarget_caseAt id reason hnext hwake
  -- The firing comes when it is due, so the clock reads the time of the next phase.
  obtain rfl : now = T.time q :=
    (now_of_read hclock).trans ((hot.woken _ hw hid w rfl).trans hat)
  have hawaits : T.Awaits id reason q (T.caseAt id reason p (some w)) := .after hnext _
  rw [htarget] at hm
  have hcase : c' = { c₁ with elapsed := T.elapsed q } := by
    obtain ⟨⟨wake, rfl, -⟩, -, -⟩ := hawaits.moved hg hl hm
    exact Except.ok.inj (ha.symm.trans (hawaits.account hg wake))
  have hending : T.ending id p = [] := by
    cases p with
    | closed => cases hnext
    | deferred | alerted | remindedOnce | remindedTwice => rfl
  rw [hfile, hcase]
  refine ⟨q, .of_moved hg hl ((getElem?_phases_succ hs.phase).trans hnext) hawaits ?_ hs.armed hm⟩
  rw [show x.before.commandsOf id = _ from hs.told, hending, List.append_nil]

theorem Shows.started (hg : T.Governs start reason e) (hl : e.listening = true)
    (hnone : e.file id = .empty)
    (hm : Moved e (.fresh id reason start) start (some .initial) e₁ c) :
    ∃ q, T.Shows id reason 0 q ⟨some c, e₁.commandsOf id, e₁.armedFor id⟩ := by
  obtain ⟨q, hq⟩ := T.exists_head
  obtain rfl := hg.fits.time_head hq
  have hawaits : T.Awaits id reason q (.fresh id reason (T.time q)) := hg.fits.start ▸ .fresh hq
  have hstage : q.stage = .initial ∧ T.elapsed q = .zero := by
    rcases head_phases hq with ⟨-, rfl⟩ | ⟨-, rfl⟩ <;> exact ⟨rfl, rfl⟩
  rw [← hstage.1] at hm
  -- A start takes no account of time, and none has passed.
  have hcase : c = { c with elapsed := T.elapsed q } := by
    obtain ⟨⟨wake, rfl, -⟩, -, -⟩ := hawaits.moved hg hl hm
    rw [hstage.2]
    rfl
  rw [hcase]
  refine ⟨q, .of_moved hg hl (List.head?_eq_getElem?.symm.trans hq) hawaits ?_ ?_ hm⟩
  · exact congrArg CaseFile.told hnone
  · exact congrArg (fun f => f.armed.map WakeRequest.wakeAt) hnone

theorem Shows.evicted (h : T.Shows id reason k p f) (hc : f.case? = some c) (hres : c.isResolved) :
    T.Shows id reason k p f.withoutCase :=
  ⟨h.phase, h.told, h.armed, .inl ⟨(h.isResolved_iff hc).1 hres, rfl⟩⟩

/-- How the escalation of an id stands after a run on time. -/
inductive Stands (T : Timetable) (id : CaseId) (reason : String) (l : List Step) (e : Engine) : Prop
  | before (h : ∀ x ∈ l, x.reply ≠ .ok (.started id)) (hfile : e.file id = .empty)
      (hk : l.countP (·.wakes id) = 0)
  | after {p : Phase} (h : ∃ x ∈ l, x.reply = .ok (.started id))
      (hs : T.Shows id reason (l.countP (·.wakes id)) p (e.file id))

theorem Stands.step (hg : T.Governs start reason x.before) (hl : x.before.listening = true)
    (hot : x.OnTime id reason start) (hx : Revised x id) (h : T.Stands id reason l x.before) :
    T.Stands id reason (l ++ [x]) x.after := by
  have idle (hw : ∀ c ∈ x.woken?, c.id ≠ id) :
      (l ++ [x]).countP (·.wakes id) = l.countP (·.wakes id) := by
    rw [List.countP_append, List.countP_singleton, Step.wakes_eq_false hw]
    rfl
  have started (h : ∃ y ∈ l, y.reply = .ok (.started id)) :
      ∃ y ∈ l ++ [x], y.reply = .ok (.started id) := exists_mem_snoc.2 (.inl h)
  cases hx with
  | same hw hr hs hfile =>
    cases h with
    | before h hempty hk =>
      exact .before (forall_mem_snoc.2 ⟨h, hs⟩) (hfile.trans hempty) ((idle hw).trans hk)
    | after h hshows => exact .after (started h) (by rwa [idle hw, hfile])
  | @woken c c₁ c' now e₁ hw hr hid hc ho hclock hm ha hout hfile =>
    cases h with
    | before h hempty => cases case_of_file hempty hc
    | after h hshows =>
      obtain ⟨q, hq⟩ := hshows.woken hg hl hot hw hid hc ho hclock hm ha hfile
      have hcount : (l ++ [x]).countP (·.wakes id) = l.countP (·.wakes id) + 1 := by
        rw [List.countP_append, List.countP_singleton, Step.wakes_eq_true hw hid]
        rfl
      exact .after (started h) (hcount ▸ hq)
  | resumed hw hr hop => exact absurd hop (hot.silent _)
  | @started reason' now e₁ c hw hr hop hnone hm hfile =>
    cases h with
    | before h hempty hk =>
      obtain ⟨rfl, rfl⟩ := hot.started _ _ hop
      obtain ⟨q, hq⟩ := Shows.started hg hl hnone hm
      refine .after (exists_mem_snoc.2 (.inr hr)) (p := q) ?_
      rwa [idle (hw ▸ fun c hc => nomatch hc), hk, hfile]
    -- An id is started once, and its file is not empty from then on.
    | after h hshows => exact absurd hnone hshows.not_empty
  | evicted hw hr hi hc hres hfile =>
    cases h with
    | before h hempty => cases case_of_file hempty hc
    | after h hshows =>
      have hkept := hshows.evicted hc hres
      exact .after (started h) (by rwa [idle (hw ▸ fun c hc => nomatch hc), hfile])

theorem Governs.congr (hg : T.Governs start reason e) (hs : e'.settings = e.settings)
    (ht : e'.table = e.table) : T.Governs start reason e' :=
  ⟨hs ▸ hg.fits, hs ▸ hg.accepted, ht.trans hg.table, hg.reason⟩

theorem stands_of_runs (h₀ : Initial e₀) (hg : T.Governs start reason e₀)
    (hids : (startsOf l).Nodup) (h : Runs e₀ l e) (hot : ∀ x ∈ l, x.OnTime id reason start) :
    e.listening = true ∧ T.Governs start reason e ∧ T.Stands id reason l e := by
  have hstart : T.Stands id reason [] e₀ :=
    .before (List.forall_mem_nil _) (file_of_initial h₀ id) List.countP_nil
  have hkept : Registry (startsOf l) e ∧ T.Governs start reason e ∧
      ((∀ x ∈ l, x.OnTime id reason start) → T.Stands id reason l e) := by
    refine h.invariant (P := fun l e => T.Governs start reason e ∧
      ((∀ x ∈ l, x.OnTime id reason start) → T.Stands id reason l e)) (registry_of_initial h₀)
      ⟨hg, fun _ => hstart⟩ ?_ hids
    rintro l e op r e' - hreg hnew ⟨hg, hs⟩ hdone
    refine ⟨hg.congr hdone.settings_eq hdone.table_eq, fun hot => ?_⟩
    obtain ⟨hbefore, hthis⟩ := forall_mem_snoc.1 hot
    exact (hs hbefore).step hg hreg.listening hthis (hdone.revised hreg hnew id)
  obtain ⟨hreg, hg', hstands⟩ := hkept
  exact ⟨hreg.listening, hg', hstands hot⟩

theorem Governs.started (hg : T.Governs start reason e) (hr : e.timers.refusal = none) :
    ∃ e', e.perform (.start id reason start) = .ok (e', .ok (.started id)) := by
  obtain ⟨q, hq⟩ := T.exists_head
  obtain rfl := hg.fits.time_head hq
  have hawaits : T.Awaits id reason q (.fresh id reason (T.time q)) := hg.fits.start ▸ .fresh hq
  have hstage : q.stage = .initial := by
    rcases head_phases hq with ⟨-, rfl⟩ | ⟨-, rfl⟩ <;> rfl
  obtain ⟨e₁, c₁, htr, -⟩ := hawaits.transition hg hr
  rw [hstage] at htr
  refine ⟨{ e₁ with cases := e₁.cases ++ [c₁] }, ?_⟩
  simp only [perform, Engine.start, htr, ok_bind]
  rfl

theorem Shows.delivered (hg : T.Governs start reason e) (hl : e.listening = true)
    (h : T.Shows id reason k p (e.file id)) (hc : e.get? id = some c) (ho : c.resolution = none) :
    ∃ w, c.wake = some w ∧ (e.clock.read = .ok w.wakeAt → e.timers.refusal = none →
      e.wakes? (.timerFired id w.seq) = some c ∧
        ∃ e', e.perform (.timerFired id w.seq) = .ok (e', .ok .done)) := by
  obtain ⟨wake, rfl, hwake⟩ := h.case_eq hc
  obtain ⟨q, hnext⟩ := next?_of_open ho
  obtain ⟨w, rfl, hat, htarget⟩ := wakeTarget_caseAt id reason hnext hwake
  refine ⟨w, rfl, fun hclock hr => ⟨(wakes?_eq_some rfl).2 ⟨hc, ho, fun _ => rfl⟩, ?_⟩⟩
  have hawaits : T.Awaits id reason q (T.caseAt id reason p (some w)) := .after hnext _
  obtain ⟨e₁, c₁, htr, hm⟩ := hawaits.transition hg hr
  obtain ⟨⟨wake, hcase, -⟩, -, -⟩ := hawaits.moved hg hl hm
  have ha := hawaits.account hg wake
  rw [← hcase, ← accountElapsed_congr hm.settings_eq] at ha
  refine ⟨e₁.update (T.caseAt id reason q wake), ?_⟩
  have hfire : e.fire (T.caseAt id reason p (some w)) (some w.seq) =
      .ok (e₁, .ok (T.caseAt id reason q wake)) := by
    rw [hat] at hclock
    rw [fire, if_neg (Case.not_isResolved.2 ho), if_neg fun h => h.2 rfl]
    simp only [hclock, htarget, htr, ok_bind, ha]
    rfl
  simp only [perform, handleTimerFired, wakeCase, hc, hfire, ok_bind]
  rfl

end Timetable

namespace Engine

variable {e₀ : Engine} {offset : Offset} {reason : String} {start v : Instant}

/-- An escalation for one of the escalating reasons under the built-in table follows the timetable
of its start, if no response comes and its wake-ups are delivered when they are due. Three firings,
or four from outside business hours, take the case to its end, and each of them can be delivered. -/
theorem escalation_on_time (h₀ : Initial e₀) (ht : e₀.table = .notificationAction)
    (hz : e₀.settings.hours.zone = .fixed offset) (hs : ¬ e₀.settings.hours.start.IsLeap)
    (hf : ¬ e₀.settings.hours.finish.IsLeap) (hr : reason ∈ Table.escalatingReasons)
    (hstart : start.Proper) (hv : e₀.settings.hours.Passed start e₀.settings.deadline v) :
    ∃ T : Timetable, T.Fits e₀.settings start ∧
      ∀ {id l e}, (startsOf l).Nodup → Runs e₀ l e → (∀ x ∈ l, x.OnTime id reason start) →
        (e.timers.refusal = none →
          ∃ e', e.perform (.start id reason start) = .ok (e', .ok (.started id))) ∧
        ((∃ x ∈ l, x.reply = .ok (.started id)) →
          (∃ p, T.Shows id reason (l.countP (·.wakes id)) p (e.file id)) ∧
          ∀ c, e.get? id = some c →
            (c.isResolved ↔ l.countP (·.wakes id) = if T.inHours then 3 else 4) ∧
            (c.resolution = none → ∃ w, c.wake = some w ∧
              (e.clock.read = .ok w.wakeAt → e.timers.refusal = none →
                e.wakes? (.timerFired id w.seq) = some c ∧
                  ∃ e', e.perform (.timerFired id w.seq) = .ok (e', .ok .done)))) := by
  obtain ⟨hvalid, -⟩ := initial_cases h₀
  obtain ⟨wait₁, wait₂, haccepted⟩ := Settings.accepted_of_validate hvalid
  have hp := BusinessHours.plain_of_fixed hz hs hf
  obtain ⟨T, hfits⟩ := Timetable.exists_fits hp haccepted hstart hv
  have hg : T.Governs start reason e₀ := ⟨hfits, hfits.accepted haccepted, ht, hr⟩
  refine ⟨T, hfits, fun {id l e} hids h hot => ?_⟩
  obtain ⟨hl, hg, hstands⟩ := Timetable.stands_of_runs h₀ hg hids h hot
  refine ⟨hg.started, fun ⟨x, hx, hreply⟩ => ?_⟩
  cases hstands with
  | before hno => exact absurd hreply (hno x hx)
  | after _ hshows =>
    refine ⟨⟨_, hshows⟩, fun c hc => ⟨?_, hshows.delivered hg hl hc⟩⟩
    rw [← Timetable.closed_iff hshows.phase]
    exact hshows.isResolved_iff hc

theorem escalation_on_time_reminded :
    Initial standard ∧ (startsOf toReminded).Nodup ∧ Runs standard toReminded reminded ∧
      (∀ x ∈ toReminded, x.OnTime ⟨1⟩ "UNREADABLE_DOCUMENT" ⟨1792404000, 0⟩) ∧
      ∃ T : Timetable, T.Fits standard.settings ⟨1792404000, 0⟩ ∧ T.inHours = true ∧
        ∃ p, T.Shows ⟨1⟩ "UNREADABLE_DOCUMENT" 1 p (reminded.file ⟨1⟩) := by
  have hids : (startsOf toReminded).Nodup := List.nodup_singleton (⟨1⟩ : CaseId)
  have hzone : standard.settings.hours.zone = .fixed .utc := rfl
  have hstart : Reading.Proper ⟨1792404000, 0⟩ := ⟨by decide, by decide⟩
  have hreason : "UNREADABLE_DOCUMENT" ∈ Table.escalatingReasons := by decide
  have hpassed : standard.settings.hours.Passed ⟨1792404000, 0⟩ standard.settings.deadline
      ⟨1792490400, 0⟩ :=
    BusinessHours.of_add (BusinessHours.plain_of_fixed hzone (by decide) (by decide)) hstart
      (by decide) rfl (by decide) (by decide)
  have hot : ∀ x ∈ toReminded, x.OnTime ⟨1⟩ "UNREADABLE_DOCUMENT" ⟨1792404000, 0⟩ := by
    intro x hx
    simp only [toReminded, List.mem_cons, List.not_mem_nil, or_false] at hx
    rcases hx with rfl | rfl | rfl
    · refine ⟨fun reason' now hop => ?_, fun now hop => (nomatch hop), fun c hc => nomatch hc⟩
      cases hop
      exact ⟨rfl, rfl⟩
    · exact ⟨fun _ now hop => (nomatch hop), fun now hop => (nomatch hop), fun c hc => nomatch hc⟩
    · refine ⟨fun _ now hop => (nomatch hop), fun now hop => (nomatch hop), fun c hc _ w hw => ?_⟩
      cases hc
      cases hw
      rfl
  obtain ⟨T, hfits, hruns⟩ := escalation_on_time initial_standard rfl hzone (by decide) (by decide)
    hreason hstart hpassed
  obtain ⟨-, hstarted⟩ := hruns hids runs_toReminded hot
  obtain ⟨hshows, -⟩ := hstarted ⟨_, List.mem_cons_self .., rfl⟩
  exact ⟨initial_standard, hids, runs_toReminded, hot, T, hfits,
    (Except.ok.inj (hfits.inHours.symm.trans rfl)), hshows⟩

end Engine

end Followup
