import Followup.Proofs.Engine.Step

/-! The operations of an engine as one step. Each of them fails and at most uses up numbers, or
finds nothing to do, or wakes, resumes, starts or evicts a case, or lets the surroundings change. -/

namespace Followup

inductive Operation where
  | start (id : CaseId) (reason : String) (now : Instant)
  | timerFired (id : CaseId) (seq : Nat)
  | fire (id : CaseId)
  | respond (id : CaseId) (now : Instant)
  | evaluate (id : CaseId) (now : Instant)
  | snapshot (id : CaseId)
  | remove (id : CaseId)
  | purgeResolved (cutoff : Instant)
  | purgeExpired
  | setClock (now : Instant)
  | setOutage (outage : Option String)
  | setRefusal (refusal : Option String)

def Operation.started? : Operation → Option CaseId
  | start id _ _ => some id
  | _ => none

def Operation.firing? : Operation → Option (CaseId × Option Nat)
  | timerFired id seq => some (id, some seq)
  | fire id => some (id, none)
  | _ => none

namespace Engine

inductive Reply where
  | started (id : CaseId)
  | done
  | responded (first : Bool)
  | evaluated (decision : Option Decision)
  | seen (c : Case)
  | removed (c : Option Case)
  | purged (count : Nat)

def Reply.isIdle : Reply → Bool
  | .started _ | .responded true => false
  | _ => true

def Answer.as {α : Type} (a : Answer α) (f : α → Reply) : Answer Reply := (a.1, a.2.map f)

def perform (e : Engine) : Operation → Checked (Answer Reply)
  | .start id reason now => return (← e.start id reason now).as .started
  | .timerFired id seq => return (← e.handleTimerFired id seq).as fun _ => .done
  | .fire id => return (← e.onTimerFire id).as fun _ => .done
  | .respond id now => return (← e.onExternalResponse id now).as .responded
  | .evaluate id now => return (e, (← e.evaluateStage id now).map .evaluated)
  | .snapshot id => return (e, (e.snapshot id).map .seen)
  | .remove id => return (e.remove id).as .removed
  | .purgeResolved cutoff =>
    return ((e.purgeResolved cutoff).1, .ok (.purged (e.purgeResolved cutoff).2))
  | .purgeExpired => return (← e.purgeExpired).as .purged
  | .setClock now => return (e.setClock now, .ok .done)
  | .setOutage outage => return (e.setOutage outage, .ok .done)
  | .setRefusal refusal => return (e.setRefusal refusal, .ok .done)

/-- The case that a firing counts for: it is open, and waits under the number of the firing if that
has one. Any other firing is stale. -/
def wakes? (e : Engine) (op : Operation) : Option Case :=
  op.firing?.bind fun (id, seq?) => (e.get? id).filter fun c =>
    decide (c.resolution = none ∧ (seq?.isSome → seq? = c.wake.map Wake.seq))

variable {e e' : Engine} {c c' : Case} {id : CaseId} {now : Instant} {op : Operation}
  {seq? : Option Nat}

/-- What an operation can have done, by what was asked for and what was answered. -/
inductive Performed (e : Engine) : Operation → Except EngineError Reply → Engine → Prop
  | failed {op : Operation} {err : EngineError} {n : Nat} (hn : e.lastSeq ≤ n) :
      Performed e op (.error err) { e with lastSeq := n }
  | idle {op : Operation} {reply : Reply} (hw : e.wakes? op = none)
      (hr : reply.isIdle) : Performed e op (.ok reply) e
  | outside {op : Operation} (clock : Clock) (refusal : Option String) (hop : op.firing? = none) :
      Performed e op (.ok .done) { e with clock, timers := { e.timers with refusal } }
  | woken {op : Operation} {c c₁ c' : Case} {now : Instant} {e₁ : Engine} {before after : List Case}
      (hw : e.wakes? op = some c) (hcs : e.cases = before ++ c :: after)
      (hne : ∀ d ∈ before ++ after, d.id ≠ c.id) (ho : c.resolution = none)
      (hclock : e.clock.read = .ok now) (hm : Moved e c now (wakeTarget c) e₁ c₁)
      (ha : e.accountElapsed c₁ now = .ok c') (hout : c'.outcome? ≠ some .resumed) :
      Performed e op (.ok .done) { e₁ with cases := before ++ c' :: after }
  | resumed {c c' : Case} {now : Instant} {before after : List Case}
      (hcs : e.cases = before ++ c :: after) (hne : ∀ d ∈ before ++ after, d.id ≠ c.id)
      (ho : c.resolution = none)
      (ha : e.accountElapsed (c.ended .resumed none now) now = .ok c') :
      Performed e (.respond c.id now) (.ok (.responded true))
        { tell { e with timers := e.timers.release c.wake } [.resolved c.id .resumed none now] with
          cases := before ++ c' :: after }
  | started {id : CaseId} {reason : String} {now : Instant} {e₁ : Engine} {c : Case}
      (hm : Moved e (.fresh id reason now) now (some .initial) e₁ c) :
      Performed e (.start id reason now) (.ok (.started id)) { e₁ with cases := e₁.cases ++ [c] }
  | evicted {op : Operation} {reply : Reply} {keep : Case → Bool}
      (hk : ∀ c ∈ e.cases, keep c = false → c.isResolved) (hop : op.firing? = none)
      (hr : reply.isIdle) :
      Performed e op (.ok reply) { e with cases := e.cases.filter keep }

theorem wakes?_eq_some (hop : op.firing? = some (id, seq?)) :
    e.wakes? op = some c ↔ e.get? id = some c ∧ c.resolution = none ∧
      (seq?.isSome → seq? = c.wake.map Wake.seq) := by
  rw [wakes?, hop, Option.bind_some, Option.filter_eq_some_iff, decide_eq_true_iff]

theorem wakes?_eq_none (hop : op.firing? = none) : e.wakes? op = none := by
  rw [wakes?, hop, Option.bind_none]

theorem Moved.resumed (e : Engine) (c : Case) (now : Instant) :
    Moved e c now none
      (tell { e with timers := e.timers.release c.wake } [.resolved c.id .resumed none now])
      (c.ended .resumed none now) := .ended (by simp)

theorem Moved.update_eq {c₁ : Case} {target : Option Stage} {before after : List Case}
    (hm : Moved e c now target e' c₁) (hcs : e.cases = before ++ c :: after)
    (hne : ∀ d ∈ before ++ after, d.id ≠ c.id) (hid : c'.id = c.id) :
    e'.update c' = { e' with cases := before ++ c' :: after } :=
  Engine.update_eq (hm.cases_eq ▸ hcs) hne hid

theorem Performed.unchanged_failed (e : Engine) (op : Operation) (err : EngineError) :
    Performed e op (.error err) e := .failed (Nat.le_refl _)

theorem performed_of_start {reason : String} {r : Except EngineError CaseId}
    (h : e.start id reason now = .ok (e', r)) :
    Performed e (.start id reason now) (r.map .started) e' := by
  obtain ⟨⟨e₁, r₁⟩, htr, h⟩ := bind_eq_ok.1 h
  rcases transition_cases rfl htr with ⟨refusal, rfl, rfl⟩ | ⟨c₁, rfl, hm⟩
  · cases h
    exact .failed (Nat.le_succ _)
  · cases h
    exact .started hm

theorem performed_of_wakeCase (hn : (e.cases.map Case.id).Nodup)
    (hop : op.firing? = some (id, seq?)) {r : Except EngineError Unit}
    (h : e.wakeCase id seq? = .ok (e', r)) : Performed e op (r.map fun _ => .done) e' := by
  simp only [wakeCase] at h
  split at h
  · cases h
    exact .unchanged_failed e op _
  next c hc =>
  have hid := id_of_get? hc
  obtain ⟨⟨e₁, r₁⟩, hf, h⟩ := bind_eq_ok.1 h
  rcases fire_cases hf with
    ⟨he, rfl, hstale⟩ | ⟨reason, n, hle, rfl, rfl⟩ |
    ⟨now, c₁, c', ho, hseq, hclock, hm, ha, hout, rfl⟩
  · cases h
    have hnone : e.wakes? op = none := by
      refine Option.eq_none_iff_forall_ne_some.2 fun d hd => ?_
      obtain ⟨hd, ho, hseq⟩ := (wakes?_eq_some hop).1 hd
      obtain rfl := Option.some.inj (hc.symm.trans hd)
      rcases hstale with hres | ⟨hsome, hne⟩
      · exact Case.not_isResolved.2 ho hres
      · exact hne (hseq hsome)
    -- The case is put back as it was.
    rw [he, update_self hn (hid ▸ hc)]
    exact .idle hnone rfl
  · cases h
    exact .failed hle
  · cases h
    obtain ⟨before, after, hcs, hne⟩ := split_of_get? hn (hid ▸ hc)
    have hid' : c'.id = c.id := by
      obtain ⟨⟨d, rfl⟩, -⟩ := accountElapsed_cases ha
      exact hm.id_eq
    rw [hm.update_eq hcs hne hid']
    exact .woken ((wakes?_eq_some hop).2 ⟨hc, ho, hseq⟩) hcs hne ho hclock hm ha hout

theorem performed_of_onExternalResponse (hn : (e.cases.map Case.id).Nodup)
    {r : Except EngineError Bool} (h : e.onExternalResponse id now = .ok (e', r)) :
    Performed e (.respond id now) (r.map .responded) e' := by
  simp only [onExternalResponse] at h
  split at h
  · cases h
    exact .unchanged_failed e _ _
  next c hc =>
  split at h
  · cases h
    exact .idle rfl rfl
  next hr =>
  have ho := Case.not_isResolved.1 hr
  obtain rfl := id_of_get? hc
  obtain ⟨before, after, hcs, hne⟩ := split_of_get? hn hc
  obtain ⟨c₁, ha, h⟩ := bind_eq_ok.1 h
  obtain ⟨⟨d, hd⟩, hended⟩ := accountElapsed_cases ha
  have ho₁ : c₁.resolution = none := hd ▸ ho
  have hid : c₁.id = c.id := hd ▸ rfl
  have hwake : c₁.wake = c.wake := hd ▸ rfl
  have hid₁ : (c₁.ended .resumed none now).id = c.id := hid
  have hput := (Moved.resumed e c now).update_eq hcs hne hid₁
  rw [resolve_eq _ ho₁, hid, hwake] at h
  dsimp only at h
  rw [hput] at h
  cases h
  exact .resumed hcs hne ho (hended _ _ _)

theorem performed_of_remove (hn : (e.cases.map Case.id).Nodup)
    {r : Except EngineError (Option Case)} (h : e.remove id = (e', r)) :
    Performed e (.remove id) (r.map .removed) e' := by
  simp only [remove] at h
  split at h
  · cases h
    exact .unchanged_failed e _ _
  next c hc =>
  split at h
  · next hr =>
    cases h
    refine .evicted (fun d hd hk => ?_) rfl rfl
    have hid : d.id = id := by simpa using hk
    exact eq_of_get? hn hc hd hid ▸ hr
  · cases h
    exact .idle rfl rfl

theorem isResolved_of_isExpired {cutoff : Instant} (h : isExpired cutoff c = true) :
    c.isResolved := by
  simp only [isExpired] at h
  split at h
  · next r hr => simp only [Case.isResolved, hr, Option.isSome_some]
  · cases h

theorem performed_of_purgeExpired {r : Except EngineError Nat}
    (h : e.purgeExpired = .ok (e', r)) : Performed e .purgeExpired (r.map .purged) e' := by
  simp only [purgeExpired] at h
  split at h
  · cases h
    exact .unchanged_failed e _ _
  · obtain ⟨cutoff, -, h⟩ := bind_eq_ok.1 h
    cases h
    exact .evicted (fun c _ hk => isResolved_of_isExpired (by simpa using hk)) rfl rfl

theorem performed_of_perform (hn : (e.cases.map Case.id).Nodup) {r : Except EngineError Reply}
    (h : e.perform op = .ok (e', r)) : Performed e op r e' := by
  cases op with
  | start id reason now =>
    obtain ⟨a, ha, h⟩ := bind_eq_ok.1 h
    cases h
    exact performed_of_start ha
  | timerFired id seq =>
    obtain ⟨a, ha, h⟩ := bind_eq_ok.1 h
    cases h
    exact performed_of_wakeCase hn rfl ha
  | fire id =>
    obtain ⟨a, ha, h⟩ := bind_eq_ok.1 h
    cases h
    exact performed_of_wakeCase hn rfl ha
  | respond id now =>
    obtain ⟨a, ha, h⟩ := bind_eq_ok.1 h
    cases h
    exact performed_of_onExternalResponse hn ha
  | evaluate id now =>
    obtain ⟨r₁, -, h⟩ := bind_eq_ok.1 h
    cases h
    cases r₁ with
    | error err => exact .unchanged_failed e _ _
    | ok d => exact .idle rfl rfl
  | snapshot id =>
    cases h
    cases e.snapshot id with
    | error err => exact .unchanged_failed e _ _
    | ok c => exact .idle rfl rfl
  | remove id =>
    cases h
    exact performed_of_remove hn rfl
  | purgeResolved cutoff =>
    cases h
    exact .evicted (fun c _ hk => isResolved_of_isExpired (by simpa using hk)) rfl rfl
  | purgeExpired =>
    obtain ⟨a, ha, h⟩ := bind_eq_ok.1 h
    cases h
    exact performed_of_purgeExpired ha
  | setClock now =>
    cases h
    exact .outside { e.clock with now } e.timers.refusal rfl
  | setOutage outage =>
    cases h
    exact .outside { e.clock with outage } e.timers.refusal rfl
  | setRefusal refusal =>
    cases h
    exact .outside e.clock refusal rfl

theorem Performed.settings_eq {r : Except EngineError Reply} (h : Performed e op r e') :
    e'.settings = e.settings := by
  cases h with
  | failed | idle | outside | evicted => rfl
  | woken _ _ _ _ _ hm => exact hm.settings_eq
  | resumed => exact tell_settings ..
  | started hm => exact hm.settings_eq

theorem Performed.table_eq {r : Except EngineError Reply} (h : Performed e op r e') :
    e'.table = e.table := by
  cases h with
  | failed | idle | outside | evicted => rfl
  | woken _ _ _ _ _ hm => exact hm.table_eq
  | resumed => exact tell_table ..
  | started hm => exact hm.table_eq

/-- Without the question and the answer, all that an operation can do is one of four things. -/
theorem Performed.effect {r : Except EngineError Reply} (h : Performed e op r e') :
    Effect e op.started? e' := by
  cases h with
  | failed hn => exact .idle e.clock e.timers.refusal hn
  | idle => exact .refl e _
  | outside clock refusal => exact .idle clock refusal (Nat.le_refl _)
  | woken _ hcs hne ho _ hm ha =>
    obtain ⟨⟨d, rfl⟩, -⟩ := accountElapsed_cases ha
    exact .moved d hcs hne ho hm fun stage hs => hs
  | resumed hcs hne ho ha =>
    obtain ⟨⟨d, rfl⟩, -⟩ := accountElapsed_cases ha
    exact .moved d hcs hne ho (.resumed e _ _) fun stage hs => nomatch hs
  | started hm => exact .admitted rfl hm
  | evicted hk => exact .evicted hk

end Engine

end Followup
