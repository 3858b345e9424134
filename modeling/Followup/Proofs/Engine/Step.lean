import Followup.Proofs.Engine.Plan
import Mathlib.Data.List.Nodup

/-! What the operations do to an engine. All that can ever happen to a case is that its wake-up is
replaced or that its escalation ends, and everything else follows from these two. -/

namespace Followup.Engine

variable {e e' : Engine} {c c' : Case} {id : CaseId} {stage : Stage} {now : Instant}

/-- What becomes of an engine and a case when a stage of the case is looked at, or when the
escalation ends without a look at any. -/
inductive Moved (e : Engine) (c : Case) (now : Instant) : Option Stage → Engine → Case → Prop
  | rearmed {stage : Stage} {p : Plan} {reason : WakeReason} {wakeAt : Instant}
      (hp : e.plan c stage now = .ok p) (hw : p.wake? = some (reason, wakeAt)) :
      Moved e c now (some stage)
        (tell { e with
            lastSeq := e.lastSeq + 1
            timers := e.timers.rearm c.wake ⟨c.id, e.lastSeq + 1, wakeAt⟩ }
          (p.notices (c.enter stage) now))
        { p.advance c stage now with
          wake := some ⟨reason, wakeAt, e.lastSeq + 1, e.timers.entries.length⟩ }
  | closed {stage : Stage} {p : Plan} (hp : e.plan c stage now = .ok p) (hw : p.wake? = none) :
      Moved e c now (some stage)
        (tell { e with timers := e.timers.release c.wake }
          (p.notices (c.enter stage) now ++ [.resolved c.id .closed (p.diagnostic stage) now]))
        ((p.advance c stage now).ended .closed (p.diagnostic stage) now)
  | ended {outcome : Outcome} {diagnostic : Option String}
      (h : outcome = .closed ↔ diagnostic.isSome) :
      Moved e c now none
        (tell { e with timers := e.timers.release c.wake }
          [.resolved c.id outcome diagnostic now])
        (c.ended outcome diagnostic now)

/-- Either the timers refuse, and only a number is used up, or the case moves. -/
theorem transition_cases {r : Except EngineError Case} (ho : c.resolution = none)
    (h : e.transition c stage now = .ok (e', r)) :
    (∃ refusal, e' = { e with lastSeq := e.lastSeq + 1 } ∧
      r = .error (.schedulingUnavailable refusal)) ∨
    ∃ c', r = .ok c' ∧ Moved e c now (some stage) e' c' := by
  rw [transition_eq ho] at h
  cases hp : e.plan c stage now with
  | error f => simp [hp, Except.map] at h
  | ok p =>
    simp only [hp, Except.map, Except.ok.injEq, commit] at h
    cases hw : p.wake? with
    | some w =>
      simp only [hw] at h
      split at h
      · cases h
        exact .inl ⟨_, rfl, rfl⟩
      · cases h
        exact .inr ⟨_, rfl, .rearmed hp hw⟩
    | none =>
      simp only [hw] at h
      cases h
      exact .inr ⟨_, rfl, .closed hp hw⟩

theorem refusal_of_transition {err : EngineError} (ho : c.resolution = none)
    (h : e.transition c stage now = .ok (e', .error err)) :
    ∃ refusal, e.timers.refusal = some refusal ∧ err = .schedulingUnavailable refusal := by
  rw [transition_eq ho] at h
  obtain ⟨p, -, h⟩ := map_eq_ok.1 h
  simp only [commit] at h
  split at h
  · split at h
    · next refusal hrefusal =>
      cases h
      exact ⟨refusal, hrefusal, rfl⟩
    · cases h
  · cases h

theorem Moved.settings_eq {target : Option Stage} (h : Moved e c now target e' c') :
    e'.settings = e.settings := by
  cases h <;> exact tell_settings ..

theorem Moved.table_eq {target : Option Stage} (h : Moved e c now target e' c') :
    e'.table = e.table := by
  cases h <;> exact tell_table ..

theorem Moved.cases_eq {target : Option Stage} (h : Moved e c now target e' c') :
    e'.cases = e.cases := by
  cases h <;> exact tell_cases ..

theorem Moved.listening_eq {target : Option Stage} (h : Moved e c now target e' c') :
    e'.listening = e.listening := by
  cases h <;> exact tell_listening ..

theorem Moved.lastSeq_le {target : Option Stage} (h : Moved e c now target e' c') :
    e.lastSeq ≤ e'.lastSeq := by
  cases h <;> simp

theorem Moved.armed {target : Option Stage} (h : Moved e c now target e' c') :
    e'.timers.armed = e.timers.armed ∨
      ∃ r, r.id = c.id ∧ r.seq = e.lastSeq + 1 ∧ e'.lastSeq = e.lastSeq + 1 ∧
        e'.timers.armed = e.timers.armed ++ [r] := by
  cases h with
  | @rearmed stage p reason wakeAt =>
    refine .inr ⟨⟨c.id, e.lastSeq + 1, wakeAt⟩, rfl, rfl, tell_lastSeq .., ?_⟩
    rw [tell_timers]
    exact TimerBook.armed_rearm ..
  | closed => exact .inl (by rw [tell_timers]; exact TimerBook.armed_release ..)
  | ended => exact .inl (by rw [tell_timers]; exact TimerBook.armed_release ..)

theorem Moved.mem_armed {target : Option Stage} (h : Moved e c now target e' c') {q : WakeRequest}
    (hq : q ∈ e'.timers.armed) : q ∈ e.timers.armed ∨ q.id = c.id := by
  rcases h.armed with harm | ⟨r, hid, -, -, harm⟩
  · exact .inl (harm ▸ hq)
  · rw [harm] at hq
    rcases List.mem_append.1 hq with hq | hq
    · exact .inl hq
    · exact .inr (List.mem_singleton.1 hq ▸ hid)

theorem caseId_of_notices {p : Plan} {cmd : Command} (h : cmd ∈ p.notices (c.enter stage) now) :
    cmd.caseId = c.id := by
  cases p <;> simp [Plan.notices] at h <;> subst h <;> simp [Command.caseId]

theorem caseId_of_ending {p : Plan} {cmd : Command} {diagnostic : Option String}
    (h : cmd ∈ p.notices (c.enter stage) now ++ [.resolved c.id .closed diagnostic now]) :
    cmd.caseId = c.id := by
  rcases List.mem_append.1 h with h | h
  · exact caseId_of_notices h
  · rw [List.mem_singleton.1 h, Command.caseId]

theorem Moved.commands_eq {target : Option Stage} (hl : e.listening = true)
    (h : Moved e c now target e' c') :
    ∃ cs, e'.commands = e.commands ++ cs ∧ ∀ cmd ∈ cs, cmd.caseId = c.id := by
  cases h with
  | @rearmed stage p =>
    refine ⟨p.notices (c.enter stage) now, ?_, fun cmd => caseId_of_notices⟩
    simp only [tell, hl, if_true]
  | @closed stage p =>
    refine ⟨p.notices (c.enter stage) now ++ [.resolved c.id .closed (p.diagnostic stage) now],
      ?_, fun cmd => caseId_of_ending⟩
    simp only [tell, hl, if_true]
  | @ended outcome diagnostic =>
    refine ⟨[.resolved c.id outcome diagnostic now], ?_, fun cmd h => ?_⟩
    · simp only [tell, hl, if_true]
    · rw [List.mem_singleton.1 h, Command.caseId]

theorem Moved.id_eq {target : Option Stage} (h : Moved e c now target e' c') : c'.id = c.id := by
  cases h with
  | @rearmed stage p => cases p <;> simp [Plan.advance]
  | @closed stage p => cases p <;> simp [Plan.advance, Case.ended]
  | ended => rfl

theorem Moved.reason_eq {target : Option Stage} (h : Moved e c now target e' c') :
    c'.reason = c.reason := by
  cases h with
  | @rearmed stage p => cases p <;> simp [Plan.advance]
  | @closed stage p => cases p <;> simp [Plan.advance, Case.ended]
  | ended => rfl

theorem Moved.outcome_ne (h : Moved e c now (some stage) e' c') (ho : c.resolution = none) :
    c'.outcome? ≠ some .resumed := by
  cases h with
  | @rearmed stage p => cases p <;> simp [Plan.advance, Case.outcome?, ho]
  | closed => simp [Case.outcome?, Case.ended]

theorem accountElapsed_cases (h : e.accountElapsed c now = .ok c') :
    (∃ elapsed, c' = { c with elapsed }) ∧ ∀ outcome diagnostic t,
      e.accountElapsed (c.ended outcome diagnostic t) now =
        .ok (c'.ended outcome diagnostic t) := by
  obtain ⟨id, reason, stage, createdAt, firstSent, lastSent, elapsed, resolution, wake,
    history⟩ := c
  cases firstSent with
  | none =>
    cases h
    exact ⟨⟨_, rfl⟩, fun _ _ _ => rfl⟩
  | some t =>
    obtain ⟨d, hd, h⟩ := bind_eq_ok.1 h
    cases h
    refine ⟨⟨_, rfl⟩, fun outcome diagnostic at' => ?_⟩
    simp only [accountElapsed, Case.ended, hd, ok_bind]
    rfl

theorem accountElapsed_congr (h : e'.settings = e.settings) (c : Case) (now : Instant) :
    e'.accountElapsed c now = e.accountElapsed c now := by
  simp only [accountElapsed, h]

theorem now_of_read (h : e.clock.read = .ok now) : now = e.clock.now := by
  rw [Clock.read] at h
  split at h
  · exact (Except.ok.inj h).symm
  · cases h

theorem reason_of_read {err : EngineError} (h : e.clock.read = .error err) :
    ∃ reason, err = .schedulingUnavailable reason := by
  simp only [Clock.read] at h
  split at h
  · cases h
  · cases h
    exact ⟨_, rfl⟩

theorem fire_cases {seq? : Option Nat} {r : Except EngineError Case}
    (h : e.fire c seq? = .ok (e', r)) :
    (e' = e ∧ r = .ok c ∧ (c.isResolved ∨ seq?.isSome ∧ seq? ≠ c.wake.map Wake.seq)) ∨
    (∃ reason n, e.lastSeq ≤ n ∧ e' = { e with lastSeq := n } ∧
      r = .error (.schedulingUnavailable reason)) ∨
    ∃ now c₁ c', c.resolution = none ∧ (seq?.isSome → seq? = c.wake.map Wake.seq) ∧
      e.clock.read = .ok now ∧ Moved e c now (wakeTarget c) e' c₁ ∧
      e.accountElapsed c₁ now = .ok c' ∧ c'.outcome? ≠ some .resumed ∧ r = .ok c' := by
  simp only [fire] at h
  split at h
  · next hr => cases h; exact .inl ⟨rfl, rfl, .inl hr⟩
  next hr =>
  have ho := Case.not_isResolved.1 hr
  split at h
  · next hs => cases h; exact .inl ⟨rfl, rfl, .inr hs⟩
  next hs =>
  have hseq : seq?.isSome → seq? = c.wake.map Wake.seq := by
    intro hsome
    exact Decidable.not_not.1 fun hne => hs ⟨hsome, hne⟩
  split at h
  · next err hc =>
    cases h
    obtain ⟨reason, rfl⟩ := reason_of_read hc
    exact .inr (.inl ⟨reason, e.lastSeq, Nat.le_refl _, rfl, rfl⟩)
  next now hc =>
  refine .inr ?_
  split at h
  · next ht =>
    obtain ⟨c₁, ha, h⟩ := bind_eq_ok.1 h
    obtain ⟨⟨d, rfl⟩, hended⟩ := accountElapsed_cases ha
    have hd : ({ c with elapsed := d } : Case).resolution = none := ho
    simp only [close, resolve_eq _ hd] at h
    cases h
    exact .inr ⟨now, _, _, ho, hseq, hc, ht ▸ .ended (by simp), hended _ _ _,
      by simp [Case.outcome?, Case.ended], rfl⟩
  · next stage ht =>
    obtain ⟨⟨e₁, r₁⟩, htr, h⟩ := bind_eq_ok.1 h
    rcases transition_cases ho htr with ⟨refusal, rfl, rfl⟩ | ⟨c₁, rfl, hm⟩
    · cases h
      exact .inl ⟨refusal, _, Nat.le_succ _, rfl, rfl⟩
    · obtain ⟨c', ha, h⟩ := bind_eq_ok.1 h
      cases h
      have hacc : e.accountElapsed c₁ now = .ok c' := by
        rwa [← accountElapsed_congr hm.settings_eq]
      have hout : c'.outcome? ≠ some .resumed := by
        obtain ⟨⟨d, rfl⟩, -⟩ := accountElapsed_cases hacc
        exact hm.outcome_ne ho
      exact .inr ⟨now, c₁, c', ho, hseq, hc, ht ▸ hm, hacc, hout, rfl⟩

theorem id_of_get? (h : e.get? id = some c) : c.id = id := by
  simpa using List.find?_some h

theorem split_of_get? (hn : (e.cases.map Case.id).Nodup) (h : e.get? c.id = some c) :
    ∃ before after, e.cases = before ++ c :: after ∧ ∀ d ∈ before ++ after, d.id ≠ c.id := by
  obtain ⟨before, after, hcs⟩ := List.append_of_mem (List.mem_of_find?_eq_some h)
  refine ⟨before, after, hcs, fun d hd hid => ?_⟩
  rw [hcs, List.map_append, List.map_cons, List.nodup_middle, ← List.map_append] at hn
  exact (List.nodup_cons.1 hn).1 (hid ▸ List.mem_map_of_mem hd)

theorem get?_of_mem (hn : (e.cases.map Case.id).Nodup) (h : c ∈ e.cases) :
    e.get? c.id = some c := by
  cases hf : e.get? c.id with
  | none => simpa using List.find?_eq_none.1 hf c h
  | some d =>
    have hd := List.mem_of_find?_eq_some hf
    rw [List.inj_on_of_nodup_map hn hd h (id_of_get? hf)]

theorem eq_of_get? {d : Case} (hn : (e.cases.map Case.id).Nodup) (hc : e.get? id = some c)
    (hd : d ∈ e.cases) (hid : d.id = id) : d = c := by
  have hget := get?_of_mem hn hd
  rw [hid, hc] at hget
  exact (Option.some.inj hget).symm

theorem update_eq {before after : List Case} (hcs : e.cases = before ++ c :: after)
    (hne : ∀ d ∈ before ++ after, d.id ≠ c.id) (hid : c'.id = c.id) :
    e.update c' = { e with cases := before ++ c' :: after } := by
  have keeps : ∀ l : List Case, (∀ d ∈ l, d.id ≠ c.id) →
      l.map (fun d => if d.id = c'.id then c' else d) = l := by
    intro l hl
    induction l with
    | nil => rfl
    | cons d l ih =>
      rw [List.map_cons, if_neg (hid ▸ hl d (List.mem_cons_self ..)),
        ih fun d hd => hl d (List.mem_cons_of_mem _ hd)]
  simp only [update, hcs, List.map_append, List.map_cons, hid, if_true]
  rw [← hid, keeps before fun d hd => hne d (List.mem_append_left _ hd),
    keeps after fun d hd => hne d (List.mem_append_right _ hd)]

/-- What an operation does to the cases, the timers and the commands. `started` is the id that it
starts a case under, if it starts one. -/
inductive Effect (e : Engine) (started : Option CaseId) : Engine → Prop
  | idle (clock : Clock) (refusal : Option String) {n : Nat} (hn : e.lastSeq ≤ n) :
      Effect e started { e with clock, timers := { e.timers with refusal }, lastSeq := n }
  | moved {c c₁ : Case} {now : Instant} {target : Option Stage} {e₁ : Engine}
      {before after : List Case} (elapsed : Span) (hcs : e.cases = before ++ c :: after)
      (hne : ∀ d ∈ before ++ after, d.id ≠ c.id) (ho : c.resolution = none)
      (hm : Moved e c now target e₁ c₁)
      (ht : ∀ stage, target = some stage → wakeTarget c = some stage) :
      Effect e started { e₁ with cases := before ++ { c₁ with elapsed } :: after }
  | admitted {id : CaseId} {reason : String} {now : Instant} {e₁ : Engine} {c : Case}
      (hs : started = some id) (hm : Moved e (.fresh id reason now) now (some .initial) e₁ c) :
      Effect e started { e₁ with cases := e₁.cases ++ [c] }
  | evicted {keep : Case → Bool} (h : ∀ c ∈ e.cases, keep c = false → c.isResolved) :
      Effect e started { e with cases := e.cases.filter keep }

theorem Effect.refl (e : Engine) (started : Option CaseId) : Effect e started e :=
  .idle e.clock e.timers.refusal (Nat.le_refl _)

theorem Effect.commands_grow {started : Option CaseId} (hl : e.listening = true)
    (h : Effect e started e') :
    (∃ cs, e'.commands = e.commands ++ cs) ∧ e'.listening = e.listening := by
  cases h with
  | idle => exact ⟨⟨[], (List.append_nil _).symm⟩, rfl⟩
  | moved elapsed hcs hne ho hm =>
    obtain ⟨cs, hcs, -⟩ := hm.commands_eq hl
    exact ⟨⟨cs, hcs⟩, hm.listening_eq⟩
  | admitted hs hm =>
    obtain ⟨cs, hcs, -⟩ := hm.commands_eq hl
    exact ⟨⟨cs, hcs⟩, hm.listening_eq⟩
  | evicted => exact ⟨⟨[], (List.append_nil _).symm⟩, rfl⟩

theorem update_self (hn : (e.cases.map Case.id).Nodup) (h : e.get? c.id = some c) :
    e.update c = e := by
  obtain ⟨before, after, hcs, hne⟩ := split_of_get? hn h
  rw [update_eq hcs hne rfl, ← hcs]

end Followup.Engine
