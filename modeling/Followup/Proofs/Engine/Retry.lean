import Followup.Proofs.Engine.Run

/-! Operations that find scheduling unavailable. They use up numbers and change nothing else, so
that a firing which is delivered until it succeeds does what it would have done at the first
attempt. -/

namespace Followup

def Wake.unnumbered (w : Wake) : Wake := { w with seq := 0 }

def Case.upToSeq (id : CaseId) (c : Case) : Case :=
  if c.id = id then { c with wake := c.wake.map Wake.unnumbered } else c

def WakeRequest.upToSeq (id : CaseId) (r : WakeRequest) : WakeRequest :=
  if r.id = id then { r with seq := 0 } else r

namespace Engine

variable {e e' e₁ : Engine} {c c' : Case} {id : CaseId} {now : Instant} {stage : Stage} {p : Plan}
  {op : Operation} {n : Nat} {reason : String} {err : EngineError}

theorem start_error (h : e.start id reason now = .ok (e', .error err)) :
    ∃ n, e.lastSeq ≤ n ∧ e' = { e with lastSeq := n } := by
  obtain ⟨⟨e₁, r₁⟩, htr, h⟩ := bind_eq_ok.1 h
  rcases transition_cases rfl htr with ⟨refusal, rfl, rfl⟩ | ⟨c₁, rfl, hm⟩
  · cases h
    exact ⟨_, Nat.le_succ _, rfl⟩
  · cases h

theorem wakeCase_error {seq? : Option Nat} (h : e.wakeCase id seq? = .ok (e', .error err)) :
    ∃ n, e.lastSeq ≤ n ∧ e' = { e with lastSeq := n } := by
  simp only [wakeCase] at h
  split at h
  · cases h
    exact ⟨e.lastSeq, Nat.le_refl _, rfl⟩
  · obtain ⟨⟨e₁, r₁⟩, hf, h⟩ := bind_eq_ok.1 h
    rcases fire_cases hf with
      ⟨rfl, rfl, -⟩ | ⟨reason, n, hle, rfl, rfl⟩ | ⟨now, c₁, c', -, -, -, -, -, -, rfl⟩
    · cases h
    · cases h
      exact ⟨n, hle, rfl⟩
    · cases h

theorem onExternalResponse_error
    (h : e.onExternalResponse id now = .ok (e', .error err)) : e' = e := by
  simp only [onExternalResponse] at h
  split at h
  · cases h
    rfl
  · split at h
    · cases h
    · obtain ⟨c₁, -, h⟩ := bind_eq_ok.1 h
      cases h

theorem remove_error (h : e.remove id = (e', .error err)) : e' = e := by
  simp only [remove] at h
  split at h
  · cases h
    rfl
  · split at h
    · cases h
    · cases h

theorem purgeExpired_error (h : e.purgeExpired = .ok (e', .error err)) : e' = e := by
  simp only [purgeExpired] at h
  split at h
  · cases h
    rfl
  · obtain ⟨cutoff, -, h⟩ := bind_eq_ok.1 h
    cases h

theorem Answer.error_of_as {α : Type} {a : Answer α} {f : α → Reply}
    (h : a.as f = (e', .error err)) : a = (e', .error err) := by
  obtain ⟨e₁, r⟩ := a
  cases r with
  | error err' =>
    cases h
    rfl
  | ok x => cases h

theorem perform_error (h : e.perform op = .ok (e', .error err)) :
    ∃ n, e.lastSeq ≤ n ∧ e' = { e with lastSeq := n } := by
  have same : e' = e → ∃ n, e.lastSeq ≤ n ∧ e' = { e with lastSeq := n } := by
    rintro rfl
    exact ⟨e'.lastSeq, Nat.le_refl _, rfl⟩
  cases op with
  | start id reason now =>
    obtain ⟨a, ha, h⟩ := bind_eq_ok.1 h
    exact start_error (Answer.error_of_as (Except.ok.inj h) ▸ ha)
  | timerFired id seq =>
    obtain ⟨a, ha, h⟩ := bind_eq_ok.1 h
    exact wakeCase_error (Answer.error_of_as (Except.ok.inj h) ▸ ha)
  | fire id =>
    obtain ⟨a, ha, h⟩ := bind_eq_ok.1 h
    exact wakeCase_error (Answer.error_of_as (Except.ok.inj h) ▸ ha)
  | respond id now =>
    obtain ⟨a, ha, h⟩ := bind_eq_ok.1 h
    exact same (onExternalResponse_error (Answer.error_of_as (Except.ok.inj h) ▸ ha))
  | evaluate id now =>
    obtain ⟨a, ha, h⟩ := bind_eq_ok.1 h
    exact same (Prod.ext_iff.1 (Except.ok.inj h)).1.symm
  | snapshot id => exact same (Prod.ext_iff.1 (Except.ok.inj h)).1.symm
  | remove id => exact same (remove_error (Answer.error_of_as (Except.ok.inj h)))
  | purgeExpired =>
    obtain ⟨a, ha, h⟩ := bind_eq_ok.1 h
    exact same (purgeExpired_error (Answer.error_of_as (Except.ok.inj h) ▸ ha))
  | purgeResolved cutoff => cases h
  | setClock now => cases h
  | setOutage outage => cases h
  | setRefusal refusal => cases h

/-- The cases, the live timers and the commands, where the wake-up of one case may have any
number. -/
def upToSeq (id : CaseId) (e : Engine) : List Case × List WakeRequest × List Command :=
  (e.cases.map (Case.upToSeq id), e.timers.live.map (WakeRequest.upToSeq id), e.commands)

theorem upToSeq_tell {d d' : Engine} (h : d.upToSeq id = d'.upToSeq id)
    (hl : d.listening = d'.listening) (cs : List Command) :
    (d.tell cs).upToSeq id = (d'.tell cs).upToSeq id := by
  simp only [upToSeq, Prod.mk.injEq] at h
  obtain ⟨hcases, hlive, hcommands⟩ := h
  have told : (d.tell cs).commands = (d'.tell cs).commands := by
    simp only [tell, hl]
    split
    · exact congrArg (· ++ cs) hcommands
    · exact hcommands
  simp only [upToSeq, tell_cases, tell_timers, hcases, hlive, told]

theorem live_map (b : TimerBook) (f : WakeRequest → WakeRequest) :
    b.live.map f =
      ((b.entries.map fun e => (f e.1, e.2)).filter fun e => !e.2).map Prod.fst := by
  rw [TimerBook.live, List.filter_map, List.map_map, List.map_map]
  rfl

theorem map_cancel (b : TimerBook) (handle : Nat) (f : WakeRequest → WakeRequest) :
    (b.cancel handle).entries.map (fun e => (f e.1, e.2)) =
      (b.entries.map fun e => (f e.1, e.2)).modify handle fun e => (e.1, true) := by
  simp only [TimerBook.cancel]
  generalize b.entries = l
  induction l generalizing handle with
  | nil => simp only [List.modify_nil, List.map_nil]
  | cons e l ih => cases handle <;> simp [ih]

theorem live_rearm (b : TimerBook) (w : Option Wake) (m n : Nat) (at' : Instant) :
    (b.rearm w ⟨id, m, at'⟩).live.map (WakeRequest.upToSeq id) =
      (b.rearm w ⟨id, n, at'⟩).live.map (WakeRequest.upToSeq id) := by
  rw [live_map, live_map]
  cases w with
  | none => simp [TimerBook.rearm, TimerBook.release, WakeRequest.upToSeq]
  | some w =>
    simp only [TimerBook.rearm, TimerBook.release, map_cancel]
    simp [WakeRequest.upToSeq]

theorem commit_fromSeq
    (h : commit { e with lastSeq := n } c stage now p = (e', .ok c')) :
    ∃ e'' w, e.commit c stage now p = (e'', .ok { c' with wake := w }) ∧
      w.map Wake.unnumbered = c'.wake.map Wake.unnumbered ∧ e'.upToSeq c.id = e''.upToSeq c.id := by
  simp only [commit] at h ⊢
  cases hw : p.wake? with
  | none =>
    simp only [hw] at h
    cases h
    exact ⟨_, none, rfl, rfl, upToSeq_tell (by rfl) (by rfl) _⟩
  | some v =>
    obtain ⟨reason, at'⟩ := v
    simp only [hw] at h
    cases href : e.timers.refusal with
    | some refusal =>
      simp only [href] at h
      cases h
    | none =>
      simp only [href] at h
      cases h
      refine ⟨_, some ⟨reason, at', e.lastSeq + 1, e.timers.entries.length⟩, rfl, rfl,
        upToSeq_tell ?_ (by rfl) _⟩
      simp only [upToSeq, live_rearm e.timers c.wake (n + 1) (e.lastSeq + 1) at']

theorem transition_fromSeq (ho : c.resolution = none)
    (h : transition { e with lastSeq := n } c stage now = .ok (e', .ok c')) :
    ∃ e'' w, e.transition c stage now = .ok (e'', .ok { c' with wake := w }) ∧
      w.map Wake.unnumbered = c'.wake.map Wake.unnumbered ∧ e'.upToSeq c.id = e''.upToSeq c.id := by
  rw [transition_eq ho] at h ⊢
  -- The plan reads the settings and the table alone.
  change (e.plan c stage now).map _ = _ at h
  cases hp : e.plan c stage now with
  | error f =>
    rw [hp] at h
    cases h
  | ok p =>
    rw [hp] at h
    obtain ⟨e'', w, hcommit, hrest⟩ := commit_fromSeq (Except.ok.inj h)
    exact ⟨e'', w, congrArg Except.ok hcommit, hrest⟩

theorem transition_frame (ho : c.resolution = none)
    (h : e.transition c stage now = .ok (e', .ok c')) :
    e'.settings = e.settings ∧ e'.cases = e.cases ∧ c'.id = c.id := by
  rcases transition_cases ho h with ⟨_, _, hr⟩ | ⟨_, hr, hm⟩
  · cases hr
  · cases hr
    exact ⟨hm.settings_eq, hm.cases_eq, hm.id_eq⟩

theorem close_fromSeq {diagnostic : Option String} (ho : c.resolution = none)
    (h : close { e with lastSeq := n } c now diagnostic = (e', .ok c')) :
    ∃ e'', e.close c now diagnostic = (e'', .ok c') ∧ e'.cases = e''.cases ∧
      e'.upToSeq c.id = e''.upToSeq c.id ∧ c'.id = c.id := by
  simp only [close, resolve_eq _ ho] at h ⊢
  cases h
  exact ⟨_, rfl, by rw [tell_cases, tell_cases], upToSeq_tell (by rfl) (by rfl) _, rfl⟩

theorem accountElapsed_withWake (e : Engine) (c : Case) (now : Instant) (w : Option Wake) :
    e.accountElapsed { c with wake := w } now =
      (e.accountElapsed c now).map fun c => { c with wake := w } := by
  obtain ⟨id, reason, stage, createdAt, firstSent, lastSent, elapsed, resolution, v, history⟩ := c
  cases firstSent with
  | none => rfl
  | some t =>
    simp only [accountElapsed]
    cases e.settings.hours.between t now <;> rfl

theorem elapsed_fromSeq (ho : c.resolution = none) {c₁ : Case}
    (htr : transition { e with lastSeq := n } c stage now = .ok (e', .ok c₁))
    (ha : e'.accountElapsed c₁ now = .ok c') :
    ∃ e'' w, e.transition c stage now = .ok (e'', .ok { c₁ with wake := w }) ∧
      e''.accountElapsed { c₁ with wake := w } now = .ok { c' with wake := w } ∧
      w.map Wake.unnumbered = c'.wake.map Wake.unnumbered ∧
      e'.cases = e''.cases ∧ e'.upToSeq c.id = e''.upToSeq c.id ∧ c'.id = c.id := by
  obtain ⟨e'', w, htr', hw, hsame⟩ := transition_fromSeq ho htr
  obtain ⟨hsettings, hcases, hid⟩ := transition_frame ho htr
  obtain ⟨hsettings', hcases', -⟩ := transition_frame ho htr'
  obtain ⟨⟨d, rfl⟩, -⟩ := accountElapsed_cases ha
  refine ⟨e'', w, htr', ?_, hw, hcases.trans hcases'.symm, hsame, hid⟩
  rw [accountElapsed_congr (hsettings'.trans hsettings.symm), accountElapsed_withWake, ha]
  rfl

theorem fire_fromSeq {seq? : Option Nat}
    (h : fire { e with lastSeq := n } c seq? = .ok (e', .ok c')) :
    ∃ e'' w, e.fire c seq? = .ok (e'', .ok { c' with wake := w }) ∧
      w.map Wake.unnumbered = c'.wake.map Wake.unnumbered ∧
      e'.cases = e''.cases ∧ e'.upToSeq c.id = e''.upToSeq c.id ∧ c'.id = c.id := by
  simp only [fire] at h ⊢
  split at h
  · next hr =>
    cases h
    exact ⟨e, c.wake, if_pos hr, rfl, rfl, rfl, rfl⟩
  next hr =>
  rw [if_neg hr]
  have ho := Case.not_isResolved.1 hr
  split at h
  · next hs =>
    cases h
    exact ⟨e, c.wake, if_pos hs, rfl, rfl, rfl, rfl⟩
  next hs =>
  rw [if_neg hs]
  split at h
  · cases h
  next now hc =>
  split at h
  · next ht =>
    obtain ⟨c₁, ha, h⟩ := bind_eq_ok.1 h
    obtain ⟨⟨d, rfl⟩, -⟩ := accountElapsed_cases ha
    obtain ⟨e'', hclose, hcases, hsame, hid⟩ :=
      close_fromSeq (show ({ c with elapsed := d } : Case).resolution = none from ho)
        (Except.ok.inj h)
    refine ⟨e'', c'.wake, ?_, rfl, hcases, hsame, hid⟩
    rw [show e.accountElapsed c now = _ from ha, ok_bind]
    exact congrArg Except.ok hclose
  · next stage ht =>
    obtain ⟨⟨e₁, r₁⟩, htr, h⟩ := bind_eq_ok.1 h
    cases r₁ with
    | error err => cases h
    | ok c₁ =>
    obtain ⟨c₂, ha, h⟩ := bind_eq_ok.1 h
    cases h
    obtain ⟨e'', w, htr', ha', hrest⟩ := elapsed_fromSeq ho htr ha
    refine ⟨e'', w, ?_, hrest⟩
    rw [htr', ok_bind]
    simp only [ha', ok_bind]
    rfl

theorem upToSeq_update {e'' : Engine} {w : Option Wake}
    (hw : w.map Wake.unnumbered = c'.wake.map Wake.unnumbered) (hcases : e'.cases = e''.cases)
    (h : e'.upToSeq c'.id = e''.upToSeq c'.id) :
    (e'.update c').upToSeq c'.id = (e''.update { c' with wake := w }).upToSeq c'.id := by
  simp only [upToSeq, Prod.mk.injEq, update] at h ⊢
  refine ⟨?_, h.2⟩
  rw [hcases, List.map_map, List.map_map]
  refine List.map_congr_left fun d hd => ?_
  by_cases hid : d.id = c'.id
  · simp only [Function.comp_apply, hid, if_true, Case.upToSeq, hw]
  · simp only [Function.comp_apply, hid, if_false]

theorem wakeCase_fromSeq {seq? : Option Nat}
    (h : wakeCase { e with lastSeq := n } id seq? = .ok (e', .ok ())) :
    ∃ e'', e.wakeCase id seq? = .ok (e'', .ok ()) ∧ e'.upToSeq id = e''.upToSeq id := by
  simp only [wakeCase] at h ⊢
  split at h
  · cases h
  next c hc =>
  simp only [show e.get? id = some c from hc]
  obtain ⟨⟨e₁, r₁⟩, hf, h⟩ := bind_eq_ok.1 h
  cases r₁ with
  | error err => cases h
  | ok c' =>
    cases h
    obtain ⟨e'', w, hf', hw, hcases, hsame, hid⟩ := fire_fromSeq hf
    refine ⟨_, by rw [hf', ok_bind]; rfl, ?_⟩
    obtain rfl : c'.id = id := hid.trans (id_of_get? hc)
    rw [← hid] at hsame
    exact upToSeq_update hw hcases hsame

def under (e : Engine) (clock : Clock) (refusal : Option String) : Engine :=
  { e with clock, timers := { e.timers with refusal } }

/-- So many deliveries of a firing fail, one after the other, while the clock and the timers change
at will. -/
inductive FailedDeliveries (id : CaseId) (seq : Nat) (e : Engine) : Nat → Engine → Prop
  | none : FailedDeliveries id seq e 0 e
  | outside {k : Nat} {e₁ : Engine} (h : FailedDeliveries id seq e k e₁) (clock : Clock)
      (refusal : Option String) : FailedDeliveries id seq e k (e₁.under clock refusal)
  | delivery {k : Nat} {e₁ e₂ : Engine} {reason : String} (h : FailedDeliveries id seq e k e₁)
      (hd : e₁.handleTimerFired id seq = .ok (e₂, .error (.schedulingUnavailable reason))) :
      FailedDeliveries id seq e (k + 1) e₂

theorem FailedDeliveries.eq_fromSeq {seq k : Nat} (h : FailedDeliveries id seq e k e₁) :
    ∃ n, e.lastSeq ≤ n ∧ e₁ = { e.under e₁.clock e₁.timers.refusal with lastSeq := n } := by
  induction h with
  | none => exact ⟨e.lastSeq, Nat.le_refl _, rfl⟩
  | outside h clock refusal ih =>
    obtain ⟨n, hn, heq⟩ := ih
    exact ⟨n, hn, congrArg (·.under clock refusal) heq⟩
  | delivery h hd ih =>
    obtain ⟨n, hn, heq⟩ := ih
    obtain ⟨m, hm, rfl⟩ := wakeCase_error hd
    rw [heq] at hm ⊢
    exact ⟨m, Nat.le_trans hn hm, rfl⟩

theorem eq_of_read {clock : Clock} {t : Instant} (h : clock.read = .ok t) : clock = ⟨t, none⟩ := by
  obtain ⟨now, outage⟩ := clock
  cases outage with
  | none => exact congrArg (Clock.mk · none) (Except.ok.inj h)
  | some reason => cases h

/-- An operation that finds scheduling unavailable leaves the cases, the timers and the commands as
they are, and at most uses up numbers. So a firing whose deliveries have failed any number of times
does at last what one delivery would have done at the same reading of the clock, but for the number
of the next wake-up. -/
theorem retry_of_unavailable (e : Engine) :
    (∀ op e' reason, e.perform op = .ok (e', .error (.schedulingUnavailable reason)) →
      ∃ n, e.lastSeq ≤ n ∧ e' = { e with lastSeq := n }) ∧
    (∀ id seq k e₁ e' t, FailedDeliveries id seq e k e₁ → e₁.clock.read = .ok t →
      e₁.handleTimerFired id seq = .ok (e', .ok ()) →
        ∃ e'', (e.under ⟨t, none⟩ e₁.timers.refusal).handleTimerFired id seq = .ok (e'', .ok ()) ∧
          e'.upToSeq id = e''.upToSeq id) := by
  refine ⟨fun op e' reason h => perform_error h, fun id seq k e₁ e' t hf ht h => ?_⟩
  obtain ⟨n, -, heq⟩ := hf.eq_fromSeq
  rw [heq, eq_of_read ht] at h
  exact wakeCase_fromSeq h

theorem retry_of_outage :
    run [.start ⟨1⟩ "UNREADABLE_DOCUMENT" ⟨1792404000, 0⟩] standard = .ok waiting ∧
      ∃ e₁ e', FailedDeliveries ⟨1⟩ 1 waiting 2 e₁ ∧ e₁.clock.read = .ok ⟨1792407700, 0⟩ ∧
        e₁.handleTimerFired ⟨1⟩ 1 = .ok (e', .ok ()) ∧ e'.lastSeq = 3 ∧
        ∃ e'', (waiting.under ⟨⟨1792407700, 0⟩, none⟩ e₁.timers.refusal).handleTimerFired ⟨1⟩ 1 =
            .ok (e'', .ok ()) ∧ e'.upToSeq ⟨1⟩ = e''.upToSeq ⟨1⟩ := by
  have down : FailedDeliveries ⟨1⟩ 1 waiting 1
      (waiting.under ⟨⟨1792407600, 0⟩, some "down"⟩ none) :=
    (FailedDeliveries.none.outside ⟨⟨1792407600, 0⟩, some "down"⟩ none).delivery rfl
  have full : FailedDeliveries ⟨1⟩ 1 waiting 2
      { waiting.under ⟨⟨1792407600, 0⟩, none⟩ (some "full") with lastSeq := 2 } :=
    (down.outside ⟨⟨1792407600, 0⟩, none⟩ (some "full")).delivery rfl
  have clear := full.outside ⟨⟨1792407700, 0⟩, none⟩ none
  exact ⟨rfl, _, _, clear, rfl, rfl, rfl,
    (retry_of_unavailable waiting).2 _ _ _ _ _ _ clear rfl rfl⟩

end Engine

end Followup
