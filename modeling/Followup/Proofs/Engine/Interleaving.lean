import Followup.Proofs.Engine.Ending

/-! The engine and its bridge side by side. The calls of the bridge fall between the operations of
the engine in any order, and on whatever command; all that a call asks of the engine is whether the
case is there and has been resumed. What a call does after that is up to its channels or its
resumer, and leaves the engine as it is. -/

namespace Followup

variable {id : CaseId}

namespace Bridge

variable {b : Bridge} {e : Engine}

theorem handle_notify (b : Bridge) (e : Engine) (id : CaseId) (reason : String) (stage : Stage)
    (action : Action) (kind : Option NoticeKind) (at' : Instant) :
    b.handle e (.notify id reason stage action kind at') = .nothing ∨
      wantsNotice e id = true ∧ ∃ kind' ∈ kind, b.handle e (.notify id reason stage action kind at') =
        b.deliver kind' (occasion id reason stage action kind' at') := by
  simp only [handle]
  split
  · exact .inl rfl
  · exact .inl rfl
  · split
    · next hwants => exact .inr ⟨hwants, _, rfl, rfl⟩
    · exact .inl rfl

theorem handle_of_not_wanted (h : wantsNotice e id = false) (reason : String) (stage : Stage)
    (action : Action) (kind : Option NoticeKind) (at' : Instant) :
    b.handle e (.notify id reason stage action kind at') = .nothing := by
  rcases b.handle_notify e id reason stage action kind at' with hnothing | ⟨hwants, -⟩
  · exact hnothing
  · cases h.symm.trans hwants

theorem handle_ending (b : Bridge) (e : Engine) (cmd : Command) :
    (b.handle e cmd).ending = cmd.ending? := by
  cases cmd with
  | notify id reason stage action kind at' =>
    rcases b.handle_notify e id reason stage action kind at' with h | ⟨-, kind', -, h⟩
    · rw [h]
      rfl
    · rw [h, deliver]
      split
      · rfl
      · rfl
  | resolved => rfl

theorem result_of_ending {cmd : Command} {ending : Ending}
    (h : (b.handle e cmd).ending = some ending) :
    (b.handle e cmd).result = match b.resumer.resume ending with
      | .ok _ => .ok []
      | .error err => .error (.collaborator b.resumer.name err.message) := by
  rw [handle_ending] at h
  cases cmd with
  | notify => cases h
  | resolved id outcome diagnostic =>
    cases h
    rw [handle, resume, Handling.result]
    cases b.resumer.resume ⟨id, outcome, diagnostic⟩ with
    | ok => rfl
    | error => rfl

theorem handle_of_no_ending {cmd : Command} (h : (b.handle e cmd).ending = none)
    (resumer : Resumer) : { b with resumer := resumer }.handle e cmd = b.handle e cmd := by
  cases cmd with
  | notify => rfl
  | resolved => cases h

theorem caseId_of_delivery (b : Bridge) (e : Engine) (cmd : Command) {d : Delivery}
    (hd : d ∈ (b.handle e cmd).deliveries) : d.caseId = cmd.caseId.write := by
  cases cmd with
  | notify id reason stage action kind at' =>
    rcases b.handle_notify e id reason stage action kind at' with h | ⟨-, kind', -, h⟩
    · rw [h] at hd
      cases hd
    · rw [h, deliver] at hd
      split at hd
      · cases hd
      · next n hn =>
        obtain ⟨subject, -, hn⟩ := bind_eq_ok.1 hn
        obtain ⟨body, -, hn⟩ := bind_eq_ok.1 hn
        cases hn
        obtain ⟨channel, -, rfl⟩ := List.mem_map.1 hd
        rfl
  | resolved => cases hd

end Bridge

namespace Engine

variable {e e' e₀ : Engine} {l : List Step} {x : Step}

structure Call where
  engine : Engine
  bridge : Bridge
  command : Command

def Call.handling (k : Call) : Handling := k.bridge.handle k.engine k.command

inductive Event where
  | step (x : Step)
  | call (k : Call)

namespace Event

def step? : Event → Option Step
  | step x => some x
  | call _ => none

def call? : Event → Option Call
  | step _ => none
  | call k => some k

def asked : Event → Operation ⊕ Command
  | step x => .inl x.op
  | call k => .inr k.command

end Event

def stepsOf (w : List Event) : List Step := w.filterMap Event.step?

def callsOf (w : List Event) : List Call := w.filterMap Event.call?

/-- Operations of an engine, and calls of bridges on commands of its stream, in any order. -/
inductive Interleaves (e₀ : Engine) : List Event → Engine → Prop
  | nil : Interleaves e₀ [] e₀
  | step {w : List Event} {e e' : Engine} {reply : Except EngineError Reply}
      (h : Interleaves e₀ w e) (op : Operation) (hp : e.perform op = .ok (e', reply)) :
      Interleaves e₀ (w ++ [.step ⟨e, op, reply, e'⟩]) e'
  | call {w : List Event} {e : Engine} (h : Interleaves e₀ w e) (b : Bridge) {cmd : Command}
      (hcmd : cmd ∈ e.commands) : Interleaves e₀ (w ++ [.call ⟨e, b, cmd⟩]) e

variable {w w' : List Event}

theorem stepsOf_step (w : List Event) (x : Step) : stepsOf (w ++ [.step x]) = stepsOf w ++ [x] :=
  List.filterMap_append

theorem stepsOf_call (w : List Event) (k : Call) : stepsOf (w ++ [.call k]) = stepsOf w := by
  rw [stepsOf, List.filterMap_append]
  exact List.append_nil _

theorem Interleaves.runs (h : Interleaves e₀ w e) : Runs e₀ (stepsOf w) e := by
  induction h with
  | nil => exact .nil
  | step h op hp ih =>
    rw [stepsOf_step]
    exact ih.snoc op hp
  | call h b hcmd ih => rwa [stepsOf_call]

theorem Finality.not_wanted (hf : Finality id l e) (hx : x ∈ l) (hres : x.Resumes id) :
    Bridge.wantsNotice e id = false := by
  obtain ⟨hresolves, c, hc, hout⟩ := (hf.resumes x hx).1 hres
  rw [Bridge.wantsNotice, Engine.outcome, snapshot]
  rcases (hf.kept x hx hresolves.2).2 with heq | heq
  · have hget : e.get? id = some c := (get?_of_file heq).trans hc
    rw [hget]
    simp only [Except.map, hout]
  · have hget : e.get? id = none := get?_of_file heq
    rw [hget]
    rfl

/-- Once a response has resumed the workflow of a case, every later call on a notice of that case
sends nothing and answers with nothing, whether the case is still there or has been evicted. -/
theorem silent_after_response (h₀ : Initial e₀) (hids : (startsOf (stepsOf w)).Nodup)
    (h : Interleaves e₀ w e) (id : CaseId) :
    w.Pairwise fun before after => ∀ x k, before = .step x → x.Resumes id → after = .call k →
      ∀ reason stage action kind at', k.command = .notify id reason stage action kind at' →
        k.handling = .nothing ∧ k.handling.result = .ok [] := by
  induction h with
  | nil => exact .nil
  | step h op hp ih =>
    rw [stepsOf_step, startsOf_snoc] at hids
    refine pairwise_snoc.2 ⟨ih (List.nodup_append.1 hids).1, fun y _ x k _ _ hk => ?_⟩
    cases hk
  | @call w e h b cmd hcmd ih =>
    rw [stepsOf_call] at hids
    refine pairwise_snoc.2 ⟨ih hids, ?_⟩
    rintro y hy x k rfl hres hk reason stage action kind at' hnotice
    cases hk
    have hx : x ∈ stepsOf w := List.mem_filterMap.2 ⟨_, hy, rfl⟩
    have hnot := (finality_of_runs h₀ hids h.runs id).not_wanted hx hres
    have hnothing : Call.handling ⟨e, b, cmd⟩ = .nothing := by
      rw [Call.handling, hnotice]
      exact Bridge.handle_of_not_wanted hnot reason stage action kind at'
    exact ⟨hnothing, congrArg Handling.result hnothing⟩

def answered : Engine :=
  { waiting with
    timers := ⟨[(⟨⟨1⟩, 1, ⟨1792407600, 0⟩⟩, true)], none⟩
    commands := waiting.commands ++ [.resolved ⟨1⟩ .resumed none ⟨1792405800, 0⟩]
    cases := [{ Case.fresh ⟨1⟩ "UNREADABLE_DOCUMENT" ⟨1792404000, 0⟩ with
      firstSent := some ⟨1792404000, 0⟩
      lastSent := some ⟨1792404000, 0⟩
      elapsed := .ofMinutes 30
      resolution := some ⟨.resumed, none, ⟨1792405800, 0⟩⟩ }] }

def admission : Step :=
  ⟨standard, .start ⟨1⟩ "UNREADABLE_DOCUMENT" ⟨1792404000, 0⟩, .ok (.started ⟨1⟩), waiting⟩

def response : Step :=
  ⟨waiting, .respond ⟨1⟩ ⟨1792405800, 0⟩, .ok (.responded true), answered⟩

def removal : Step :=
  ⟨answered, .remove ⟨1⟩, .ok (.removed answered.cases.head?), { answered with cases := [] }⟩

def alert : Command :=
  .notify ⟨1⟩ "UNREADABLE_DOCUMENT" .initial .sendNow (some .initialAlert) ⟨1792404000, 0⟩

def stalled : Bridge := ⟨.withDefault [.log], .recorder (some "down")⟩

def late : List Event :=
  [.step admission, .step response, .call ⟨answered, stalled, alert⟩, .step removal,
    .call ⟨removal.after, stalled, alert⟩]

theorem interleaves_late : Interleaves standard late removal.after := by
  have hstart : Interleaves standard (late.take 1) waiting := .step (w := []) .nil _ rfl
  have hanswer : Interleaves standard (late.take 2) answered :=
    .step (w := late.take 1) hstart _ rfl
  have hcall : Interleaves standard (late.take 3) answered :=
    .call (w := late.take 2) hanswer stalled (by decide)
  have hremoval : Interleaves standard (late.take 4) removal.after :=
    .step (w := late.take 3) hcall _ rfl
  exact .call (w := late.take 4) hremoval stalled (by decide)

theorem silent_after_response_late :
    Initial standard ∧ (startsOf (stepsOf late)).Nodup ∧ Interleaves standard late removal.after ∧
      response.Resumes ⟨1⟩ ∧ Call.handling ⟨answered, stalled, alert⟩ = .nothing ∧
      Call.handling ⟨removal.after, stalled, alert⟩ = .nothing := by
  have hids : (startsOf (stepsOf late)).Nodup := by decide
  have hres : response.Resumes ⟨1⟩ := ⟨⟨_, rfl⟩, rfl⟩
  have hsilent := silent_after_response initial_standard hids interleaves_late ⟨1⟩
  have hlater := (List.pairwise_cons.1 (List.pairwise_cons.1 hsilent).2).1
  exact ⟨initial_standard, hids, interleaves_late, hres,
    (hlater _ (.head _) response _ rfl hres rfl _ _ _ _ _ rfl).1,
    (hlater _ (.tail _ (.tail _ (.head _))) response _ rfl hres rfl _ _ _ _ _ rfl).1⟩

def toldBy (w : List Event) : List Ending := (callsOf w).filterMap fun k => k.handling.ending

theorem toldBy_eq (hall : (callsOf w).map Call.command = e.commands) :
    toldBy w = e.commands.filterMap Command.ending? := by
  rw [← hall, List.filterMap_map, toldBy]
  exact List.filterMap_congr fun k _ => Bridge.handle_ending k.bridge k.engine k.command

theorem Interleaves.of_snoc {y : Event} (h : Interleaves e₀ (w ++ [y]) e) :
    ∃ e₁, Interleaves e₀ w e₁ ∧
      ((∃ op reply, y = .step ⟨e₁, op, reply, e⟩ ∧ e₁.perform op = .ok (e, reply)) ∨
        ∃ b cmd, y = .call ⟨e₁, b, cmd⟩ ∧ e = e₁) := by
  generalize hw : w ++ [y] = v at h
  cases h with
  | nil => cases List.append_ne_nil_of_right_ne_nil w (List.cons_ne_nil y []) hw
  | step h op hp =>
    obtain ⟨rfl, hy⟩ := List.append_inj' hw rfl
    exact ⟨_, h, .inl ⟨op, _, List.head_eq_of_cons_eq hy, hp⟩⟩
  | call h b hcmd =>
    obtain ⟨rfl, hy⟩ := List.append_inj' hw rfl
    exact ⟨_, h, .inr ⟨b, _, List.head_eq_of_cons_eq hy, rfl⟩⟩

/-- The same operation with the same outcome, or a call on the same command that is handled in the
same way, if the collaborators do the same. -/
def Event.Alike : Event → Event → Prop
  | .step x, .step x' => x' = x
  | .call k, .call k' => k'.command = k.command ∧ (k'.bridge = k.bridge → k'.handling = k.handling)
  | _, _ => False

/-- However the collaborators behave in some calls, the engine and the other calls do the same. -/
theorem Interleaves.alike (h : Interleaves e₀ w e) (h' : Interleaves e₀ w' e')
    (hw : w'.map Event.asked = w.map Event.asked) : e' = e ∧ List.Forall₂ Event.Alike w w' := by
  induction h generalizing w' e' with
  | nil =>
    obtain rfl := List.map_eq_nil_iff.1 hw
    exact ⟨Except.ok.inj h'.runs.run_eq.symm, .nil⟩
  | @step w e e₂ reply h op hp ih =>
    rw [List.map_append] at hw
    obtain ⟨v, rest, rfl, hv, hrest⟩ := List.map_eq_append_iff.1 hw
    obtain ⟨y, rfl, hy⟩ := List.map_eq_singleton_iff.1 hrest
    obtain ⟨e₁, hv', ⟨op', reply', rfl, hp'⟩ | ⟨b, cmd, rfl, -⟩⟩ := h'.of_snoc
    · obtain ⟨rfl, hv⟩ := ih hv' hv
      obtain rfl := Sum.inl.inj hy
      obtain ⟨rfl, rfl⟩ := Prod.mk.inj (Except.ok.inj (hp'.symm.trans hp))
      exact ⟨rfl, List.rel_append hv (.cons rfl .nil)⟩
    · cases hy
  | @call w e h b cmd hcmd ih =>
    rw [List.map_append] at hw
    obtain ⟨v, rest, rfl, hv, hrest⟩ := List.map_eq_append_iff.1 hw
    obtain ⟨y, rfl, hy⟩ := List.map_eq_singleton_iff.1 hrest
    obtain ⟨e₁, hv', ⟨op', reply', rfl, hp'⟩ | ⟨b', cmd', rfl, rfl⟩⟩ := h'.of_snoc
    · cases hy
    · obtain ⟨rfl, hv⟩ := ih hv' hv
      obtain rfl := Sum.inr.inj hy
      have hsame : Event.Alike (.call ⟨e', b, cmd'⟩) (.call ⟨e', b', cmd'⟩) :=
        ⟨rfl, fun hb => congrArg (fun b => Call.handling ⟨e', b, cmd'⟩) hb⟩
      exact ⟨rfl, List.rel_append hv (.cons hsame .nil)⟩

/-- Where the bridge has handled the whole stream in order, the resumer has been called once for
each case that was resolved, with the outcome and the diagnostic that the case was resolved with,
and for no other; no later call was about the same case, so that nothing was sent for it. What the
resumer says to an end is what comes of the call, and no other call depends on it. However the
channels and the resumer behave in some of the calls, all other calls and the engine do the
same. -/
theorem resumed_once_and_last (h₀ : Initial e₀) (hids : (startsOf (stepsOf w)).Nodup)
    (h : Interleaves e₀ w e) (hall : (callsOf w).map Call.command = e.commands) :
    (∀ id, (∀ x ∈ stepsOf w, x.Resolves id → ∃ c r, x.after.get? id = some c ∧
        c.resolution = some r ∧
        (toldBy w).filter (·.id = id) = [⟨id, r.outcome, r.diagnostic⟩]) ∧
      ((∀ x ∈ stepsOf w, ¬ x.Resolves id) → (toldBy w).filter (·.id = id) = [])) ∧
    ((callsOf w).Pairwise fun k later => ∀ ending, k.handling.ending = some ending →
      later.command.caseId ≠ ending.id) ∧
    (∀ k ∈ callsOf w, ∀ d ∈ k.handling.deliveries, d.caseId = k.command.caseId.write) ∧
    (∀ k ∈ callsOf w, ∀ ending, k.handling.ending = some ending →
      k.handling.result = match k.bridge.resumer.resume ending with
        | .ok _ => .ok []
        | .error err => .error (.collaborator k.bridge.resumer.name err.message)) ∧
    (∀ k ∈ callsOf w, k.handling.ending = none → ∀ resumer,
      Call.handling { k with bridge := { k.bridge with resumer := resumer } } = k.handling) ∧
    ∀ w' e', Interleaves e₀ w' e' → w'.map Event.asked = w.map Event.asked →
      e' = e ∧ List.Forall₂ Event.Alike w w' := by
  have htold (id : CaseId) : (toldBy w).filter (·.id = id) = e.endingsOf id := by
    rw [toldBy_eq hall, filter_endings]
    rfl
  refine ⟨fun id => ⟨fun x hx hres => ?_, fun hnone => ?_⟩, ?_, fun k _ d hd => ?_,
    fun _ _ _ hend => Bridge.result_of_ending hend,
    fun _ _ hend => Bridge.handle_of_no_ending hend, fun w' e' h' => h.alike h'⟩
  · obtain ⟨c, hc, hends⟩ := (told_of_runs h₀ hids h.runs id).resolved x hx hres
    obtain ⟨r, hr⟩ := Option.isSome_iff_exists.1 (hres.2.isResolved hc)
    refine ⟨c, r, hc, hr, ?_⟩
    rw [htold, hends, Case.ending?, hr, id_of_get? hc]
    rfl
  · rw [htold]
    exact (told_of_runs h₀ hids h.runs id).unresolved hnone
  · have hpairwise := commands_pairwise h₀ hids h.runs
    rw [← hall, List.pairwise_map] at hpairwise
    refine hpairwise.imp fun {k later} hlast ending hend => hlast ending ?_
    rw [← hend]
    exact (Bridge.handle_ending k.bridge k.engine k.command).symm
  · exact Bridge.caseId_of_delivery k.bridge k.engine k.command hd

def heard : List Event :=
  [.step admission, .call ⟨waiting, stalled, alert⟩, .step response,
    .call ⟨answered, stalled, .resolved ⟨1⟩ .resumed none ⟨1792405800, 0⟩⟩]

theorem interleaves_heard : Interleaves standard heard answered := by
  have hstart : Interleaves standard (heard.take 1) waiting := .step (w := []) .nil _ rfl
  have halert : Interleaves standard (heard.take 2) waiting :=
    .call (w := heard.take 1) hstart stalled (by decide)
  have hanswer : Interleaves standard (heard.take 3) answered :=
    .step (w := heard.take 2) halert _ rfl
  exact .call (w := heard.take 3) hanswer stalled (by decide)

theorem resumed_once_and_last_heard :
    Initial standard ∧ (startsOf (stepsOf heard)).Nodup ∧ Interleaves standard heard answered ∧
      (callsOf heard).map Call.command = answered.commands ∧ response.Resolves ⟨1⟩ ∧
      (toldBy heard).filter (·.id = ⟨1⟩) = [⟨⟨1⟩, .resumed, none⟩] ∧
      (Call.handling ⟨answered, stalled, .resolved ⟨1⟩ .resumed none ⟨1792405800, 0⟩⟩).result =
        .error (.collaborator "recorder" "scheduling unavailable: down") ∧
      Call.handling ⟨waiting, { stalled with resumer := .log }, alert⟩ =
        Call.handling ⟨waiting, stalled, alert⟩ := by
  have hids : (startsOf (stepsOf heard)).Nodup := by decide
  have hall : (callsOf heard).map Call.command = answered.commands := rfl
  have hres : response.Resolves ⟨1⟩ := by
    refine ⟨?_, _, rfl, rfl⟩
    rintro ⟨c, hc, hres⟩
    cases Option.some.inj hc
    cases hres
  obtain ⟨hcases, -, -, hended, hother, -⟩ :=
    resumed_once_and_last initial_standard hids interleaves_heard hall
  obtain ⟨c, r, hc, hr, htold⟩ := (hcases ⟨1⟩).1 response (.tail _ (.head _)) hres
  obtain rfl := Option.some.inj hc
  obtain rfl := Option.some.inj hr
  exact ⟨initial_standard, hids, interleaves_heard, hall, hres, htold,
    hended _ (.tail _ (.head _)) _ rfl, hother _ (.head _) (by decide +kernel) .log⟩

end Engine

end Followup
