import Followup.Engine.Courier
import Followup.Engine.Service
import Followup.Proofs.Engine.Interleaving

/-! The end of the work. What has been emitted is either handled or still pending, in the order in
which it was emitted; so a bridge that stops once its stream is empty has handled all that was
emitted before it was told to stop. -/

namespace Followup

namespace Engine

variable {e : Engine}

theorem emit_of_listening (h : e.listening = true) (cmd : Command) :
    e.emit cmd = { e with commands := e.commands ++ [cmd] } := if_pos h

theorem emit_of_not_listening (h : e.listening = false) (cmd : Command) : e.emit cmd = e := by
  unfold emit
  rw [h]
  rfl

theorem tell_concat (e : Engine) (cs : List Command) (cmd : Command) :
    e.tell (cs ++ [cmd]) = (e.tell cs).emit cmd := by
  cases hl : e.listening with
  | true =>
    have htold : (e.tell cs).listening = true := (tell_listening ..).trans hl
    rw [emit_of_listening htold]
    simp only [tell, hl, if_true, List.append_assoc]
  | false =>
    have htold : (e.tell cs).listening = false := (tell_listening ..).trans hl
    rw [emit_of_not_listening htold]
    simp only [tell, hl, Bool.false_eq_true, if_false]

end Engine

namespace Courier

open Engine (standard waiting answered alert stalled)

variable {e : Engine} {c₀ c₁ c c' : Courier} {w w' : List Event} {x : Event} {cmd : Command}
  {rest : List Command}

theorem emittedBy_snoc (w : List Event) (x : Event) :
    emittedBy (w ++ [x]) = emittedBy w ++ x.emitted := by
  rw [emittedBy, List.flatMap_append, List.flatMap_singleton, emittedBy]

theorem handlingsOf_append (w w' : List Event) :
    handlingsOf (w ++ w') = handlingsOf w ++ handlingsOf w' := List.flatMap_append

theorem handledBy_append (w w' : List Event) :
    handledBy (w ++ w') = handledBy w ++ handledBy w' := by
  rw [handledBy, handlingsOf_append, List.map_append, handledBy, handledBy]

def Event.handled (x : Event) : List Command := x.handlings.map Prod.fst

theorem handledBy_snoc (w : List Event) (x : Event) :
    handledBy (w ++ [x]) = handledBy w ++ x.handled := by
  rw [handledBy_append]
  congr 1
  rw [handledBy, handlingsOf, List.flatMap_singleton, Event.handled]

/-- What has been emitted and is not handled yet. -/
def pending (c : Courier) : List Command := c.held.toList ++ c.queue

theorem pending_of_free (hfree : c.held = none) : c.pending = c.queue := by
  rw [pending, hfree]
  rfl

theorem not_isStopped_iff : ¬ c.IsStopped ↔ c.engine.listening = true := by
  rw [IsStopped, Bool.not_eq_false]

theorem pending_emits (hruns : ¬ c.IsStopped) (htaken : c.taken ≤ c.engine.commands.length)
    (cmd : Command) :
    pending { c with engine := c.engine.emit cmd } = c.pending ++ [cmd] := by
  rw [Engine.emit_of_listening (not_isStopped_iff.1 hruns)]
  change c.held.toList ++ (c.engine.commands ++ [cmd]).drop c.taken = c.pending ++ [cmd]
  rw [List.drop_append_of_le_length htaken, ← List.append_assoc, pending, queue]

theorem pending_changes (hcommands : e.commands = c.engine.commands) :
    pending { c with engine := e } = c.pending := by
  change c.held.toList ++ e.commands.drop c.taken = c.pending
  rw [hcommands, pending, queue]

theorem queue_takes (hqueue : c.queue = cmd :: rest) (held : Option Command) :
    queue { c with taken := c.taken + 1, held } = rest := by
  have htail : c.engine.commands.drop (c.taken + 1) = c.queue.tail := List.tail_drop.symm
  rw [queue, htail, hqueue, List.tail_cons]

theorem pending_takes (hfree : c.held = none) (hqueue : c.queue = cmd :: rest) :
    pending { c with taken := c.taken + 1, held := some cmd } = c.pending := by
  rw [pending, queue_takes hqueue, pending_of_free hfree, hqueue]
  rfl

theorem pending_handles (hheld : c.held = some cmd) :
    c.pending = cmd :: pending { c with held := none } := by
  rw [pending, hheld]
  rfl

theorem taken_lt (hqueue : c.queue = cmd :: rest) : c.taken < c.engine.commands.length := by
  by_contra hle
  rw [queue, List.drop_eq_nil_of_le (Nat.le_of_not_lt hle)] at hqueue
  cases hqueue

/-- What holds of a bridge at any time. It has nothing left to do once it has stopped. -/
structure Sound (c : Courier) : Prop where
  taken_le : c.taken ≤ c.engine.commands.length
  notified : c.isDraining = true → c.isNotified = true
  emptied : c.IsStopped → c.pending = []
  ended : c.IsStopped → c.isNotified = true ∨ c.isHungUp = true

theorem sound_start (hl : e.listening = true) : Sound (start e) := by
  have hruns : ¬ (start e).IsStopped := not_isStopped_iff.2 hl
  exact ⟨Nat.zero_le _, fun h => absurd h Bool.false_ne_true,
    fun h => absurd h hruns, fun h => absurd h hruns⟩

theorem Step.flow (htaken : c.taken ≤ c.engine.commands.length) (hruns : ¬ c.IsStopped)
    (h : Step c x c') : c.pending ++ x.emitted = x.handled ++ c'.pending := by
  cases h with
  | emits hopen cmd => exact (pending_emits hruns htaken cmd).symm
  | changes hcommands => exact (List.append_nil _).trans (pending_changes hcommands).symm
  | notified | hungUp | drains | stops => exact List.append_nil _
  | takes hruns hfree hqueue => exact (List.append_nil _).trans (pending_takes hfree hqueue).symm
  | handles b hruns hheld => exact (List.append_nil _).trans (pending_handles hheld)

theorem Step.silent (hstopped : c.IsStopped) (h : Step c x c') :
    c'.IsStopped ∧ x.handled = [] ∧ c'.pending = c.pending ∧
      (x.emitted = [] ∨ c.isHungUp = false) := by
  cases h with
  | emits hopen cmd =>
    rw [Engine.emit_of_not_listening hstopped]
    exact ⟨hstopped, rfl, rfl, .inr hopen⟩
  | changes hcommands hlistening =>
    exact ⟨hlistening.trans hstopped, rfl, pending_changes hcommands, .inl rfl⟩
  | notified | hungUp => exact ⟨hstopped, rfl, rfl, .inl rfl⟩
  | takes hruns | handles b hruns | drains hruns | stops hruns => exact absurd hstopped hruns

theorem Step.taken_le (htaken : c.taken ≤ c.engine.commands.length) (h : Step c x c') :
    c'.taken ≤ c'.engine.commands.length := by
  cases h with
  | emits hopen cmd =>
    change c.taken ≤ (c.engine.emit cmd).commands.length
    unfold Engine.emit
    split
    · exact Nat.le_trans htaken (List.prefix_append _ _).length_le
    · exact htaken
  | changes hcommands => exact hcommands ▸ htaken
  | takes hruns hfree hqueue => exact taken_lt hqueue
  | notified | hungUp | handles | drains | stops => exact htaken

theorem Step.stopping (hruns : ¬ c.IsStopped) (hstopped : c'.IsStopped) (h : Step c x c') :
    c'.pending = [] ∧ (c'.isDraining = true ∨ c'.isHungUp = true) := by
  cases h with
  | emits hopen cmd =>
    rw [Engine.emit_of_listening (not_isStopped_iff.1 hruns)] at hstopped
    exact absurd hstopped hruns
  | changes hcommands hlistening => exact absurd (hlistening.symm.trans hstopped) hruns
  | notified | hungUp | takes | handles | drains => exact absurd hstopped hruns
  | stops hruns hfree hqueue hend => exact ⟨(pending_of_free hfree).trans hqueue, hend⟩

theorem Step.lasting (h : Step c x c') :
    (c.isNotified = true → c'.isNotified = true) ∧ (c.isHungUp = true → c'.isHungUp = true) := by
  cases h with
  | notified => exact ⟨fun _ => rfl, id⟩
  | hungUp => exact ⟨id, fun _ => rfl⟩
  | emits | changes | takes | handles | drains | stops => exact ⟨id, id⟩

theorem Step.notified_of_draining (hc : c.isDraining = true → c.isNotified = true)
    (h : Step c x c') (hdraining : c'.isDraining = true) : c'.isNotified = true := by
  cases h with
  | notified => rfl
  | drains hruns hfree hnotified => exact hnotified
  | emits | changes | hungUp | takes | handles | stops => exact hc hdraining

theorem Step.sound (hsound : c.Sound) (h : Step c x c') : c'.Sound := by
  have hnotified := h.notified_of_draining hsound.notified
  by_cases hstopped : c.IsStopped
  · obtain ⟨-, -, hpending, -⟩ := h.silent hstopped
    exact ⟨h.taken_le hsound.taken_le, hnotified, fun _ => hpending.trans (hsound.emptied hstopped),
      fun _ => (hsound.ended hstopped).imp h.lasting.1 h.lasting.2⟩
  · exact ⟨h.taken_le hsound.taken_le, hnotified, fun hs => (h.stopping hstopped hs).1,
      fun hs => (h.stopping hstopped hs).2.imp_left hnotified⟩

theorem Runs.sound (hsound : c₀.Sound) (h : Runs c₀ w c) : c.Sound := by
  induction h with
  | nil => exact hsound
  | snoc h hs ih => exact hs.sound ih

/-- Over a whole history, what was pending or has been emitted is handled or still pending, in order,
up to what was emitted after the bridge had stopped because of the notification. -/
theorem Runs.flow (hsound : c₀.Sound) (h : Runs c₀ w c) : ∃ heard missed,
    emittedBy w = heard ++ missed ∧ c₀.pending ++ heard = handledBy w ++ c.pending ∧
      (missed = [] ∨ c.IsStopped ∧ c.isNotified = true) := by
  induction h with
  | nil => exact ⟨[], [], rfl, List.append_nil _, .inl rfl⟩
  | @snoc w x c c' h hs ih =>
    obtain ⟨heard, missed, hemitted, hflow, hmissed⟩ := ih
    have hc := h.sound hsound
    rw [emittedBy_snoc, handledBy_snoc, hemitted]
    by_cases hstopped : c.IsStopped
    · obtain ⟨hstays, hidle, hpending, hopen⟩ := hs.silent hstopped
      refine ⟨heard, missed ++ x.emitted, List.append_assoc .., ?_, ?_⟩
      · rw [hidle, List.append_nil, hpending, hflow]
      · rcases hopen with hnone | hopen
        · rw [hnone, List.append_nil]
          exact hmissed.imp_right fun hm => ⟨hstays, hs.lasting.1 hm.2⟩
        · have hnotified : c.isNotified = true :=
            (hc.ended hstopped).resolve_right (Bool.eq_false_iff.1 hopen)
          exact .inr ⟨hstays, hs.lasting.1 hnotified⟩
    · obtain rfl : missed = [] := hmissed.resolve_right fun hm => hstopped hm.1
      refine ⟨heard ++ x.emitted, [], ?_, ?_, .inl rfl⟩
      · rw [List.append_nil, List.append_nil]
      · rw [← List.append_assoc, hflow, List.append_assoc, hs.flow hc.taken_le hstopped,
          List.append_assoc]

theorem runs_snoc : Runs c₀ (w ++ [x]) c' ↔ ∃ c, Runs c₀ w c ∧ Step c x c' := by
  constructor
  · intro h
    generalize hv : w ++ [x] = v at h
    cases h with
    | nil => cases List.append_ne_nil_of_right_ne_nil w (List.cons_ne_nil x []) hv
    | snoc h hs =>
      obtain ⟨rfl, hx⟩ := List.append_inj' hv rfl
      obtain rfl := List.head_eq_of_cons_eq hx
      exact ⟨_, h, hs⟩
  · rintro ⟨c, h, hs⟩
    exact .snoc h hs

theorem runs_nil : Runs c₀ [] c ↔ c = c₀ := by
  constructor
  · intro h
    generalize hv : ([] : List Event) = v at h
    cases h with
    | nil => rfl
    | snoc h hs => cases List.append_ne_nil_of_right_ne_nil _ (List.cons_ne_nil _ []) hv.symm
  · rintro rfl
    exact .nil

theorem runs_append : Runs c₀ (w ++ w') c ↔ ∃ c₁, Runs c₀ w c₁ ∧ Runs c₁ w' c := by
  induction w' using List.reverseRecOn generalizing c with
  | nil =>
    rw [List.append_nil]
    constructor
    · intro h
      exact ⟨c, h, .nil⟩
    · rintro ⟨c₁, h, h'⟩
      exact runs_nil.1 h' ▸ h
  | append_singleton w' x ih =>
    rw [← List.append_assoc, runs_snoc]
    constructor
    · rintro ⟨c', h, hs⟩
      obtain ⟨c₁, h, h'⟩ := ih.1 h
      exact ⟨c₁, h, .snoc h' hs⟩
    · rintro ⟨c₁, h, h'⟩
      obtain ⟨c', h', hs⟩ := runs_snoc.1 h'
      exact ⟨c', ih.2 ⟨c₁, h, h'⟩, hs⟩

theorem Runs.notified (h : Runs c₀ w c) (hc : c.isNotified = true) :
    c₀.isNotified = true ∨ .notified ∈ w := by
  induction h with
  | nil => exact .inl hc
  | snoc h hs ih =>
    cases hs with
    | notified => exact .inr (List.mem_append_right _ (List.mem_singleton_self _))
    | emits | changes | hungUp | takes | handles | drains | stops =>
      exact (ih hc).imp_right (List.mem_append_left _)

section Ending

def work (c : Courier) : Nat :=
  2 * c.queue.length + c.held.toList.length + (if c.isDraining then 0 else 1) +
    if c.engine.listening then 1 else 0

theorem Step.work_lt (h : Step c x c') (hown : x.isOwn = true) : c'.work < c.work := by
  cases h with
  | emits | changes | notified | hungUp => cases hown
  | takes hruns hfree hqueue =>
    unfold work
    rw [queue_takes hqueue, hqueue, hfree, List.length_cons]
    simp only [Option.toList_some, Option.toList_none, List.length_singleton, List.length_nil]
    omega
  | handles b hruns hheld =>
    have hqueue : queue { c with held := none } = c.queue := rfl
    unfold work
    rw [hqueue, hheld]
    simp only [Option.toList_some, Option.toList_none, List.length_singleton, List.length_nil]
    omega
  | drains hruns hfree hnotified hnew =>
    have hqueue : queue { c with isDraining := true } = c.queue := rfl
    unfold work
    rw [hqueue, hnew]
    simp only [if_true, Bool.false_eq_true, if_false]
    omega
  | stops hruns =>
    have hqueue : queue { c with engine := c.engine.stopListening } = c.queue := rfl
    unfold work
    rw [hqueue, not_isStopped_iff.1 hruns]
    simp only [Engine.stopListening, Bool.false_eq_true, if_false, if_true]
    omega

/-- A bridge that has been notified is never stuck before it stops, whatever its collaborators do. -/
theorem exists_own_step (b : Bridge) (hruns : ¬ c.IsStopped) (hnotified : c.isNotified = true) :
    ∃ x c', x.isOwn = true ∧ Step c x c' := by
  cases hheld : c.held with
  | some cmd => exact ⟨_, _, rfl, .handles b hruns hheld⟩
  | none =>
    cases hdraining : c.isDraining with
    | false => exact ⟨_, _, rfl, .drains hruns hheld hnotified hdraining⟩
    | true =>
      cases hqueue : c.queue with
      | nil => exact ⟨_, _, rfl, .stops hruns hheld hqueue (.inl hdraining)⟩
      | cons cmd rest => exact ⟨_, _, rfl, .takes hruns hheld hqueue⟩

theorem Runs.length_add_work_le (h : Runs c₀ w c) (hown : ∀ x ∈ w, x.isOwn = true) :
    w.length + c.work ≤ c₀.work := by
  induction h with
  | nil => exact Nat.le_of_eq (Nat.zero_add _)
  | @snoc w x c c' h hs ih =>
    obtain ⟨hown, hx⟩ := forall_mem_snoc.1 hown
    have hbefore := ih hown
    have hless := hs.work_lt hx
    rw [List.length_append, List.length_singleton]
    omega

/-- Once the shutdown has been notified, the bridge can go on by itself until it stops. -/
theorem stops_of_notified (b : Bridge) (hnotified : c.isNotified = true) :
    ∃ w c', Runs c w c' ∧ (∀ x ∈ w, x.isOwn = true) ∧ c'.IsStopped := by
  induction hn : c.work using Nat.strongRecOn generalizing c with
  | ind n ih =>
    by_cases hstopped : c.IsStopped
    · exact ⟨[], c, .nil, List.forall_mem_nil _, hstopped⟩
    · obtain ⟨x, c₁, hx, hs⟩ := exists_own_step b hstopped hnotified
      have hless : c₁.work < n := hn ▸ hs.work_lt hx
      obtain ⟨w, c', h, hown, hend⟩ := ih _ hless (hs.lasting.1 hnotified) rfl
      have hfirst : Runs c [x] c₁ := .snoc (w := []) .nil hs
      exact ⟨[x] ++ w, c', runs_append.2 ⟨c₁, hfirst, h⟩, List.forall_mem_cons.2 ⟨hx, hown⟩, hend⟩

end Ending

section Work

theorem runs_emits (hopen : c.isHungUp = false) (cs : List Command) :
    Runs c (cs.map .emits) { c with engine := c.engine.tell cs } := by
  induction cs using List.reverseRecOn with
  | nil =>
    rw [Engine.tell_nil]
    exact .nil
  | append_singleton cs cmd ih =>
    rw [List.map_append, List.map_singleton, Engine.tell_concat]
    exact .snoc ih (.emits (c := { c with engine := c.engine.tell cs }) hopen cmd)

theorem runs_of_perform {ids : List CaseId} {op : Operation} {e' : Engine}
    {reply : Except EngineError Engine.Reply} (hreg : Engine.Registry ids c.engine)
    (hopen : c.isHungUp = false) (hp : c.engine.perform op = .ok (e', reply)) :
    ∃ cs, e'.commands = c.engine.commands ++ cs ∧
      Runs c (cs.map .emits ++ [.changes]) { c with engine := e' } := by
  have hdone := Engine.performed_of_perform hreg.nodup hp
  obtain ⟨⟨cs, hcommands⟩, hlistening⟩ := hdone.effect.commands_grow hreg.listening
  have htold : (c.engine.tell cs).commands = c.engine.commands ++ cs := by
    rw [Engine.tell, if_pos hreg.listening]
  refine ⟨cs, hcommands, .snoc (runs_emits hopen cs) (.changes ?_ ?_)⟩
  · exact hcommands.trans htold.symm
  · exact hlistening.trans (Engine.tell_listening ..).symm

theorem exists_runs_to_empty (b : Bridge) (hruns : ¬ c.IsStopped) (hfree : c.held = none)
    (htaken : c.taken ≤ c.engine.commands.length) :
    ∃ w, Runs c w { c with taken := c.engine.commands.length, held := none } ∧
      handlingsOf w = c.queue.map fun cmd => (cmd, b.handle c.engine cmd) := by
  induction hqueue : c.queue generalizing c with
  | nil =>
    have hall : c.engine.commands.length ≤ c.taken := List.drop_eq_nil_iff.1 hqueue
    refine ⟨[], ?_, rfl⟩
    rw [← Nat.le_antisymm htaken hall, ← hfree]
    exact .nil
  | cons cmd rest ih =>
    have htake := Step.takes hruns hfree hqueue
    have hhandle : Step { c with taken := c.taken + 1, held := some cmd } _ _ :=
      .handles b hruns rfl
    obtain ⟨w, h, hhandlings⟩ := ih (c := { c with taken := c.taken + 1, held := none }) hruns rfl
      (taken_lt hqueue) (queue_takes hqueue none)
    have hfirst : Runs c ([.takes] ++ [.handles cmd (b.handle c.engine cmd)])
        { c with taken := c.taken + 1, held := none } :=
      .snoc (.snoc (w := []) .nil htake) hhandle
    refine ⟨_, runs_append.2 ⟨_, hfirst, h⟩, ?_⟩
    rw [handlingsOf_append, hhandlings, List.map_cons]
    rfl

def ofService (s : Service) : Courier := ⟨s.engine, s.handled, none, false, false, false⟩

variable {s : Service}

/-- A service that carries out all commands at once is a bridge that works off its stream. -/
theorem exists_runs_carryOut (hl : s.engine.listening = true)
    (htaken : s.handled ≤ s.engine.commands.length) :
    ∃ w, Runs (ofService s) w (ofService s.carryOut) ∧
      s.carryOut.handlings = s.handlings ++ (handlingsOf w).map Prod.snd := by
  have hruns : ¬ (ofService s).IsStopped := not_isStopped_iff.2 hl
  obtain ⟨w, h, hhandlings⟩ := exists_runs_to_empty s.bridge hruns rfl htaken
  refine ⟨w, h, ?_⟩
  rw [hhandlings, List.map_map]
  rfl

theorem runs_shutDown (hl : s.engine.listening = true) (hempty : (ofService s).queue = []) :
    Runs (ofService s) [.notified, .drains, .stops]
      ⟨s.shutDown.engine, s.handled, none, true, true, false⟩ := by
  have hruns : ¬ (ofService s).IsStopped := not_isStopped_iff.2 hl
  have hnotified : Runs (ofService s) [.notified] { ofService s with isNotified := true } :=
    .snoc (w := []) .nil (.notified _)
  have hdrains : Runs (ofService s) [.notified, .drains]
      { ofService s with isNotified := true, isDraining := true } :=
    .snoc (w := [_]) hnotified (.drains hruns rfl rfl rfl)
  exact .snoc (w := [_, _]) hdrains (.stops hruns rfl hempty (.inl rfl))

end Work

/-- In every history of a bridge at work, whatever becomes of the calls, the commands it has handled
are the first ones of those that were emitted, each of them once and in order. When it has stopped,
all that were emitted before the shutdown was notified are among them. -/
theorem drained_at_shutdown (hl : e.listening = true) (h : Runs (start e) w c) :
    handledBy w <+: e.commands ++ emittedBy w ∧
    (c.IsStopped → ∀ before after, w = before ++ .notified :: after → .notified ∉ before →
      e.commands ++ emittedBy before <+: handledBy w) := by
  have hstart := sound_start hl
  have hpending : (start e).pending = e.commands := rfl
  constructor
  · obtain ⟨heard, missed, hemitted, hflow, -⟩ := h.flow hstart
    rw [hemitted, ← List.append_assoc, ← hpending, hflow, List.append_assoc]
    exact List.prefix_append _ _
  · rintro hstopped before after rfl hfirst
    obtain ⟨c₁, hbefore, hafter⟩ := runs_append.1 h
    obtain ⟨heard, missed, hemitted, hflow, hmissed⟩ := hbefore.flow hstart
    -- No command was emitted in vain, since the shutdown had not been notified.
    have hnone : missed = [] := by
      refine hmissed.resolve_right fun hm => ?_
      rcases hbefore.notified hm.2 with hstarted | hmem
      · cases hstarted
      · exact hfirst hmem
    obtain ⟨heard', missed', -, hflow', -⟩ := hafter.flow (hbefore.sound hstart)
    have hleft : c.pending = [] := (h.sound hstart).emptied hstopped
    calc e.commands ++ emittedBy before
        = handledBy before ++ c₁.pending := by
          rw [hemitted, hnone, List.append_nil, ← hpending, hflow]
      _ <+: handledBy before ++ (c₁.pending ++ heard') := by
          rw [← List.append_assoc]
          exact List.prefix_append _ _
      _ = handledBy (before ++ .notified :: after) := by
          rw [hflow', hleft, List.append_nil, handledBy_append]

def farewell (id : CaseId) : Command := .resolved id .resumed none ⟨1792405800, 0⟩

def overtaken : List Event :=
  [.emits alert, .changes, .takes, .emits (farewell ⟨1⟩), .changes, .notified,
    .handles alert (stalled.handle answered alert), .drains, .emits (farewell ⟨2⟩), .takes,
    .handles (farewell ⟨1⟩) (stalled.handle (answered.emit (farewell ⟨2⟩)) (farewell ⟨1⟩)), .takes,
    .handles (farewell ⟨2⟩) (stalled.handle (answered.emit (farewell ⟨2⟩)) (farewell ⟨2⟩)), .stops,
    .emits (farewell ⟨3⟩)]

theorem runs_overtaken : ∃ c, Runs (start standard) overtaken c ∧ c.IsStopped := by
  have hruns : ¬ (start waiting).IsStopped := not_isStopped_iff.2 rfl
  have halert := Runs.nil.snoc (.emits (c := start standard) rfl alert)
  have htaken := (halert.snoc (.changes (e := waiting) rfl rfl)).snoc (.takes hruns rfl rfl)
  have hqueued := (htaken.snoc (.emits rfl (farewell ⟨1⟩))).snoc (.changes (e := answered) rfl rfl)
  have hhandled := (hqueued.snoc (.notified _)).snoc (.handles stalled hruns rfl)
  have hlate := (hhandled.snoc (.drains hruns rfl rfl rfl)).snoc (.emits rfl (farewell ⟨2⟩))
  have hfirst := (hlate.snoc (.takes hruns rfl rfl)).snoc (.handles stalled hruns rfl)
  have hsecond := (hfirst.snoc (.takes hruns rfl rfl)).snoc (.handles stalled hruns rfl)
  have hstopped := (hsecond.snoc (.stops hruns rfl rfl (.inl rfl))).snoc (.emits rfl (farewell ⟨3⟩))
  exact ⟨_, hstopped, rfl⟩

theorem drained_at_shutdown_overtaken :
    standard.listening = true ∧ ∃ c, Runs (start standard) overtaken c ∧ c.IsStopped ∧
      handledBy overtaken <+: standard.commands ++ emittedBy overtaken ∧
      standard.commands ++ emittedBy (overtaken.take 5) <+: handledBy overtaken ∧
      handledBy overtaken = [alert, farewell ⟨1⟩, farewell ⟨2⟩] ∧
      emittedBy overtaken = [alert, farewell ⟨1⟩, farewell ⟨2⟩, farewell ⟨3⟩] ∧
      emittedBy (overtaken.take 5) = [alert, farewell ⟨1⟩] := by
  obtain ⟨c, h, hstopped⟩ := runs_overtaken
  obtain ⟨hhandled, hdrained⟩ := drained_at_shutdown rfl h
  have hfirst : Event.notified ∉ overtaken.take 5 := by
    intro hmem
    simp [overtaken] at hmem
  have hbefore := hdrained hstopped (overtaken.take 5) (overtaken.drop 6) rfl hfirst
  exact ⟨rfl, c, h, hstopped, hhandled, hbefore, rfl, rfl, rfl⟩

end Courier

end Followup
