import Followup.Proofs.Engine.Bystander
import Followup.Proofs.Engine.Retry

/-! Two engines that have the same on one id, but for the numbers and the places of its wake-ups.
What is asked of the one about that id has the same answer from the other, and leaves them with the
same on it again. -/

namespace Followup

structure Wake.Twin (ρ : Nat → Nat) (w v : Wake) : Prop where
  reason : v.reason = w.reason
  wakeAt : v.wakeAt = w.wakeAt
  seq : v.seq = ρ w.seq

def Wake.shown (w : Wake) : Wake := { w with seq := 0, handle := 0 }

structure Case.Twin (ρ : Nat → Nat) (c d : Case) : Prop where
  rest : d = { c with wake := d.wake }
  wake : Option.Rel (Wake.Twin ρ) c.wake d.wake

def Case.shown (c : Case) : Case := { c with wake := c.wake.map Wake.shown }

def WakeRequest.renumber (ρ : Nat → Nat) (r : WakeRequest) : WakeRequest :=
  { r with seq := ρ r.seq }

def Operation.renumber (ρ : Nat → Nat) : Operation → Operation
  | timerFired id seq => timerFired id (ρ seq)
  | op => op

def Engine.Reply.shown : Engine.Reply → Engine.Reply
  | .seen c => .seen c.shown
  | .removed c? => .removed (c?.map Case.shown)
  | r => r

variable {ρ : Nat → Nat} {w v : Option Wake} {c c₁ d : Case} {id : CaseId}

theorem shown_of_twin (h : Option.Rel (Wake.Twin ρ) w v) : v.map Wake.shown = w.map Wake.shown := by
  cases h with
  | none => rfl
  | some h => rw [Option.map_some, Option.map_some, Wake.shown, Wake.shown, h.reason, h.wakeAt]

theorem seq_of_twin (h : Option.Rel (Wake.Twin ρ) w v) :
    v.map Wake.seq = (w.map Wake.seq).map ρ := by
  cases h with
  | none => rfl
  | some h => exact congrArg some h.seq

theorem reason_of_twin (h : Option.Rel (Wake.Twin ρ) w v) :
    v.map Wake.reason = w.map Wake.reason := by
  cases h with
  | none => rfl
  | some h => exact congrArg some h.reason

namespace Case.Twin

theorem id_eq (h : Twin ρ c d) : d.id = c.id := by rw [h.rest]

theorem stage_eq (h : Twin ρ c d) : d.stage = c.stage := by rw [h.rest]

theorem resolution_eq (h : Twin ρ c d) : d.resolution = c.resolution := by rw [h.rest]

theorem isResolved_eq (h : Twin ρ c d) : d.isResolved = c.isResolved := by
  rw [isResolved, h.resolution_eq, isResolved]

theorem shown_eq (h : Twin ρ c d) : d.shown = c.shown := by
  rw [h.rest, shown, shown, shown_of_twin h.wake]

theorem of_not_waiting (h : c.wake = none) : Twin ρ c c := ⟨rfl, h ▸ .none⟩

theorem target_eq (h : Twin ρ c d) : Engine.wakeTarget d = Engine.wakeTarget c := by
  rw [Engine.wakeTarget, reason_of_twin h.wake, h.stage_eq, Engine.wakeTarget]

theorem seq_iff (h : Twin ρ c d) (hρ : ρ.Injective) (seq? : Option Nat) :
    seq?.map ρ = d.wake.map Wake.seq ↔ seq? = c.wake.map Wake.seq := by
  rw [seq_of_twin h.wake]
  exact (Option.map_injective hρ).eq_iff

theorem withWake (h : Twin ρ c d) (hw : Option.Rel (Wake.Twin ρ) w v) :
    Twin ρ { c with wake := w } { d with wake := v } :=
  ⟨by rw [h.rest], hw⟩

theorem ended (h : Twin ρ c d) (outcome : Outcome) (diagnostic : Option String) (now : Instant) :
    Twin ρ (c.ended outcome diagnostic now) (d.ended outcome diagnostic now) :=
  ⟨by rw [h.rest]; rfl, .none⟩

end Case.Twin

namespace Engine

variable {e e' d d' : Engine} {c c' : Case} {stage : Stage} {now : Instant} {p : Plan}
  {op : Operation} {seq? : Option Nat} {cs : List Command} {w v : Option Wake}

theorem SameSurroundings.symm (h : SameSurroundings e d) : SameSurroundings d e :=
  ⟨h.settings.symm, h.table.symm, h.clock.symm, h.refusal.symm, h.listening.symm⟩

structure Beside (id : CaseId) (ρ : Nat → Nat) (e d : Engine) : Prop
    extends SameSurroundings e d where
  told : d.commandsOf id = e.commandsOf id
  armed : d.armedFor id = (e.armedFor id).map (WakeRequest.renumber ρ)

def InStep (e d e' d' : Engine) : Prop :=
  e'.lastSeq = e.lastSeq ∧ d'.lastSeq = d.lastSeq ∨
    e'.lastSeq = e.lastSeq + 1 ∧ d'.lastSeq = d.lastSeq + 1

inductive TwinAnswers (ρ : Nat → Nat) :
    Except EngineError Case → Except EngineError Case → Prop
  | error (err : EngineError) : TwinAnswers ρ (.error err) (.error err)
  | ok {c d : Case} (h : Case.Twin ρ c d) : TwinAnswers ρ (.ok c) (.ok d)

structure Follows (id : CaseId) (ρ : Nat → Nat) (e d : Engine) (a b : Answer Case) : Prop where
  beside : Beside id ρ a.1 b.1
  inStep : InStep e d a.1 b.1
  answers : TwinAnswers ρ a.2 b.2

def Numbers (ρ : Nat → Nat) (e d e' : Engine) : Prop :=
  e'.lastSeq ≠ e.lastSeq → ρ e'.lastSeq = d.lastSeq + 1

namespace Beside

theorem surroundings (h : Beside id ρ e d) (he : SameSurroundings e e')
    (hd : SameSurroundings d d') : SameSurroundings e' d' :=
  (he.symm.trans h.toSameSurroundings).trans hd

theorem withSeq (h : Beside id ρ e d) (m n : Nat) :
    Beside id ρ { e with lastSeq := m } { d with lastSeq := n } :=
  ⟨⟨h.settings, h.table, h.clock, h.refusal, h.listening⟩, h.told, h.armed⟩

theorem withCases (h : Beside id ρ e d) (cs ds : List Case) :
    Beside id ρ { e with cases := cs } { d with cases := ds } :=
  ⟨⟨h.settings, h.table, h.clock, h.refusal, h.listening⟩, h.told, h.armed⟩

theorem release (h : Beside id ρ e d) (hl : e.listening = true) (hcs : ∀ cmd ∈ cs, cmd.caseId = id)
    (w v : Option Wake) :
    Beside id ρ (tell { e with timers := e.timers.release w } cs)
      (tell { d with timers := d.timers.release v } cs) := by
  refine ⟨h.surroundings ((surroundings_release e w).trans (surroundings_tell _ cs))
    ((surroundings_release d v).trans (surroundings_tell _ cs)), ?_, ?_⟩
  · rw [commandsOf_tell (by exact h.listening.trans hl) hcs, commandsOf_tell (by exact hl) hcs]
    exact congrArg (· ++ cs) h.told
  · rw [armedFor_release, armedFor_release, h.armed]

theorem rearm (h : Beside id ρ e d) (hl : e.listening = true) (hcs : ∀ cmd ∈ cs, cmd.caseId = id)
    (hn : ρ (e.lastSeq + 1) = d.lastSeq + 1) (w v : Option Wake) (at' : Instant) :
    Beside id ρ
      (tell { e with
        lastSeq := e.lastSeq + 1, timers := e.timers.rearm w ⟨id, e.lastSeq + 1, at'⟩ } cs)
      (tell { d with
        lastSeq := d.lastSeq + 1, timers := d.timers.rearm v ⟨id, d.lastSeq + 1, at'⟩ } cs) := by
  refine ⟨h.surroundings ((surroundings_rearm e w _ _).trans (surroundings_tell _ cs))
    ((surroundings_rearm d v _ _).trans (surroundings_tell _ cs)), ?_, ?_⟩
  · rw [commandsOf_tell (by exact h.listening.trans hl) hcs, commandsOf_tell (by exact hl) hcs]
    exact congrArg (· ++ cs) h.told
  · rw [armedFor_rearm, armedFor_rearm, h.armed, List.map_append, List.map_singleton,
      WakeRequest.renumber, hn]

end Beside

theorem plan_of_twin (hs : SameSurroundings e d) (ht : c.Twin ρ c') (stage : Stage)
    (now : Instant) : d.plan c' stage now = e.plan c stage now := by
  rw [ht.rest]
  simp only [plan, decideStage, planFor, nextStageAt, hs.settings, hs.table]

theorem notices_of_twin (ht : c.Twin ρ c') (p : Plan) (stage : Stage) (now : Instant) :
    p.notices (c'.enter stage) now = p.notices (c.enter stage) now := by
  rw [ht.rest, Case.enter_withWake]
  cases p <;> rfl

theorem twin_advance (ht : c.Twin ρ c') (p : Plan) (stage : Stage) (now : Instant) :
    Case.Twin ρ (p.advance c stage now) (p.advance c' stage now) := by
  have hwake (c : Case) : (p.advance c stage now).wake = c.wake := by
    cases p <;> exact Case.enter_wake c stage
  refine ⟨?_, by rw [hwake, hwake]; exact ht.wake⟩
  rw [hwake c', ht.rest]
  cases p <;> simp only [Plan.advance, Case.enter_withWake]

theorem Beside.commit (h : Beside id ρ e d) (hl : e.listening = true) (hid : c.id = id)
    (ht : c.Twin ρ c') (stage : Stage) (now : Instant) (p : Plan)
    (hn : Numbers ρ e d (e.commit c stage now p).1) :
    Follows id ρ e d (e.commit c stage now p) (d.commit c' stage now p) := by
  subst hid
  have hcs : ∀ cmd ∈ p.notices (c.enter stage) now, cmd.caseId = c.id :=
    fun cmd => caseId_of_notices
  simp only [Engine.commit, notices_of_twin ht, ht.id_eq, h.refusal] at hn ⊢
  cases hw : p.wake? with
  | none =>
    simp only []
    refine ⟨h.release hl (fun cmd => caseId_of_ending) c.wake c'.wake, ?_, .ok ?_⟩
    · exact .inl ⟨tell_lastSeq .., tell_lastSeq ..⟩
    · exact (twin_advance ht p stage now).ended ..
  | some wake =>
    obtain ⟨reason, at'⟩ := wake
    simp only [hw] at hn ⊢
    cases href : e.timers.refusal with
    | some refusal =>
      simp only []
      exact ⟨h.withSeq _ _, .inr ⟨rfl, rfl⟩, .error _⟩
    | none =>
      simp only [href] at hn ⊢
      have hseq : ρ (e.lastSeq + 1) = d.lastSeq + 1 := by
        rw [Numbers, tell_lastSeq] at hn
        exact hn (Nat.succ_ne_self _)
      refine ⟨h.rearm hl hcs hseq c.wake c'.wake at', ?_, .ok ?_⟩
      · exact .inr ⟨tell_lastSeq .., tell_lastSeq ..⟩
      · exact (twin_advance ht p stage now).withWake (.some ⟨rfl, rfl, hseq.symm⟩)

theorem Beside.transition (h : Beside id ρ e d) (hl : e.listening = true) (hid : c.id = id)
    (ht : c.Twin ρ c') (ho : c.resolution = none) {a : Answer Case}
    (htr : e.transition c stage now = .ok a) (hn : Numbers ρ e d a.1) :
    ∃ b, d.transition c' stage now = .ok b ∧ Follows id ρ e d a b := by
  rw [transition_eq ho] at htr
  rw [transition_eq (ht.resolution_eq.trans ho), plan_of_twin h.toSameSurroundings ht]
  cases hp : e.plan c stage now with
  | error f =>
    rw [hp] at htr
    cases htr
  | ok p =>
    rw [hp] at htr
    cases htr
    exact ⟨_, rfl, h.commit hl hid ht stage now p hn⟩

theorem account_of_twin (hs : SameSurroundings e d) (ht : c.Twin ρ c')
    (h : e.accountElapsed c now = .ok c₁) :
    ∃ d₁, d.accountElapsed c' now = .ok d₁ ∧ c₁.Twin ρ d₁ := by
  refine ⟨{ c₁ with wake := c'.wake }, ?_, ?_⟩
  · rw [accountElapsed_congr hs.settings, ht.rest, accountElapsed_withWake, h]
    rfl
  · obtain ⟨⟨elapsed, rfl⟩, -⟩ := accountElapsed_cases h
    exact ⟨rfl, ht.wake⟩

theorem frame_of_account (h : e.accountElapsed c now = .ok c₁) :
    c₁.id = c.id ∧ c₁.resolution = c.resolution := by
  obtain ⟨⟨elapsed, rfl⟩, -⟩ := accountElapsed_cases h
  exact ⟨rfl, rfl⟩

theorem Beside.resolve (h : Beside id ρ e d) (hl : e.listening = true) (hid : c.id = id)
    (ht : c.Twin ρ c') (ho : c.resolution = none) (outcome : Outcome) (diagnostic : Option String)
    (now : Instant) :
    Beside id ρ (e.resolve c outcome diagnostic now).1 (d.resolve c' outcome diagnostic now).1 ∧
      InStep e d (e.resolve c outcome diagnostic now).1 (d.resolve c' outcome diagnostic now).1 ∧
      Case.Twin ρ (e.resolve c outcome diagnostic now).2
        (d.resolve c' outcome diagnostic now).2 := by
  rw [resolve_eq e ho, resolve_eq d (ht.resolution_eq.trans ho), ht.id_eq]
  refine ⟨h.release hl (fun cmd hcmd => ?_) c.wake c'.wake, ?_, ht.ended ..⟩
  · rw [List.mem_singleton.1 hcmd]
    exact hid
  · exact .inl ⟨tell_lastSeq .., tell_lastSeq ..⟩

theorem Beside.fire (h : Beside id ρ e d) (hρ : ρ.Injective) (hl : e.listening = true)
    (hid : c.id = id) (ht : c.Twin ρ c') {a : Answer Case} (hf : e.fire c seq? = .ok a)
    (hn : Numbers ρ e d a.1) :
    ∃ b, d.fire c' (seq?.map ρ) = .ok b ∧ Follows id ρ e d a b := by
  simp only [Engine.fire] at hf
  simp only [Engine.fire, ht.isResolved_eq, Option.isSome_map, ne_eq, ht.seq_iff hρ, h.clock,
    ht.target_eq]
  -- Both engines are asked the same questions, and each answer is carried over to the second one.
  split at hf
  · next hr =>
    cases hf
    exact ⟨(d, .ok c'), if_pos hr, h, .inl ⟨rfl, rfl⟩, .ok ht⟩
  next hr =>
  have ho := Case.not_isResolved.1 hr
  rw [if_neg hr]
  split at hf
  · next hs =>
    cases hf
    exact ⟨(d, .ok c'), if_pos hs, h, .inl ⟨rfl, rfl⟩, .ok ht⟩
  next hs =>
  rw [if_neg hs]
  cases hclock : e.clock.read with
  | error err =>
    simp only [hclock] at hf ⊢
    cases hf
    exact ⟨_, rfl, h, .inl ⟨rfl, rfl⟩, .error err⟩
  | ok now =>
  simp only [hclock] at hf ⊢
  cases htarget : wakeTarget c with
  | none =>
    simp only [htarget] at hf ⊢
    obtain ⟨c₁, ha, hf⟩ := bind_eq_ok.1 hf
    obtain ⟨d₁, hd, ht₁⟩ := account_of_twin h.toSameSurroundings ht ha
    obtain ⟨hid₁, ho₁⟩ := frame_of_account ha
    cases hf
    rw [hd, ok_bind]
    obtain ⟨hbeside, hstep, htwin⟩ := h.resolve hl (hid₁.trans hid) ht₁ (ho₁.trans ho) .closed
      (some "deadline stage completed") now
    exact ⟨_, rfl, hbeside, hstep, .ok htwin⟩
  | some stage =>
    simp only [htarget] at hf ⊢
    obtain ⟨⟨e₁, r₁⟩, htr, hf⟩ := bind_eq_ok.1 hf
    have hlast : a.1.lastSeq = e₁.lastSeq := by
      cases r₁ with
      | error err => cases hf; rfl
      | ok c₁ =>
        obtain ⟨c₂, -, hf⟩ := bind_eq_ok.1 hf
        cases hf
        rfl
    obtain ⟨⟨d₁, r₂⟩, hd, hbeside, hstep, hanswers⟩ := h.transition hl hid ht ho htr
      (by rw [Numbers, hlast] at hn; exact hn)
    rw [hd, ok_bind]
    cases hanswers with
    | error err =>
      cases hf
      exact ⟨_, rfl, hbeside, hstep, .error err⟩
    | ok ht₁ =>
      obtain ⟨c₂, ha, hf⟩ := bind_eq_ok.1 hf
      cases hf
      obtain ⟨d₂, hd₂, ht₂⟩ := account_of_twin hbeside.toSameSurroundings ht₁ ha
      simp only [hd₂, ok_bind]
      exact ⟨_, rfl, hbeside, hstep, .ok ht₂⟩

/-- The second engine has on an id what the first one has, with a twin of its case. -/
structure Mirrors (id : CaseId) (ρ : Nat → Nat) (e d : Engine) : Prop extends Beside id ρ e d where
  twin : Option.Rel (Case.Twin ρ) (e.get? id) (d.get? id)

structure Repeats (id : CaseId) (ρ : Nat → Nat) (e d : Engine) {α β : Type} (shown : α → β)
    (a b : Answer α) : Prop where
  mirrors : Mirrors id ρ a.1 b.1
  inStep : InStep e d a.1 b.1
  answer : b.2.map shown = a.2.map shown

theorem Mirrors.repeats {α β : Type} {shown : α → β} (h : Mirrors id ρ e d)
    {r s : Except EngineError α} (hr : s.map shown = r.map shown) :
    Repeats id ρ e d shown (e, r) (d, s) := ⟨h, .inl ⟨rfl, rfl⟩, hr⟩

theorem Beside.update (h : Beside id ρ e d) (ht : c.Twin ρ c') (hid : c.id = id)
    (he : (e.get? id).isSome) (hd : (d.get? id).isSome) :
    Mirrors id ρ (e.update c) (d.update c') := by
  subst hid
  obtain ⟨x, hx⟩ := Option.isSome_iff_exists.1 he
  obtain ⟨y, hy⟩ := Option.isSome_iff_exists.1 hd
  refine ⟨h.withCases _ _, ?_⟩
  rw [get?_update_self hx, ← ht.id_eq, get?_update_self (ht.id_eq ▸ hy)]
  exact .some ht

theorem Beside.mirrors (h : Beside id ρ e' d')
    (ht : Option.Rel (Case.Twin ρ) (e.get? id) (d.get? id))
    (he : e'.cases = e.cases) (hd : d'.cases = d.cases) : Mirrors id ρ e' d' := by
  refine ⟨h, ?_⟩
  rw [get?_congr he, get?_congr hd]
  exact ht

theorem frame_of_transition {r : Except EngineError Case} (ho : c.resolution = none)
    (h : e.transition c stage now = .ok (e', r)) :
    e'.cases = e.cases ∧ ∀ c₁, r = .ok c₁ → c₁.id = c.id := by
  rcases transition_cases ho h with ⟨refusal, rfl, rfl⟩ | ⟨c₁, rfl, hm⟩
  · exact ⟨rfl, fun c₁ hr => nomatch hr⟩
  · exact ⟨hm.cases_eq, fun c₂ hr => Except.ok.inj hr ▸ hm.id_eq⟩

theorem frame_of_fire {r : Except EngineError Case} (h : e.fire c seq? = .ok (e', r)) :
    e'.cases = e.cases ∧ ∀ c₁, r = .ok c₁ → c₁.id = c.id := by
  rcases fire_cases h with
    ⟨rfl, rfl, -⟩ | ⟨reason, n, -, rfl, rfl⟩ | ⟨now, c₁, c₂, -, -, -, hm, ha, -, rfl⟩
  · exact ⟨rfl, fun c₁ hr => Except.ok.inj hr ▸ rfl⟩
  · exact ⟨rfl, fun c₁ hr => nomatch hr⟩
  · refine ⟨hm.cases_eq, fun c₃ hr => ?_⟩
    rw [← Except.ok.inj hr, (frame_of_account ha).1, hm.id_eq]

theorem isSome_get? (h : e'.cases = e.cases) (hc : e.get? id = some c) : (e'.get? id).isSome := by
  rw [get?_congr h, hc]
  rfl

namespace Mirrors

theorem get?_cases (h : Mirrors id ρ e d) :
    e.get? id = none ∧ d.get? id = none ∨
      ∃ c c', e.get? id = some c ∧ d.get? id = some c' ∧ c.Twin ρ c' := by
  have htwin := h.twin
  cases hc : e.get? id with
  | none =>
    cases hd : d.get? id with
    | none => exact .inl ⟨rfl, rfl⟩
    | some c' => rw [hc, hd] at htwin; cases htwin
  | some c =>
    cases hd : d.get? id with
    | none => rw [hc, hd] at htwin; cases htwin
    | some c' =>
      rw [hc, hd] at htwin
      cases htwin with
      | some ht => exact .inr ⟨c, c', rfl, rfl, ht⟩

theorem start {reason : String} (h : Mirrors id ρ e d) (hl : e.listening = true)
    {a : Answer CaseId} (hs : e.start id reason now = .ok a) (hn : Numbers ρ e d a.1) :
    ∃ b, d.start id reason now = .ok b ∧ Repeats id ρ e d (fun i => i) a b := by
  obtain ⟨⟨e₁, r₁⟩, htr, hs⟩ := bind_eq_ok.1 hs
  have hlast : a.1.lastSeq = e₁.lastSeq := by
    cases r₁ <;> cases hs <;> rfl
  obtain ⟨⟨d₁, r₂⟩, hd, hbeside, hstep, hanswers⟩ := h.toBeside.transition hl rfl
    (.of_not_waiting rfl) rfl htr (by rw [Numbers, hlast] at hn; exact hn)
  obtain ⟨hcases, hid⟩ := frame_of_transition rfl htr
  obtain ⟨hcases', -⟩ := frame_of_transition rfl hd
  rw [Engine.start, hd, ok_bind]
  cases hanswers with
  | error err =>
    cases hs
    exact ⟨_, rfl, hbeside.mirrors h.twin hcases hcases', hstep, rfl⟩
  | @ok c₁ c₂ ht₁ =>
    cases hs
    have hid₁ : c₁.id = id := hid c₁ rfl
    refine ⟨_, rfl, ⟨hbeside.withCases _ _, ?_⟩, hstep, rfl⟩
    rw [get?_append e₁ hcases, get?_append d₁ hcases', if_pos hid₁, if_pos (ht₁.id_eq.trans hid₁)]
    rcases h.get?_cases with ⟨hc, hd⟩ | ⟨c, c', hc, hd, ht⟩
    · rw [hc, hd]
      exact .some ht₁
    · rw [hc, hd]
      exact .some ht

theorem wakeCase (h : Mirrors id ρ e d) (hρ : ρ.Injective) (hl : e.listening = true)
    {a : Answer Unit} (hw : e.wakeCase id seq? = .ok a) (hn : Numbers ρ e d a.1) :
    ∃ b, d.wakeCase id (seq?.map ρ) = .ok b ∧ Repeats id ρ e d (fun u => u) a b := by
  simp only [Engine.wakeCase] at hw ⊢
  rcases h.get?_cases with ⟨hc, hd⟩ | ⟨c, c', hc, hd, ht⟩
  · simp only [hc, hd] at hw ⊢
    cases hw
    exact ⟨_, rfl, h.repeats rfl⟩
  simp only [hc, hd] at hw ⊢
  obtain ⟨⟨e₁, r₁⟩, hf, hw⟩ := bind_eq_ok.1 hw
  have hlast : a.1.lastSeq = e₁.lastSeq := by
    cases r₁ <;> cases hw <;> rfl
  obtain ⟨⟨d₁, r₂⟩, hfd, hbeside, hstep, hanswers⟩ := h.fire hρ hl (id_of_get? hc) ht hf
    (by rw [Numbers, hlast] at hn; exact hn)
  obtain ⟨hcases, hid⟩ := frame_of_fire hf
  obtain ⟨hcases', -⟩ := frame_of_fire hfd
  simp only [hfd, ok_bind]
  cases hanswers with
  | error err =>
    cases hw
    exact ⟨_, rfl, hbeside.mirrors h.twin hcases hcases', hstep, rfl⟩
  | @ok c₁ c₂ ht₁ =>
    cases hw
    exact ⟨_, rfl, hbeside.update ht₁ ((hid c₁ rfl).trans (id_of_get? hc)) (isSome_get? hcases hc)
      (isSome_get? hcases' hd), hstep, rfl⟩

theorem onExternalResponse (h : Mirrors id ρ e d) (hl : e.listening = true) {a : Answer Bool}
    (hr : e.onExternalResponse id now = .ok a) :
    ∃ b, d.onExternalResponse id now = .ok b ∧ Repeats id ρ e d (fun b => b) a b := by
  simp only [Engine.onExternalResponse] at hr ⊢
  rcases h.get?_cases with ⟨hc, hd⟩ | ⟨c, c', hc, hd, ht⟩
  · simp only [hc, hd] at hr ⊢
    cases hr
    exact ⟨_, rfl, h.repeats rfl⟩
  simp only [hc, hd, ht.isResolved_eq] at hr ⊢
  split at hr
  · next hres =>
    cases hr
    exact ⟨_, if_pos hres, h.repeats rfl⟩
  next hres =>
  rw [if_neg hres]
  obtain ⟨c₁, ha, hr⟩ := bind_eq_ok.1 hr
  obtain ⟨d₁, hd₁, ht₁⟩ := account_of_twin h.toSameSurroundings ht ha
  obtain ⟨hid, ho⟩ := frame_of_account ha
  replace hid := hid.trans (id_of_get? hc)
  replace ho := ho.trans (Case.not_isResolved.1 hres)
  obtain ⟨hbeside, hstep, htwin⟩ := h.resolve hl hid ht₁ ho .resumed none now
  cases hr
  rw [hd₁, ok_bind]
  have hcases : (e.resolve c₁ .resumed none now).1.cases = e.cases := by
    rw [resolve_eq e ho, tell_cases]
  have hcases' : (d.resolve d₁ .resumed none now).1.cases = d.cases := by
    rw [resolve_eq d (ht₁.resolution_eq.trans ho), tell_cases]
  have hid' : (e.resolve c₁ .resumed none now).2.id = id := by
    rw [resolve_eq e ho]
    exact hid
  exact ⟨_, rfl, hbeside.update htwin hid' (isSome_get? hcases hc) (isSome_get? hcases' hd), hstep,
    rfl⟩

theorem evaluateStage (h : Mirrors id ρ e d) (now : Instant) :
    d.evaluateStage id now = e.evaluateStage id now := by
  simp only [Engine.evaluateStage]
  rcases h.get?_cases with ⟨hc, hd⟩ | ⟨c, c', hc, hd, ht⟩
  · simp only [hc, hd]
  · rw [hc, hd, ht.rest]
    simp only [decideStage, h.settings, h.table]

theorem snapshot (h : Mirrors id ρ e d) :
    (d.snapshot id).map Case.shown = (e.snapshot id).map Case.shown := by
  simp only [Engine.snapshot]
  rcases h.get?_cases with ⟨hc, hd⟩ | ⟨c, c', hc, hd, ht⟩
  · rw [hc, hd]
  · rw [hc, hd]
    exact congrArg Except.ok ht.shown_eq

theorem filter (h : Mirrors id ρ e d) (hn : (e.cases.map Case.id).Nodup)
    (hn' : (d.cases.map Case.id).Nodup) {keep : Case → Bool}
    (hk : ∀ c c' : Case, c.Twin ρ c' → keep c' = keep c) :
    Mirrors id ρ { e with cases := e.cases.filter keep }
      { d with cases := d.cases.filter keep } := by
  refine ⟨h.toBeside.withCases _ _, ?_⟩
  rw [get?_filter hn, get?_filter hn']
  rcases h.get?_cases with ⟨hc, hd⟩ | ⟨c, c', hc, hd, ht⟩
  · rw [hc, hd]
    exact .none
  · rw [hc, hd, Option.filter_some, Option.filter_some, hk c c' ht]
    split
    · exact .some ht
    · exact .none

theorem remove (h : Mirrors id ρ e d) (hn : (e.cases.map Case.id).Nodup)
    (hn' : (d.cases.map Case.id).Nodup) :
    Repeats id ρ e d (Option.map Case.shown) (e.remove id) (d.remove id) := by
  simp only [Engine.remove]
  rcases h.get?_cases with ⟨hc, hd⟩ | ⟨c, c', hc, hd, ht⟩
  · simp only [hc, hd]
    exact h.repeats rfl
  simp only [hc, hd, ht.isResolved_eq]
  split
  · refine ⟨h.filter hn hn' fun c c' ht => ?_, .inl ⟨rfl, rfl⟩, ?_⟩
    · rw [ht.id_eq]
    · exact congrArg (fun c => Except.ok (some c)) ht.shown_eq
  · exact h.repeats rfl

theorem purgeResolved (h : Mirrors id ρ e d) (hn : (e.cases.map Case.id).Nodup)
    (hn' : (d.cases.map Case.id).Nodup) (cutoff : Instant) :
    Mirrors id ρ (e.purgeResolved cutoff).1 (d.purgeResolved cutoff).1 :=
  h.filter hn hn' fun c c' ht => by rw [isExpired, ht.resolution_eq, isExpired]

theorem purgeExpired (h : Mirrors id ρ e d) (hn : (e.cases.map Case.id).Nodup)
    (hn' : (d.cases.map Case.id).Nodup) {a : Answer Nat} (hp : e.purgeExpired = .ok a) :
    ∃ b, d.purgeExpired = .ok b ∧ Mirrors id ρ a.1 b.1 ∧ InStep e d a.1 b.1 := by
  simp only [Engine.purgeExpired, h.clock, h.settings] at hp ⊢
  cases hclock : e.clock.read with
  | error err =>
    simp only [hclock] at hp ⊢
    cases hp
    exact ⟨_, rfl, h, .inl ⟨rfl, rfl⟩⟩
  | ok now =>
    simp only [hclock] at hp ⊢
    obtain ⟨cutoff, hcutoff, hp⟩ := bind_eq_ok.1 hp
    cases hp
    rw [hcutoff, ok_bind]
    exact ⟨_, rfl, h.purgeResolved hn hn' cutoff, .inl ⟨rfl, rfl⟩⟩

theorem outside (h : Mirrors id ρ e d) {clock clock' : Clock} {refusal refusal' : Option String}
    (hc : clock' = clock) (hr : refusal' = refusal) :
    Mirrors id ρ { e with clock := clock, timers := { e.timers with refusal := refusal } }
      { d with clock := clock', timers := { d.timers with refusal := refusal' } } :=
  ⟨⟨⟨h.settings, h.table, hc, hr, h.listening⟩, h.told, h.armed⟩, h.twin⟩

end Mirrors

theorem Repeats.as {α β : Type} {shown : α → β} {a b : Answer α} (h : Repeats id ρ e d shown a b)
    {f : α → Reply} (g : β → Reply) (hf : ∀ x, (f x).shown = g (shown x)) :
    Repeats id ρ e d Reply.shown (a.as f) (b.as f) := by
  have read (r : Except EngineError α) : (r.map f).map Reply.shown = (r.map shown).map g := by
    cases r with
    | error err => rfl
    | ok x => exact congrArg Except.ok (hf x)
  refine ⟨h.mirrors, h.inStep, ?_⟩
  simp only [Answer.as, read, h.answer]

theorem Mirrors.perform_about (h : Mirrors id ρ e d) (hρ : ρ.Injective) (hl : e.listening = true)
    (hn : (e.cases.map Case.id).Nodup) (hn' : (d.cases.map Case.id).Nodup)
    (hop : op.about? = some id) {a : Answer Reply} (hp : e.perform op = .ok a)
    (hnum : Numbers ρ e d a.1) :
    ∃ b, d.perform (op.renumber ρ) = .ok b ∧ Repeats id ρ e d Reply.shown a b := by
  cases op with
  | start other reason now =>
    cases hop
    obtain ⟨a, ha, hp⟩ := bind_eq_ok.1 hp
    cases hp
    obtain ⟨b, hb, hr⟩ := h.start hl ha hnum
    exact ⟨_, bind_eq_ok.2 ⟨b, hb, rfl⟩, hr.as .started fun _ => rfl⟩
  | timerFired other seq =>
    cases hop
    obtain ⟨a, ha, hp⟩ := bind_eq_ok.1 hp
    cases hp
    obtain ⟨b, hb, hr⟩ := h.wakeCase hρ hl ha hnum
    exact ⟨_, bind_eq_ok.2 ⟨b, hb, rfl⟩, hr.as (fun _ => .done) fun _ => rfl⟩
  | fire other =>
    cases hop
    obtain ⟨a, ha, hp⟩ := bind_eq_ok.1 hp
    cases hp
    obtain ⟨b, hb, hr⟩ := h.wakeCase hρ hl ha hnum
    exact ⟨_, bind_eq_ok.2 ⟨b, hb, rfl⟩, hr.as (fun _ => .done) fun _ => rfl⟩
  | respond other now =>
    cases hop
    obtain ⟨a, ha, hp⟩ := bind_eq_ok.1 hp
    cases hp
    obtain ⟨b, hb, hr⟩ := h.onExternalResponse hl ha
    exact ⟨_, bind_eq_ok.2 ⟨b, hb, rfl⟩, hr.as .responded fun _ => rfl⟩
  | evaluate other now =>
    cases hop
    obtain ⟨r, hr, hp⟩ := bind_eq_ok.1 hp
    cases hp
    exact ⟨_, bind_eq_ok.2 ⟨r, (h.evaluateStage now).trans hr, rfl⟩, h.repeats rfl⟩
  | snapshot other =>
    cases hop
    cases hp
    exact ⟨_, rfl, (h.repeats h.snapshot).as .seen fun _ => rfl⟩
  | remove other =>
    cases hop
    cases hp
    exact ⟨_, rfl, (h.remove hn hn').as .removed fun _ => rfl⟩
  | purgeResolved | purgeExpired | setClock | setOutage | setRefusal => cases hop

theorem Mirrors.perform_outside (h : Mirrors id ρ e d) (hn : (e.cases.map Case.id).Nodup)
    (hn' : (d.cases.map Case.id).Nodup) (hop : op.about? = none) {a : Answer Reply}
    (hp : e.perform op = .ok a) :
    ∃ b, d.perform (op.renumber ρ) = .ok b ∧ Mirrors id ρ a.1 b.1 ∧ InStep e d a.1 b.1 := by
  cases op with
  | purgeResolved cutoff =>
    cases hp
    exact ⟨_, rfl, h.purgeResolved hn hn' cutoff, .inl ⟨rfl, rfl⟩⟩
  | purgeExpired =>
    obtain ⟨a, ha, hp⟩ := bind_eq_ok.1 hp
    cases hp
    obtain ⟨b, hb, hr⟩ := h.purgeExpired hn hn' ha
    exact ⟨_, bind_eq_ok.2 ⟨b, hb, rfl⟩, hr⟩
  | setClock now =>
    cases hp
    exact ⟨_, rfl, h.outside (by rw [h.clock]) h.refusal, .inl ⟨rfl, rfl⟩⟩
  | setOutage outage =>
    cases hp
    exact ⟨_, rfl, h.outside (by rw [h.clock]) h.refusal, .inl ⟨rfl, rfl⟩⟩
  | setRefusal refusal =>
    cases hp
    exact ⟨_, rfl, h.outside h.clock rfl, .inl ⟨rfl, rfl⟩⟩
  | start | timerFired | fire | respond | evaluate | snapshot | remove => cases hop

end Engine

end Followup
