import Followup.Proofs.Engine.CaseFile

/-! What an operation leaves alone. One that is about a case keeps all that the engine has on any
other id, and all that the engine works with. -/

namespace Followup

/-- The id that an operation is about. A purge is about no id in particular, and neither is what
happens to the clock and the timers. -/
def Operation.about? : Operation → Option CaseId
  | start id _ _ | timerFired id _ | fire id | respond id _ | evaluate id _ | snapshot id
  | remove id => some id
  | purgeResolved _ | purgeExpired | setClock _ | setOutage _ | setRefusal _ => none

namespace TimerBook

theorem refusal_release (b : TimerBook) (w : Option Wake) :
    (b.release w).refusal = b.refusal := by
  cases w <;> rfl

theorem refusal_rearm (b : TimerBook) (w : Option Wake) (r : WakeRequest) :
    (b.rearm w r).refusal = b.refusal := refusal_release _ w

end TimerBook

namespace Engine

variable {e e' e₁ : Engine} {c c' d : Case} {id other : CaseId} {now : Instant}
  {target : Option Stage} {op : Operation} {r : Except EngineError Reply}

structure SameSurroundings (e e' : Engine) : Prop where
  settings : e'.settings = e.settings
  table : e'.table = e.table
  clock : e'.clock = e.clock
  refusal : e'.timers.refusal = e.timers.refusal
  listening : e'.listening = e.listening

theorem SameSurroundings.refl (e : Engine) : SameSurroundings e e := ⟨rfl, rfl, rfl, rfl, rfl⟩

theorem SameSurroundings.trans (h : SameSurroundings e e₁) (h' : SameSurroundings e₁ e') :
    SameSurroundings e e' where
  settings := h'.settings.trans h.settings
  table := h'.table.trans h.table
  clock := h'.clock.trans h.clock
  refusal := h'.refusal.trans h.refusal
  listening := h'.listening.trans h.listening

theorem surroundings_tell (e : Engine) (cs : List Command) : SameSurroundings e (e.tell cs) := by
  rw [tell]
  split <;> exact ⟨rfl, rfl, rfl, rfl, rfl⟩

theorem surroundings_release (e : Engine) (w : Option Wake) :
    SameSurroundings e { e with timers := e.timers.release w } :=
  ⟨rfl, rfl, rfl, e.timers.refusal_release w, rfl⟩

theorem surroundings_rearm (e : Engine) (w : Option Wake) (n : Nat) (r : WakeRequest) :
    SameSurroundings e { e with lastSeq := n, timers := e.timers.rearm w r } :=
  ⟨rfl, rfl, rfl, e.timers.refusal_rearm w r, rfl⟩

theorem Moved.surroundings (h : Moved e c now target e' c') : SameSurroundings e e' := by
  cases h with
  | rearmed => exact (surroundings_rearm e _ _ _).trans (surroundings_tell _ _)
  | closed | ended => exact (surroundings_release e _).trans (surroundings_tell _ _)

theorem get?_congr (h : e'.cases = e.cases) (id : CaseId) : e'.get? id = e.get? id := by
  rw [get?, h, ← get?]

theorem get?_update (e : Engine) (c : Case) (id : CaseId) :
    (e.update c).get? id = (e.get? id).map fun d => if d.id = c.id then c else d := by
  have same : ∀ d : Case, (if d.id = c.id then c else d).id = d.id := by
    intro d
    split
    · next h => exact h.symm
    · rfl
  simp only [get?, update, List.find?_map, Function.comp_def, same]

theorem get?_update_self (h : e.get? c.id = some d) : (e.update c).get? c.id = some c := by
  rw [get?_update, h, Option.map_some, if_pos (id_of_get? h)]

theorem get?_update_ne (h : id ≠ c.id) : (e.update c).get? id = e.get? id := by
  rw [get?_update]
  cases hd : e.get? id with
  | none => rfl
  | some d => rw [Option.map_some, if_neg (id_of_get? hd ▸ h)]

theorem get?_evict_ne (e : Engine) (h : id ≠ other) : (e.evict other).get? id = e.get? id := by
  rw [evict, get?, get?, List.find?_filter]
  refine congrArg (List.find? · e.cases) (funext fun c => ?_)
  by_cases hc : c.id = id
  · simp [hc, h]
  · simp [hc]

/-- All that the engine has on an id is as it was. -/
structure Untouched (id : CaseId) (e e' : Engine) : Prop extends SameSurroundings e e' where
  file : e'.file id = e.file id

theorem Untouched.refl (id : CaseId) (e : Engine) : Untouched id e e := ⟨.refl e, rfl⟩

theorem Untouched.withSeq (id : CaseId) (e : Engine) (n : Nat) :
    Untouched id e { e with lastSeq := n } := ⟨⟨rfl, rfl, rfl, rfl, rfl⟩, rfl⟩

theorem Untouched.withCases (h : Untouched id e e₁) {cases : List Case}
    (hget : get? { e₁ with cases } id = e₁.get? id) : Untouched id e { e₁ with cases } :=
  ⟨⟨h.settings, h.table, h.clock, h.refusal, h.listening⟩,
    file_eq (hget.trans (get?_of_file h.file)) (congrArg CaseFile.told h.file)
      (congrArg CaseFile.armed h.file)⟩

theorem Moved.untouched (h : Moved e c now target e' c') (hl : e.listening = true)
    (hid : id ≠ c.id) : Untouched id e e' :=
  ⟨h.surroundings, file_eq (congrArg (List.find? _) h.cases_eq) (h.commandsOf_ne hl hid)
    (h.armedFor_ne hid)⟩

theorem untouched_of_start {reason : String} {r : Except EngineError CaseId}
    (hl : e.listening = true) (h : e.start other reason now = .ok (e', r)) (hid : id ≠ other) :
    Untouched id e e' := by
  obtain ⟨⟨e₁, r₁⟩, htr, h⟩ := bind_eq_ok.1 h
  rcases transition_cases rfl htr with ⟨refusal, rfl, rfl⟩ | ⟨c, rfl, hm⟩
  · cases h
    exact .withSeq id e _
  · cases h
    have hc : c.id = other := hm.id_eq
    refine (hm.untouched hl hid).withCases ?_
    rw [get?_append e₁ rfl, if_neg (hc ▸ Ne.symm hid), Option.or_none]

theorem untouched_of_wakeCase {seq? : Option Nat} {r : Except EngineError Unit}
    (hl : e.listening = true) (h : e.wakeCase other seq? = .ok (e', r)) (hid : id ≠ other) :
    Untouched id e e' := by
  simp only [wakeCase] at h
  split at h
  · cases h
    exact .refl id e
  next c hc =>
  obtain rfl := id_of_get? hc
  obtain ⟨⟨e₁, r₁⟩, hf, h⟩ := bind_eq_ok.1 h
  rcases fire_cases hf with
    ⟨rfl, rfl, -⟩ | ⟨reason, n, -, rfl, rfl⟩ | ⟨now, c₁, c', -, -, -, hm, ha, -, rfl⟩
  · cases h
    exact (Untouched.refl id e₁).withCases (get?_update_ne hid)
  · cases h
    exact .withSeq id e n
  · cases h
    obtain ⟨⟨elapsed, rfl⟩, -⟩ := accountElapsed_cases ha
    have hc₁ : c₁.id = c.id := hm.id_eq
    exact (hm.untouched hl hid).withCases
      (get?_update_ne (c := { c₁ with elapsed }) (hc₁ ▸ hid))

theorem untouched_of_onExternalResponse {r : Except EngineError Bool} (hl : e.listening = true)
    (h : e.onExternalResponse other now = .ok (e', r)) (hid : id ≠ other) :
    Untouched id e e' := by
  simp only [onExternalResponse] at h
  split at h
  · cases h
    exact .refl id e
  next c hc =>
  obtain rfl := id_of_get? hc
  split at h
  · cases h
    exact .refl id e
  next hr =>
  obtain ⟨c₁, ha, h⟩ := bind_eq_ok.1 h
  obtain ⟨⟨elapsed, rfl⟩, -⟩ := accountElapsed_cases ha
  have ho : ({ c with elapsed } : Case).resolution = none := Case.not_isResolved.1 hr
  rw [resolve_eq _ ho] at h
  cases h
  exact ((Moved.resumed e { c with elapsed } now).untouched hl hid).withCases (get?_update_ne hid)

theorem untouched_of_remove {r : Except EngineError (Option Case)}
    (h : e.remove other = (e', r)) (hid : id ≠ other) : Untouched id e e' := by
  simp only [remove] at h
  split at h
  · cases h
    exact .refl id e
  split at h
  · cases h
    exact (Untouched.refl id e).withCases (get?_evict_ne e hid)
  · cases h
    exact .refl id e

theorem untouched_of_perform (hl : e.listening = true) (h : e.perform op = .ok (e', r))
    (hop : op.about? = some other) (hid : id ≠ other) : Untouched id e e' := by
  cases op with
  | start other reason now =>
    cases hop
    obtain ⟨a, ha, h⟩ := bind_eq_ok.1 h
    cases h
    exact untouched_of_start hl ha hid
  | timerFired other seq =>
    cases hop
    obtain ⟨a, ha, h⟩ := bind_eq_ok.1 h
    cases h
    exact untouched_of_wakeCase hl ha hid
  | fire other =>
    cases hop
    obtain ⟨a, ha, h⟩ := bind_eq_ok.1 h
    cases h
    exact untouched_of_wakeCase hl ha hid
  | respond other now =>
    cases hop
    obtain ⟨a, ha, h⟩ := bind_eq_ok.1 h
    cases h
    exact untouched_of_onExternalResponse hl ha hid
  | evaluate other now =>
    obtain ⟨r₁, -, h⟩ := bind_eq_ok.1 h
    cases h
    exact .refl id e
  | snapshot other =>
    cases h
    exact .refl id e
  | remove other =>
    cases hop
    cases h
    exact untouched_of_remove rfl hid
  | purgeResolved | purgeExpired | setClock | setOutage | setRefusal => cases hop

theorem Balanced.live_eq (hb : e.Balanced) (hn : (e.cases.map Case.id).Nodup) (id : CaseId) :
    e.timers.live.filter (·.id = id) = ((e.get? id).bind Case.request?).toList := by
  cases hc : e.get? id with
  | none =>
    refine List.filter_eq_nil_iff.2 fun r hr => ?_
    obtain ⟨c, hmem, hreq⟩ := hb.serves.mem_live.1 hr
    have hne := List.find?_eq_none.1 hc c hmem
    rwa [Case.id_of_request? hreq]
  | some c =>
    obtain rfl := id_of_get? hc
    obtain ⟨before, after, hcs, hne⟩ := split_of_get? hn hc
    have hs := hb.serves
    rw [hcs] at hs
    exact (hs.perm List.perm_middle).filter_live hne

theorem Untouched.live_eq (h : Untouched id e e') (hb : e.Balanced) (hb' : e'.Balanced)
    (hn : (e.cases.map Case.id).Nodup) (hn' : (e'.cases.map Case.id).Nodup) :
    e'.timers.live.filter (·.id = id) = e.timers.live.filter (·.id = id) := by
  rw [hb.live_eq hn, hb'.live_eq hn', get?_of_file h.file]
  rfl

end Engine

end Followup
