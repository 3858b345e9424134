import Followup.Proofs.Engine.CommandGrammar
import Followup.Proofs.Engine.TimerBalance

/-! An engine as a single id sees it: the case that is registered under the id, what has been told
of it and the wake-ups that were armed for it. A step of a run moves at most one case, and evicts
resolved ones; all other files stay as they are. -/

namespace Followup

structure CaseFile where
  case? : Option Case
  told : List Command
  armed : List WakeRequest

namespace CaseFile

def empty : CaseFile := ⟨none, [], []⟩

def withoutCase (f : CaseFile) : CaseFile := { f with case? := none }

end CaseFile

namespace Engine

variable {e e' e₀ e₁ : Engine} {c c' : Case} {id : CaseId} {now : Instant} {target : Option Stage}
  {op : Operation} {r : Except EngineError Reply} {ids : List CaseId} {before after : List Case}

def armedFor (e : Engine) (id : CaseId) : List WakeRequest := e.timers.armed.filter (·.id = id)

def file (e : Engine) (id : CaseId) : CaseFile := ⟨e.get? id, e.commandsOf id, e.armedFor id⟩

theorem get?_middle (e : Engine) (hne : ∀ d ∈ before ++ after, d.id ≠ c.id) (hid : c'.id = c.id) :
    get? { e with cases := before ++ c' :: after } c.id = some c' := by
  have hbefore : before.find? (·.id = c.id) = none :=
    List.find?_eq_none.2 fun d hd => by simpa using hne d (List.mem_append_left _ hd)
  simp only [get?, List.find?_append, hbefore, Option.none_or, List.find?_cons, hid, decide_true]

theorem get?_other (e₁ : Engine) (hcs : e.cases = before ++ c :: after) (hid : c'.id = c.id)
    (hne : id ≠ c.id) : get? { e₁ with cases := before ++ c' :: after } id = e.get? id := by
  have hc : ¬ c.id = id := Ne.symm hne
  simp only [get?, hcs, List.find?_append, List.find?_cons, hid, hc, decide_false]

theorem get?_filter {keep : Case → Bool} (hn : (e.cases.map Case.id).Nodup) :
    get? { e with cases := e.cases.filter keep } id = (e.get? id).filter keep := by
  cases hc : e.get? id with
  | none =>
    refine List.find?_eq_none.2 fun d hd => ?_
    exact List.find?_eq_none.1 hc d (List.mem_of_mem_filter hd)
  | some c =>
    obtain rfl := id_of_get? hc
    obtain ⟨before, after, hcs, hne⟩ := split_of_get? hn hc
    have hbefore : (before.filter keep).find? (·.id = c.id) = none :=
      List.find?_eq_none.2 fun d hd => by
        simpa using hne d (List.mem_append_left _ (List.mem_of_mem_filter hd))
    have hafter : (after.filter keep).find? (·.id = c.id) = none :=
      List.find?_eq_none.2 fun d hd => by
        simpa using hne d (List.mem_append_right _ (List.mem_of_mem_filter hd))
    cases hk : keep c with
    | true =>
      simp only [get?, hcs, List.filter_append, List.filter_cons, hk, if_true, List.find?_append,
        hbefore, Option.none_or, List.find?_cons, decide_true, Option.filter_some]
    | false =>
      simp only [get?, hcs, List.filter_append, List.filter_cons, hk, List.find?_append, hbefore,
        Option.none_or, hafter, Option.filter_some, Bool.false_eq_true, if_false]

theorem Moved.armedFor_ne (h : Moved e c now target e' c') (hid : id ≠ c.id) :
    e'.armedFor id = e.armedFor id := by
  cases h with
  | rearmed hp hw =>
    simp only [armedFor, tell_timers, TimerBook.armed_rearm, List.filter_append,
      List.filter_singleton, Ne.symm hid, decide_false, cond_false, List.append_nil]
  | closed => simp only [armedFor, tell_timers, TimerBook.armed_release]
  | ended => simp only [armedFor, tell_timers, TimerBook.armed_release]

theorem armedFor_rearm (e : Engine) (w : Option Wake) (n seq : Nat) (wakeAt : Instant)
    (cs : List Command) :
    (tell { e with lastSeq := n, timers := e.timers.rearm w ⟨id, seq, wakeAt⟩ } cs).armedFor id =
      e.armedFor id ++ [⟨id, seq, wakeAt⟩] := by
  simp only [armedFor, tell_timers, TimerBook.armed_rearm, List.filter_append,
    List.filter_singleton, decide_true, cond_true]

theorem armedFor_release (e : Engine) (w : Option Wake) (cs : List Command) :
    (tell { e with timers := e.timers.release w } cs).armedFor id = e.armedFor id := by
  simp only [armedFor, tell_timers, TimerBook.armed_release]

/-- What a step of a run does to the file on an id. -/
inductive Revised (x : Step) (id : CaseId) : Prop
  | same (hw : ∀ c ∈ x.woken?, c.id ≠ id)
      (hr : x.reply = .ok (.responded true) → ∀ now, x.op ≠ .respond id now)
      (hs : x.reply ≠ .ok (.started id)) (hfile : x.after.file id = x.before.file id)
  | woken {c c₁ c' : Case} {now : Instant} {e₁ : Engine} (hw : x.woken? = some c)
      (hr : x.reply = .ok .done) (hid : c.id = id) (hc : x.before.get? id = some c)
      (ho : c.resolution = none) (hclock : x.before.clock.read = .ok now)
      (hm : Moved x.before c now (wakeTarget c) e₁ c₁)
      (ha : x.before.accountElapsed c₁ now = .ok c') (hout : c'.outcome? ≠ some .resumed)
      (hfile : x.after.file id = ⟨some c', e₁.commandsOf id, e₁.armedFor id⟩)
  | resumed {c c' : Case} {now : Instant} (hw : x.woken? = none)
      (hr : x.reply = .ok (.responded true)) (hop : x.op = .respond id now)
      (hc : x.before.get? id = some c) (ho : c.resolution = none)
      (hend : ∃ elapsed, c' = { c.ended .resumed none now with elapsed })
      (hfile : x.after.file id = ⟨some c',
        x.before.commandsOf id ++ [.resolved id .resumed none now], x.before.armedFor id⟩)
  | started {reason : String} {now : Instant} {e₁ : Engine} {c : Case} (hw : x.woken? = none)
      (hr : x.reply = .ok (.started id)) (hop : x.op = .start id reason now)
      (hnone : x.before.file id = .empty)
      (hm : Moved x.before (.fresh id reason now) now (some .initial) e₁ c)
      (hfile : x.after.file id = ⟨some c, e₁.commandsOf id, e₁.armedFor id⟩)
  | evicted {c : Case} {reply : Reply} (hw : x.woken? = none) (hr : x.reply = .ok reply)
      (hi : reply.isIdle) (hc : x.before.get? id = some c) (hres : c.isResolved)
      (hfile : x.after.file id = (x.before.file id).withoutCase)

theorem file_eq {f : CaseFile} (hget : e.get? id = f.case?) (htold : e.commandsOf id = f.told)
    (harmed : e.armedFor id = f.armed) : e.file id = f := by
  rw [file, hget, htold, harmed]

theorem Moved.file_ne (hl : e.listening = true) (h : Moved e c now target e' c')
    (hcs : e.cases = before ++ c :: after) (hid : id ≠ c.id) {d : Case} (hd : d.id = c.id) :
    file { e' with cases := before ++ d :: after } id = e.file id :=
  file_eq (get?_other e' hcs hd hid) (h.commandsOf_ne hl hid) (h.armedFor_ne hid)

theorem get?_of_file {f : CaseFile} (h : e.file id = f) : e.get? id = f.case? :=
  congrArg CaseFile.case? h

theorem case_of_file {f : CaseFile} (h : e.file id = f) (hc : e.get? id = some c) :
    f.case? = some c := (get?_of_file h).symm.trans hc

theorem Registry.file_eq_empty (hr : Registry ids e) (hid : id ∉ ids) : e.file id = .empty := by
  refine file_eq (List.find?_eq_none.2 fun c hc => ?_)
    (List.filter_eq_nil_iff.2 fun cmd hcmd => ?_) (List.filter_eq_nil_iff.2 fun q hq => ?_)
  · simpa using fun h : c.id = id => hid (h ▸ hr.known c hc)
  · simpa using fun h : cmd.caseId = id => hid (h ▸ hr.told cmd hcmd)
  · simpa using fun h : q.id = id => hid (h ▸ hr.armed q hq)

theorem file_of_initial (h : Initial e) (id : CaseId) : e.file id = .empty :=
  (registry_of_initial h).file_eq_empty List.not_mem_nil

theorem get?_append (e₁ : Engine) (hcs : e₁.cases = e.cases) :
    get? { e₁ with cases := e₁.cases ++ [c] } id =
      (e.get? id).or (if c.id = id then some c else none) := by
  simp only [get?, hcs, List.find?_append, List.find?_singleton, decide_eq_true_iff]

theorem not_woken {reply : Reply} (h : e.wakes? op = none) :
    ∀ c ∈ Step.woken? ⟨e, op, .ok reply, e'⟩, c.id ≠ id := by
  intro c hc
  cases h.symm.trans hc

theorem not_started {reply : Reply} (h : reply.isIdle) :
    (.ok reply : Except EngineError Reply) ≠ .ok (.started id) := by
  rintro heq
  cases Except.ok.inj heq
  cases h

theorem not_resumed {reply : Reply} (h : reply.isIdle)
    (heq : (.ok reply : Except EngineError Reply) = .ok (.responded true)) (now : Instant) :
    op ≠ .respond id now := by
  cases Except.ok.inj heq
  cases h

theorem Performed.revised (hr : Registry ids e) (hnew : ∀ id ∈ op.started?, id ∉ ids)
    (h : Performed e op r e') (id : CaseId) : Revised ⟨e, op, r, e'⟩ id := by
  -- A step changes one case at most, so it all comes to whether that is the case of the id.
  cases h with
  | failed => exact .same (fun c hc => nomatch hc) (fun h => nomatch h) (fun h => nomatch h) rfl
  | idle hw hidle => exact .same (not_woken hw) (not_resumed hidle) (not_started hidle) rfl
  | outside clock refusal hop =>
    exact .same (not_woken (wakes?_eq_none hop)) (fun h => nomatch h) (fun h => nomatch h) rfl
  | @woken _ c c₁ c' now e₁ before after hw hcs hne ho hclock hm ha hout =>
    have hid' : c'.id = c.id := by
      obtain ⟨⟨d, rfl⟩, -⟩ := accountElapsed_cases ha
      exact hm.id_eq
    by_cases hid : id = c.id
    · subst hid
      have hc : e.get? c.id = some c := get?_of_mem hr.nodup (by simp [hcs])
      exact .woken hw rfl rfl hc ho hclock hm ha hout (file_eq (get?_middle e₁ hne hid') rfl rfl)
    · refine .same (fun d hd => ?_) (fun h => nomatch h) (fun h => nomatch h)
        (hm.file_ne hr.listening hcs hid hid')
      obtain rfl := Option.some.inj (hw.symm.trans hd)
      exact Ne.symm hid
  | @resumed c c' now before after hcs hne ho ha =>
    have hm := Moved.resumed e c now
    obtain ⟨⟨d, rfl⟩, -⟩ := accountElapsed_cases ha
    by_cases hid : id = c.id
    · subst hid
      have hc : e.get? c.id = some c := get?_of_mem hr.nodup (by simp [hcs])
      refine .resumed rfl rfl rfl hc ho ⟨d, rfl⟩ (file_eq (get?_middle _ hne rfl) ?_ ?_)
      · exact commandsOf_tell (by exact hr.listening) fun cmd hcmd =>
          List.mem_singleton.1 hcmd ▸ rfl
      · exact armedFor_release e c.wake _
    · refine .same (fun d hd => nomatch hd) (fun _ now' hop => ?_) (fun h => nomatch h)
        (hm.file_ne hr.listening hcs hid rfl)
      exact hid (Operation.respond.inj hop).1.symm
  | @started id' reason now e₁ c hm =>
    have hid' : c.id = id' := hm.id_eq
    have hempty := hr.file_eq_empty (hnew id' rfl)
    by_cases hid : id = id'
    · subst hid
      have hget : e.get? id = none := get?_of_file hempty
      refine .started rfl rfl rfl hempty hm (file_eq ?_ rfl rfl)
      rw [get?_append e₁ hm.cases_eq, hget, if_pos hid', Option.none_or]
    · refine .same (fun d hd => nomatch hd) (fun h => nomatch h) (fun h => ?_) (file_eq ?_ ?_ ?_)
      · exact hid (Reply.started.inj (Except.ok.inj h)).symm
      · rw [get?_append e₁ hm.cases_eq, if_neg (hid' ▸ Ne.symm hid), Option.or_none]
        rfl
      · exact hm.commandsOf_ne hr.listening hid
      · exact hm.armedFor_ne hid
  | @evicted _ reply keep hk hop hidle =>
    have hw : e.wakes? op = none := wakes?_eq_none hop
    have hget : get? { e with cases := e.cases.filter keep } id = (e.get? id).filter keep :=
      get?_filter hr.nodup
    have kept (h : (e.get? id).filter keep = e.get? id) :
        Revised ⟨e, op, .ok reply, { e with cases := e.cases.filter keep }⟩ id :=
      .same (not_woken hw) (not_resumed hidle) (not_started hidle)
        (file_eq (hget.trans h) rfl rfl)
    cases hc : e.get? id with
    | none => exact kept (by rw [hc]; rfl)
    | some c =>
      cases hkeep : keep c with
      | true => exact kept (hc ▸ Option.filter_some_pos hkeep)
      | false =>
        have hres := hk c (List.mem_of_find?_eq_some hc) hkeep
        refine .evicted hw rfl hidle hc hres (file_eq ?_ rfl rfl)
        rw [hget, hc, Option.filter_some_neg (by simp [hkeep])]
        rfl

end Engine

end Followup
