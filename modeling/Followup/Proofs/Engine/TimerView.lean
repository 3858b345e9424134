import Followup.Engine.Timers.Watch
import Followup.Proofs.Engine.Run

/-! What the watch shows of its timers. A wake-up is gone as soon as its signal was given, whether
the watch has looked for it or not; so the watch reads like the timer book, in which a wake-up is
cancelled at once. What is armed and what is still wanted then follow from the calls that armed,
cancelled and dropped something, and a look makes no difference to what is answered later. -/

namespace Followup

namespace WatchedWake

def isGone (a : WatchedWake) : Bool := a.isCancelled || decide (a.signal ≠ .awaited)

theorem look_request (a : WatchedWake) : a.look.request = a.request := by
  obtain ⟨r, signal, isCancelled⟩ := a
  cases isCancelled <;> cases signal <;> rfl

theorem look_isCancelled (a : WatchedWake) : a.look.isCancelled = a.isGone := by
  obtain ⟨r, signal, isCancelled⟩ := a
  cases isCancelled <;> cases signal <;> rfl

theorem look_isGone (a : WatchedWake) : a.look.isGone = a.isGone := by
  obtain ⟨r, signal, isCancelled⟩ := a
  cases isCancelled <;> cases signal <;> rfl

theorem give_isGone (a : WatchedWake) : isGone { a with signal := a.signal.give } = true := by
  obtain ⟨r, signal, isCancelled⟩ := a
  cases isCancelled <;> cases signal <;> rfl

end WatchedWake

namespace TimerWatch

variable {w : TimerWatch} {r : WakeRequest}

def refusal (w : TimerWatch) : Option String :=
  if w.isUnavailable then some unavailable else if w.isPoisoned then some poisoned else none

def book (w : TimerWatch) : TimerBook where
  entries := w.entries.map fun a => (a.request, a.isGone)
  refusal := w.refusal

theorem arm_of_error {reason : String} (hb : w.book.arm r = .error reason) :
    w.arm r = .error (.schedulingUnavailable reason) := by
  obtain ⟨entries, isUnavailable, isPoisoned⟩ := w
  cases isUnavailable with
  | true =>
    obtain rfl : unavailable = reason := Except.error.inj hb
    rfl
  | false =>
    cases isPoisoned with
    | true =>
      obtain rfl : poisoned = reason := Except.error.inj hb
      rfl
    | false => cases hb

theorem arm_of_ok {b : TimerBook} {place : Nat} (hb : w.book.arm r = .ok (b, place)) :
    ∃ w', w.arm r = .ok (w', ⟨r.seq, r.wakeAt, some place⟩) ∧ w'.book = b ∧
      w'.isPoisoned = w.isPoisoned := by
  obtain ⟨entries, isUnavailable, isPoisoned⟩ := w
  cases isUnavailable with
  | true => cases hb
  | false =>
    cases isPoisoned with
    | true => cases hb
    | false =>
      obtain ⟨hbook, hplace⟩ := Prod.mk.inj (Except.ok.inj hb)
      refine ⟨⟨entries ++ [⟨r, .awaited, false⟩], false, false⟩, ?_, ?_, rfl⟩
      · rw [← hplace]
        simp [arm, book]
      · rw [← hbook]
        simp [book, refusal, WatchedWake.isGone]

theorem book_give (w : TimerWatch) (entry : Nat) : (w.give entry).book = w.book.cancel entry := by
  unfold book give TimerBook.cancel
  congr 1
  refine List.ext_getElem? fun i => ?_
  simp only [List.getElem?_map, List.getElem?_modify]
  by_cases hi : entry = i
  · subst hi
    cases w.entries[entry]? <;> simp [WatchedWake.give_isGone]
  · simp [hi]

theorem isPoisoned_pending (w : TimerWatch) : w.pending.1.isPoisoned = w.isPoisoned := by
  unfold pending
  split <;> rfl

theorem book_pending (w : TimerWatch) : w.pending.1.book = w.book := by
  unfold pending
  split
  · rfl
  · unfold book
    congr 1
    simp [WatchedWake.look_request, WatchedWake.look_isGone]

section Sound

variable (hw : w.isPoisoned = false)

include hw

theorem book_setUnavailable (on : Bool) : (w.setUnavailable on).book =
    { w.book with refusal := if on then some unavailable else none } := by
  simp [book, refusal, setUnavailable, hw]

theorem armed_eq : w.armed = w.book.armed := by
  simp [armed, TimerBook.armed, book, hw]

theorem pending_eq : w.pending.2 = w.book.live := by
  simp [pending, TimerBook.live, book, hw, List.filter_map, Function.comp_def,
    WatchedWake.look_request, WatchedWake.look_isCancelled]

end Sound

end TimerWatch

theorem WakeHandle.cancel_eq_drop (h : WakeHandle) (w : TimerWatch) : h.cancel w = h.drop w := by
  -- Whoever cancels has given the signal before the handle is dropped.
  obtain ⟨seq, wakeAt, entry?⟩ := h
  cases entry? <;> rfl

namespace TimerDesk

variable {d d' : TimerDesk} {w : History} {c : Call} {x : Call × Reply} {r : WakeRequest} {i : Nat}

section Histories

def grant? : Call × Reply → Option WakeRequest
  | (.arm r, .handed _) => some r
  | _ => none

def release? : Call × Reply → Option Nat
  | (.cancel i, .released true) | (.drop i, .released true) => some i
  | _ => none

def setting? : Call × Reply → Option Bool
  | (.setUnavailable on, _) => some on
  | _ => none

def granted (w : History) : List WakeRequest := w.filterMap grant?

def released (w : History) : List Nat := w.filterMap release?

def isDown (w : History) : Bool := (w.filterMap setting?).getLast?.getD false

/-- The requests that were armed and whose handles were neither cancelled nor dropped. -/
def unreleased (w : History) : List WakeRequest :=
  ((granted w).zipIdx.filter fun (_, i) => i ∉ released w).map Prod.fst

/-- The timer book as it follows from a history. -/
def bookOf (w : History) : TimerBook where
  entries := (granted w).zipIdx.map fun (r, i) => (r, decide (i ∈ released w))
  refusal := if isDown w then some TimerWatch.unavailable else none

def handlesOf (w : History) : List (Option WakeHandle) :=
  (granted w).zipIdx.map fun (r, i) =>
    if i ∈ released w then none else some ⟨r.seq, r.wakeAt, some i⟩

def expected (w : History) : Call → Reply
  | .arm r =>
    if isDown w then .refused (.schedulingUnavailable TimerWatch.unavailable)
    else .handed ⟨r.seq, r.wakeAt, some (granted w).length⟩
  | .cancel i | .drop i => .released (decide (i < (granted w).length ∧ i ∉ released w))
  | .setUnavailable _ => .noted
  | .pending => .requests (unreleased w)
  | .pendingFor id => .request ((unreleased w).find? (·.id = id))
  | .armed => .requests (granted w)

theorem armed_bookOf (w : History) : (bookOf w).armed = granted w := by
  unfold bookOf TimerBook.armed
  rw [List.map_map]
  exact List.zipIdx_map_fst 0 _

theorem live_bookOf (w : History) : (bookOf w).live = unreleased w := by
  unfold bookOf TimerBook.live unreleased
  simp only [List.filter_map, List.map_map, Function.comp_def, decide_not]

theorem getElem?_handlesOf (w : History) (i : Nat) :
    (handlesOf w)[i]? = (granted w)[i]?.map fun r =>
      if i ∈ released w then none else some ⟨r.seq, r.wakeAt, some i⟩ := by
  simp [handlesOf, List.getElem?_zipIdx, Function.comp_def]

theorem granted_snoc (w : History) (x : Call × Reply) :
    granted (w ++ [x]) = granted w ++ (grant? x).toList := filterMap_snoc grant?

theorem released_snoc (w : History) (x : Call × Reply) :
    released (w ++ [x]) = released w ++ (release? x).toList := filterMap_snoc release?

theorem granted_of_none (hx : grant? x = none) : granted (w ++ [x]) = granted w := by
  rw [granted_snoc, hx, Option.toList_none, List.append_nil]

theorem released_of_none (hx : release? x = none) : released (w ++ [x]) = released w := by
  rw [released_snoc, hx, Option.toList_none, List.append_nil]

theorem released_of_some (hx : release? x = some i) :
    released (w ++ [x]) = released w ++ [i] := by
  rw [released_snoc, hx, Option.toList_some]

theorem isDown_snoc (w : History) (x : Call × Reply) :
    isDown (w ++ [x]) = (setting? x).getD (isDown w) := by
  rw [isDown, filterMap_snoc]
  cases hx : setting? x with
  | none => simp [isDown]
  | some on => simp

theorem isDown_of_none (hx : setting? x = none) : isDown (w ++ [x]) = isDown w := by
  rw [isDown_snoc, hx, Option.getD_none]

theorem arm_bookOf_of_down (hdown : isDown w = true) (r : WakeRequest) :
    (bookOf w).arm r = .error TimerWatch.unavailable := by
  simp only [TimerBook.arm, bookOf, hdown, if_true]

theorem arm_bookOf (hup : isDown w = false) (hnew : (granted w).length ∉ released w)
    (r : WakeRequest) (h : WakeHandle) :
    (bookOf w).arm r = .ok (bookOf (w ++ [(.arm r, .handed h)]), (granted w).length) := by
  have hg : granted (w ++ [(.arm r, .handed h)]) = granted w ++ [r] := granted_snoc ..
  have hr : released (w ++ [(.arm r, .handed h)]) = released w := released_of_none rfl
  have hs : isDown (w ++ [(.arm r, .handed h)]) = isDown w := isDown_of_none rfl
  simp [TimerBook.arm, bookOf, hg, hr, hs, hup, hnew, List.zipIdx_append]

theorem handlesOf_arm (hnew : (granted w).length ∉ released w) (r : WakeRequest) (h : WakeHandle) :
    handlesOf (w ++ [(.arm r, .handed h)]) =
      handlesOf w ++ [some ⟨r.seq, r.wakeAt, some (granted w).length⟩] := by
  have hg : granted (w ++ [(.arm r, .handed h)]) = granted w ++ [r] := granted_snoc ..
  have hr : released (w ++ [(.arm r, .handed h)]) = released w := released_of_none rfl
  simp [handlesOf, hg, hr, hnew, List.zipIdx_append]

section Release

variable (hgrant : grant? x = none) (hrelease : release? x = some i)

include hgrant hrelease

theorem cancel_bookOf (hsetting : setting? x = none) :
    (bookOf w).cancel i = bookOf (w ++ [x]) := by
  unfold TimerBook.cancel bookOf
  rw [granted_of_none hgrant, released_of_some hrelease, isDown_of_none hsetting]
  congr 1
  refine List.ext_getElem? fun j => ?_
  simp only [List.getElem?_modify, List.getElem?_map, List.getElem?_zipIdx, Nat.zero_add]
  by_cases hj : i = j
  · subst hj
    cases (granted w)[i]? <;> simp
  · cases (granted w)[j]? <;> simp [hj, Ne.symm hj]

theorem set_handlesOf : (handlesOf w).set i none = handlesOf (w ++ [x]) := by
  refine List.ext_getElem? fun j => ?_
  rw [getElem?_handlesOf, granted_of_none hgrant, released_of_some hrelease, List.getElem?_set',
    getElem?_handlesOf]
  by_cases hj : i = j
  · subst hj
    cases (granted w)[i]? <;> simp
  · cases (granted w)[j]? <;> simp [hj, Ne.symm hj]

end Release

end Histories

/-- The desk is as its history has it. -/
structure Records (d : TimerDesk) (w : History) : Prop where
  sound : d.watch.isPoisoned = false
  book : d.watch.book = bookOf w
  handles : d.handles = handlesOf w
  bounded : ∀ i ∈ released w, i < (granted w).length

theorem records_empty : Records .empty [] := ⟨rfl, rfl, rfl, List.forall_mem_nil _⟩

theorem Records.keep (hd : Records d w) (hgrant : grant? x = none) (hrelease : release? x = none)
    (hsound : d'.watch.isPoisoned = false)
    (hbook : d'.watch.book = { d.watch.book with refusal := (bookOf (w ++ [x])).refusal })
    (hhandles : d'.handles = d.handles) : Records d' (w ++ [x]) := by
  have hg : granted (w ++ [x]) = granted w := granted_of_none hgrant
  have hr : released (w ++ [x]) = released w := released_of_none hrelease
  refine ⟨hsound, ?_, ?_, ?_⟩
  · rw [hbook, hd.book, bookOf, bookOf, hg, hr]
  · rw [hhandles, hd.handles, handlesOf, handlesOf, hg, hr]
  · rw [hg, hr]
    exact hd.bounded

theorem Records.idle (hd : Records d w) (hgrant : grant? x = none) (hrelease : release? x = none)
    (hsetting : setting? x = none) (hsound : d'.watch.isPoisoned = d.watch.isPoisoned)
    (hbook : d'.watch.book = d.watch.book) (hhandles : d'.handles = d.handles) :
    Records d' (w ++ [x]) := by
  refine hd.keep hgrant hrelease (hsound.trans hd.sound) ?_ hhandles
  rw [hbook, hd.book, bookOf, bookOf, isDown_of_none hsetting]

theorem Records.length_notMem (hd : Records d w) : (granted w).length ∉ released w :=
  fun hmem => Nat.lt_irrefl _ (hd.bounded _ hmem)

theorem Records.arm_down (hd : Records d w) (hdown : isDown w = true) (r : WakeRequest) :
    d.answer (.arm r) = (d, .refused (.schedulingUnavailable TimerWatch.unavailable)) := by
  have harm := TimerWatch.arm_of_error (hd.book ▸ arm_bookOf_of_down hdown r)
  simp only [answer, harm]

theorem Records.arm_up (hd : Records d w) (hup : isDown w = false) (r : WakeRequest)
    {h : WakeHandle} (hh : h = ⟨r.seq, r.wakeAt, some (granted w).length⟩) :
    ∃ w', d.answer (.arm r) = (⟨w', d.handles ++ [some h]⟩, .handed h) ∧
      w'.book = bookOf (w ++ [(.arm r, .handed h)]) ∧ w'.isPoisoned = d.watch.isPoisoned := by
  obtain ⟨w', harm, hbook, hsound⟩ :=
    TimerWatch.arm_of_ok (hd.book ▸ arm_bookOf hup hd.length_notMem r h)
  refine ⟨w', ?_, hbook, hsound⟩
  simp only [answer, harm, hh]

theorem Records.arm (hd : Records d w) (r : WakeRequest) :
    (d.answer (.arm r)).2 = expected w (.arm r) ∧
      Records (d.answer (.arm r)).1 (w ++ [(.arm r, (d.answer (.arm r)).2)]) := by
  cases hdown : isDown w with
  | true =>
    rw [hd.arm_down hdown]
    exact ⟨by simp only [expected, hdown, if_true], hd.idle rfl rfl rfl rfl rfl rfl⟩
  | false =>
    obtain ⟨w', heq, hbook, hsound⟩ := hd.arm_up hdown r rfl
    rw [heq]
    refine ⟨by simp [expected, hdown], hsound.trans hd.sound, hbook, ?_, ?_⟩
    · rw [hd.handles, handlesOf_arm hd.length_notMem]
    · rw [granted_snoc, released_of_none rfl, List.length_append]
      exact fun i hi => Nat.lt_add_right _ (hd.bounded i hi)

theorem answer_of_refused {e : EngineError} (h : (d.answer (.arm r)).2 = .refused e) :
    (d.answer (.arm r)).1 = d := by
  cases harm : d.watch.arm r with
  | error e => simp only [answer, harm]
  | ok p =>
    simp only [answer, harm] at h
    cases h

theorem answer_cancel (d : TimerDesk) (i : Nat) : d.answer (.cancel i) = d.answer (.drop i) := by
  have hsame : WakeHandle.cancel = WakeHandle.drop := by
    funext h w
    exact h.cancel_eq_drop w
  rw [answer, answer, hsame]

theorem Records.drop_held (hd : Records d w) (hi : i < (granted w).length)
    (hnot : i ∉ released w) :
    d.answer (.drop i) = (⟨d.watch.give i, d.handles.set i none⟩, .released true) := by
  have hheld : d.handles[i]? =
      some (some ⟨(granted w)[i].seq, (granted w)[i].wakeAt, some i⟩) := by
    rw [hd.handles, getElem?_handlesOf, List.getElem?_eq_getElem hi, Option.map_some, if_neg hnot]
  simp only [answer, release, hheld]
  rfl

theorem Records.drop_other (hd : Records d w)
    (hnot : ¬ (i < (granted w).length ∧ i ∉ released w)) :
    d.answer (.drop i) = (d, .released false) := by
  have hheld : ∀ h, d.handles[i]? ≠ some (some h) := by
    intro h heq
    rw [hd.handles, getElem?_handlesOf] at heq
    obtain ⟨r, hr, hsome⟩ := Option.map_eq_some_iff.1 heq
    refine hnot ⟨(List.getElem?_eq_some_iff.1 hr).1, fun hmem => ?_⟩
    rw [if_pos hmem] at hsome
    cases hsome
  rw [answer, release]
  split
  · exact absurd ‹_› (hheld _)
  · rfl

theorem readings_of_release (hc : c = .cancel i ∨ c = .drop i) (wasHeld : Bool) :
    grant? (c, .released wasHeld) = none ∧
      release? (c, .released wasHeld) = (if wasHeld then some i else none) ∧
      setting? (c, .released wasHeld) = none := by
  rcases hc with rfl | rfl <;> cases wasHeld <;> exact ⟨rfl, rfl, rfl⟩

theorem Records.drop (hd : Records d w) (hc : c = .cancel i ∨ c = .drop i) :
    (d.answer (.drop i)).2 = expected w c ∧
      Records (d.answer (.drop i)).1 (w ++ [(c, (d.answer (.drop i)).2)]) := by
  have hexpected : expected w c =
      .released (decide (i < (granted w).length ∧ i ∉ released w)) := by
    rcases hc with rfl | rfl <;> rfl
  by_cases hheld : i < (granted w).length ∧ i ∉ released w
  · obtain ⟨hgrant, hrelease, hsetting⟩ := readings_of_release hc true
    rw [hd.drop_held hheld.1 hheld.2, hexpected, decide_eq_true hheld]
    refine ⟨rfl, hd.sound, ?_, ?_, ?_⟩
    · rw [← cancel_bookOf hgrant hrelease hsetting, ← hd.book]
      exact TimerWatch.book_give ..
    · rw [← set_handlesOf hgrant hrelease, ← hd.handles]
    · rw [granted_of_none hgrant, released_of_some hrelease]
      exact forall_mem_snoc.2 ⟨hd.bounded, hheld.1⟩
  · obtain ⟨hgrant, hrelease, hsetting⟩ := readings_of_release hc false
    rw [hd.drop_other hheld, hexpected, decide_eq_false hheld]
    exact ⟨rfl, hd.idle hgrant hrelease hsetting rfl rfl rfl⟩

theorem Records.setUnavailable (hd : Records d w) (on : Bool) :
    Records (d.answer (.setUnavailable on)).1 (w ++ [(.setUnavailable on, .noted)]) := by
  have hs : isDown (w ++ [(.setUnavailable on, .noted)]) = on := isDown_snoc ..
  refine hd.keep rfl rfl hd.sound ?_ rfl
  rw [bookOf, hs]
  exact TimerWatch.book_setUnavailable hd.sound on

/-- Every call is answered as it follows from the history, and the history goes on. -/
theorem Records.answer (hd : Records d w) (c : Call) :
    (d.answer c).2 = expected w c ∧ Records (d.answer c).1 (w ++ [(c, (d.answer c).2)]) := by
  have hpending : d.watch.pending.2 = unreleased w := by
    rw [TimerWatch.pending_eq hd.sound, hd.book, live_bookOf]
  have harmed : d.watch.armed = granted w := by
    rw [TimerWatch.armed_eq hd.sound, hd.book, armed_bookOf]
  cases c with
  | arm r => exact hd.arm r
  | cancel i =>
    rw [answer_cancel]
    exact hd.drop (.inl rfl)
  | drop i => exact hd.drop (.inr rfl)
  | setUnavailable on => exact ⟨rfl, hd.setUnavailable on⟩
  | pending =>
    exact ⟨congrArg Reply.requests hpending,
      hd.idle rfl rfl rfl d.watch.isPoisoned_pending d.watch.book_pending rfl⟩
  | pendingFor id =>
    refine ⟨?_, hd.idle rfl rfl rfl d.watch.isPoisoned_pending d.watch.book_pending rfl⟩
    rw [expected, ← hpending]
    rfl
  | armed => exact ⟨congrArg Reply.requests harmed, hd.idle rfl rfl rfl rfl rfl rfl⟩

theorem run_snoc (calls : List Call) (c : Call) :
    after (calls ++ [c]) = ((after calls).answer c).1 ∧
      history (calls ++ [c]) = history calls ++ [(c, ((after calls).answer c).2)] := by
  have hrun : run (calls ++ [c]) = step (run calls) c := List.foldl_append ..
  rw [after, history, hrun]
  exact ⟨rfl, rfl⟩

theorem records_after (calls : List Call) : Records (after calls) (history calls) := by
  induction calls using List.reverseRecOn with
  | nil => exact records_empty
  | append_singleton calls c ih =>
    rw [(run_snoc calls c).1, (run_snoc calls c).2]
    exact (ih.answer c).2

theorem answer_after (calls : List Call) (c : Call) :
    ((after calls).answer c).2 = expected (history calls) c := ((records_after calls).answer c).1

section Looks

def Call.isLook : Call → Bool
  | pending | pendingFor _ | armed => true
  | arm _ | cancel _ | drop _ | setUnavailable _ => false

def withoutLooks (calls : List Call) : List Call := calls.filter fun c => !c.isLook

def changes (w : History) : History := w.filter fun x => !x.1.isLook

theorem readings_of_isLook (hc : c.isLook = true) (reply : Reply) :
    grant? (c, reply) = none ∧ release? (c, reply) = none ∧ setting? (c, reply) = none := by
  cases c with
  | pending | pendingFor | armed => exact ⟨rfl, rfl, rfl⟩
  | arm | cancel | drop | setUnavailable => cases hc

theorem filterMap_changes {α : Type} {f : Call × Reply → Option α}
    (hf : ∀ c reply, c.isLook = true → f (c, reply) = none) (w : History) :
    (changes w).filterMap f = w.filterMap f := by
  rw [changes, List.filterMap_filter]
  refine List.filterMap_congr ?_
  rintro ⟨c, reply⟩ -
  cases hc : c.isLook with
  | true => exact (hf c reply hc).symm
  | false => rfl

theorem expected_changes (w : History) (c : Call) : expected (changes w) c = expected w c := by
  have hg : granted (changes w) = granted w :=
    filterMap_changes (fun _ reply hc => (readings_of_isLook hc reply).1) w
  have hr : released (changes w) = released w :=
    filterMap_changes (fun _ reply hc => (readings_of_isLook hc reply).2.1) w
  have hs : (changes w).filterMap setting? = w.filterMap setting? :=
    filterMap_changes (fun _ reply hc => (readings_of_isLook hc reply).2.2) w
  unfold expected unreleased isDown
  rw [hg, hr, hs]

theorem history_withoutLooks (calls : List Call) :
    history (withoutLooks calls) = changes (history calls) := by
  induction calls using List.reverseRecOn with
  | nil => rfl
  | append_singleton calls c ih =>
    have hcalls : withoutLooks (calls ++ [c]) = withoutLooks calls ++ withoutLooks [c] :=
      List.filter_append ..
    rw [hcalls, (run_snoc calls c).2, changes, List.filter_append, ← changes, ← ih]
    cases hc : c.isLook with
    | true => simp [withoutLooks, hc]
    | false =>
      -- The same changes came before the call, and the reply follows from those.
      have hsame : ((after (withoutLooks calls)).answer c).2 = ((after calls).answer c).2 := by
        rw [answer_after, answer_after, ih, expected_changes]
      have hone : withoutLooks [c] = [c] := by simp [withoutLooks, hc]
      rw [hone, (run_snoc _ c).2, hsame]
      simp [hc]

end Looks

/-- After any calls, all that were armed are listed in the order in which they were; of these, a
look finds just those whose handles were neither cancelled nor dropped, in the same order, and for
one case the first of them. A refused arming changes nothing, and arming is refused just while that
is set. A handle can be given away once, by the one or the other. No reply depends on the looks that
were taken before. -/
theorem view_exact (calls : List Call) :
    ((after calls).answer .armed).2 = .requests (granted (history calls)) ∧
    ((after calls).answer .pending).2 = .requests (unreleased (history calls)) ∧
    (∀ id, ((after calls).answer (.pendingFor id)).2 =
      .request ((unreleased (history calls)).find? (·.id = id))) ∧
    (∀ r e, ((after calls).answer (.arm r)).2 = .refused e →
      ((after calls).answer (.arm r)).1 = after calls) ∧
    (∀ r, (∃ h, ((after calls).answer (.arm r)).2 = .handed h) ↔ isDown (history calls) = false) ∧
    (∀ i c, c = .cancel i ∨ c = .drop i → (((after calls).answer c).2 = .released true ↔
      i < (granted (history calls)).length ∧ i ∉ released (history calls))) ∧
    ∀ calls', withoutLooks calls' = withoutLooks calls → ∀ c,
      ((after calls').answer c).2 = ((after calls).answer c).2 := by
  refine ⟨answer_after calls _, answer_after calls _, fun id => answer_after calls _,
    fun r e => answer_of_refused, fun r => ?_, fun i c hc => ?_, fun calls' hsame c => ?_⟩
  · rw [answer_after]
    cases hdown : isDown (history calls) <;> simp [expected, hdown]
  · rw [answer_after]
    rcases hc with rfl | rfl <;> simp [expected]
  · calc ((after calls').answer c).2
      _ = expected (history (withoutLooks calls')) c := by
        rw [answer_after, history_withoutLooks, expected_changes]
      _ = expected (history (withoutLooks calls)) c := by rw [hsame]
      _ = ((after calls).answer c).2 := by
        rw [answer_after, history_withoutLooks, expected_changes]

def sampled (seq : Nat) : WakeRequest := ⟨⟨1⟩, seq, ⟨1792405800, 0⟩⟩

def flurry : List Call :=
  [.arm (sampled 1), .pending, .arm (sampled 2), .cancel 0, .pending, .pendingFor ⟨1⟩,
    .setUnavailable true, .arm (sampled 3), .drop 0]

theorem view_exact_flurry :
    granted (history flurry) = [sampled 1, sampled 2] ∧ released (history flurry) = [0] ∧
    ((after flurry).answer .armed).2 = .requests [sampled 1, sampled 2] ∧
    ((after flurry).answer .pending).2 = .requests [sampled 2] ∧
    ((after flurry).answer (.pendingFor ⟨1⟩)).2 = .request (some (sampled 2)) ∧
    ((after flurry).answer (.arm (sampled 3))).1 = after flurry ∧
    ((after flurry).answer (.drop 1)).2 = .released true ∧
    withoutLooks flurry ≠ flurry ∧
    ∀ c, ((after (withoutLooks flurry)).answer c).2 = ((after flurry).answer c).2 := by
  obtain ⟨harmed, hpending, hfor, hrefused, -, hrelease, hlooks⟩ := view_exact flurry
  exact ⟨rfl, rfl, harmed, hpending, hfor ⟨1⟩, hrefused _ _ rfl,
    (hrelease 1 (.drop 1) (.inr rfl)).2 (by decide), by decide, hlooks _ rfl⟩

end TimerDesk

end Followup
