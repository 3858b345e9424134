import Followup.Proofs.BusinessHours.NextStart
import Followup.Proofs.Engine.CaseFile
import Followup.Proofs.Engine.OpenHours

/-! Deferrals and time. A deferral arms a wake-up for the next window start, which is later than the
deferral or, when a window starts just then, is the time of the deferral itself. Where wake-ups fire
when they are due or any later, the deferrals of a case go forward in time, except that such a start
may be deferred at again. -/

namespace Followup

namespace Zone

theorem eq_of_resolve_shown {zone : Zone} {offset : Offset} {s t : Instant}
    (hz : zone = .fixed offset) (hs : zone.resolve (zone.shown t) = .ok s) : s = t := by
  subst hz
  obtain ⟨-, rfl⟩ := Reading.checked_eq_ok.1 hs
  simp only [shown, offsetAt, Int.add_sub_cancel]

end Zone

namespace BusinessHours

variable {h : BusinessHours} {offset : Offset} {d : Date} {s t u : Instant}

/-- One instant comes after another, and is later than that unless a window starts then. -/
structure Follows (h : BusinessHours) (t u : Instant) : Prop where
  le : t ≤ u
  lt : ¬ h.Starts t → t < u

theorem Follows.later (hf : h.Follows t s) (hsu : s ≤ u) : h.Follows t u where
  le := le_trans hf.le hsu
  lt hstarts := lt_of_lt_of_le (hf.lt hstarts) hsu

theorem dateAt_of_shown (hshown : h.zone.shown t = .ofDate d h.start) : h.dateAt t = d := by
  rw [dateAt, hshown, Reading.date_ofDate]

section Fixed

variable (hz : h.zone = .fixed offset)
include hz

theorem eq_of_startOn (hshown : h.zone.shown t = .ofDate d h.start) (hs : h.startOn d = .ok s) :
    s = t := by
  rw [startOn, ← hshown] at hs
  exact Zone.eq_of_resolve_shown hz hs

theorem nextStart_eq_iff (hnext : h.nextStart t = .ok s) : s = t ↔ h.Starts t := by
  obtain ⟨date, hdate, hscan⟩ := bind_eq_ok.1 hnext
  obtain ⟨hin, rfl⟩ := localDate_eq_ok.1 hdate
  constructor
  · rintro rfl
    obtain ⟨x, -, -, hb, hstart, -⟩ := of_scan _ _ hin hscan
    exact ⟨x, Zone.shown_resolve hz hstart, hb⟩
  · rintro ⟨x, hshown, hb⟩
    rw [dateAt_of_shown hshown] at hscan
    unfold scanLimit scan at hscan
    rw [if_pos hb] at hscan
    obtain ⟨start, hstart, hscan⟩ := bind_eq_ok.1 hscan
    obtain rfl := eq_of_startOn hz hshown hstart
    rw [if_pos (le_refl start)] at hscan
    exact (Except.ok.inj hscan).symm

theorem lt_nextStart_iff (hnext : h.nextStart t = .ok s) : t < s ↔ ¬ h.Starts t := by
  have hle : t ≤ s := ((h.nextStart_ends t).of_eq_ok hnext).1
  rw [← nextStart_eq_iff hz hnext, lt_iff_le_and_ne, ne_comm]
  exact and_iff_right hle

theorem follows_nextStart (hnext : h.nextStart t = .ok s) : h.Follows t s where
  le := ((h.nextStart_ends t).of_eq_ok hnext).1
  lt := (lt_nextStart_iff hz hnext).2

theorem not_starts_of_closed (hclosed : h.isOpen t = .ok false) : ¬ h.Starts t := by
  rintro ⟨x, hshown, hb⟩
  obtain ⟨date, hdate, hopen⟩ := bind_eq_ok.1 hclosed
  obtain ⟨-, rfl⟩ := localDate_eq_ok.1 hdate
  rw [dateAt_of_shown hshown, if_pos hb] at hopen
  obtain ⟨start, hstart, hopen⟩ := bind_eq_ok.1 hopen
  obtain rfl := eq_of_startOn hz hshown hstart
  rw [if_pos (le_refl start)] at hopen
  obtain ⟨finish, hfinish, hopen⟩ := bind_eq_ok.1 hopen
  have hclock := h.start_lt_finish
  have hlt : start < finish := by
    rw [Zone.lt_resolve_iff hz hfinish, hshown]
    simp only [TimeOfDay.lt_def, Reading.lt_def, Reading.ofDate] at *
    omega
  rw [decide_eq_true hlt] at hopen
  cases hopen

end Fixed

end BusinessHours

open Engine

variable {e e' e₀ : Engine} {p : Plan} {id : CaseId} {cs : List Command} {c c' : Case}
  {stage : Stage} {now first wakeAt t : Instant} {reason : String} {action : Action}
  {kind : Option NoticeKind} {offset : Offset} {h : BusinessHours} {f : CaseFile}

def deferrals (cs : List Command) : List Instant :=
  cs.filterMap fun
    | .notify _ _ _ .scheduleNextWindow _ at' => some at'
    | _ => none

theorem deferrals_append (cs ds : List Command) :
    deferrals (cs ++ ds) = deferrals cs ++ deferrals ds := List.filterMap_append

theorem deferrals_resolved (cs : List Command) (id : CaseId) (outcome : Outcome)
    (diagnostic : Option String) (now : Instant) :
    deferrals (cs ++ [.resolved id outcome diagnostic now]) = deferrals cs := by
  rw [deferrals_append]
  exact List.append_nil _

theorem deferrals_notices (p : Plan) (c : Case) (now : Instant) :
    deferrals (p.notices c now) = [] ∨ deferrals (p.notices c now) = [now] := by
  cases p with
  | defer => exact .inr rfl
  | fail | conclude | send | sendLast => exact .inl rfl

structure CaseFile.Forward (h : BusinessHours) (f : CaseFile) : Prop where
  deferrals : (deferrals f.told).Pairwise h.Follows
  ahead : ∀ c w, f.case? = some c → c.wake = some w → ∀ t ∈ Followup.deferrals f.told,
    h.Follows t w.wakeAt

theorem CaseFile.Forward.empty (h : BusinessHours) : CaseFile.empty.Forward h where
  deferrals := .nil
  ahead _ _ hc := nomatch hc

theorem CaseFile.Forward.withoutCase (hf : f.Forward h) : f.withoutCase.Forward h where
  deferrals := hf.deferrals
  ahead _ _ hc := nomatch hc

theorem CaseFile.Forward.ended (hcs : (Followup.deferrals cs).Pairwise h.Follows)
    (hw : c.wake = none) (outcome : Outcome) (diagnostic : Option String)
    (armed : List WakeRequest) :
    CaseFile.Forward h ⟨some c, cs ++ [.resolved id outcome diagnostic now], armed⟩ where
  deferrals := (deferrals_resolved cs ..).symm ▸ hcs
  ahead d w hd hwake := by
    obtain rfl := Option.some.inj hd
    cases hw.symm.trans hwake

theorem pairwise_deferrals_notices (hcs : (deferrals cs).Pairwise h.Follows)
    (hnow : ∀ t ∈ deferrals cs, h.Follows t now) (p : Plan) (c : Case) :
    (deferrals (cs ++ p.notices c now)).Pairwise h.Follows := by
  rw [deferrals_append]
  rcases deferrals_notices p c now with hnone | hone
  · rw [hnone, List.append_nil]
    exact hcs
  · rw [hone]
    exact pairwise_snoc.2 ⟨hcs, hnow⟩

namespace Engine

variable {l : List Step} {x : Step} {target : Option Stage} {op : Operation}
  {r : Except EngineError Reply} {ids : List CaseId}

theorem le_of_nextStageAt (hn : e.nextStageAt stage first now = .ok (some wakeAt)) :
    now ≤ wakeAt := by
  simp only [nextStageAt] at hn
  split at hn
  · cases hn
  · split at hn
    all_goals
      obtain ⟨v, -, hn⟩ := bind_eq_ok.1 hn
      obtain rfl := Option.some.inj (Except.ok.inj hn)
      exact (Reading.le_max v now).2

def Step.Defers (x : Step) (id : CaseId) (now : Instant) : Prop :=
  ∃ reason stage kind,
    x.after.commands = x.before.commands ++ [.notify id reason stage .scheduleNextWindow kind now]

def Step.NotEarly (x : Step) (id : CaseId) : Prop :=
  ∀ c ∈ x.woken?, c.id = id → ∀ w ∈ c.wake, w.wakeAt ≤ x.before.clock.now

theorem Step.Defers.commandsOf (hd : x.Defers id now) : ∃ reason stage kind,
    x.after.commandsOf id =
      x.before.commandsOf id ++ [.notify id reason stage .scheduleNextWindow kind now] := by
  obtain ⟨reason, stage, kind, hd⟩ := hd
  have hown : [Command.notify id reason stage .scheduleNextWindow kind now].filter (·.caseId = id) =
      [.notify id reason stage .scheduleNextWindow kind now] :=
    List.filter_eq_self.2 fun cmd hcmd => List.mem_singleton.1 hcmd ▸ decide_eq_true rfl
  exact ⟨reason, stage, kind, by rw [Engine.commandsOf, hd, List.filter_append, hown]; rfl⟩

theorem Moved.of_deferral (hl : e.listening = true) (hm : Moved e c now target e' c')
    (htold : e'.commandsOf c.id =
      e.commandsOf c.id ++ [.notify id reason stage .scheduleNextWindow kind t]) :
    t = now ∧ ∃ w, c'.wake = some w ∧ w.reason = .deferred ∧
      e'.armedFor c.id = e.armedFor c.id ++ [⟨c.id, w.seq, w.wakeAt⟩] ∧
      e.settings.hours.nextStart now = .ok w.wakeAt := by
  cases hm with
  | @rearmed stage' p wakeReason wakeAt hp hw =>
    have hg := grounds_of_plan hp
    rw [commandsOf_tell (by exact hl) fun cmd => caseId_of_notices] at htold
    have hnotices := List.append_cancel_left htold
    cases p with
    | defer kind' wakeAt' =>
      cases hw
      obtain ⟨-, -, -, -, -, rfl⟩ := Command.notify.inj (List.singleton_inj.1 hnotices)
      exact ⟨rfl, _, rfl, rfl, armedFor_rearm .., hg.2⟩
    | send => cases hnotices
    | fail | conclude | sendLast => cases hw
  | closed hp hw =>
    rw [commandsOf_tell (by exact hl) fun cmd => caseId_of_ending] at htold
    have hlast := congrArg List.getLast? (List.append_cancel_left htold)
    rw [List.getLast?_concat] at hlast
    cases hlast
  | ended =>
    rw [commandsOf_tell (by exact hl) fun cmd hcmd => List.mem_singleton.1 hcmd ▸ rfl] at htold
    cases List.append_cancel_left htold

theorem Revised.of_deferral (hl : x.before.listening = true) (h : Revised x id)
    (hd : x.Defers id now) :
    x.Reads now ∧ ∃ c w, x.after.get? id = some c ∧ c.wake = some w ∧ w.reason = .deferred ∧
      x.after.armedFor id = x.before.armedFor id ++ [⟨id, w.seq, w.wakeAt⟩] ∧
      x.before.settings.hours.nextStart now = .ok w.wakeAt := by
  obtain ⟨reason, stage, kind, htold⟩ := hd.commandsOf
  have told {f : CaseFile} (hfile : x.after.file id = f) : f.told = x.before.commandsOf id ++
      [.notify id reason stage .scheduleNextWindow kind now] :=
    (congrArg CaseFile.told hfile).symm.trans htold
  have unchanged (hsame : x.before.commandsOf id = x.before.commandsOf id ++
      [.notify id reason stage .scheduleNextWindow kind now]) : False :=
    List.cons_ne_nil _ _ (List.self_eq_append_right.1 hsame)
  have armed {f : CaseFile} (hfile : x.after.file id = f) : x.after.armedFor id = f.armed :=
    congrArg CaseFile.armed hfile
  cases h with
  | same hw hr hs hfile => exact (unchanged (told hfile)).elim
  | @woken c c₁ c' t e₁ hw hr hid hc ho hclock hm ha hout hfile =>
    subst hid
    obtain ⟨rfl, w, hwake, hreason, harmed, hnext⟩ := hm.of_deferral hl (told hfile)
    obtain ⟨⟨elapsed, rfl⟩, -⟩ := accountElapsed_cases ha
    rw [Step.woken?, hr] at hw
    exact ⟨.inr ⟨firing_of_wakes hw, hclock⟩, _, w, get?_of_file hfile, hwake, hreason,
      (armed hfile).trans harmed, hnext⟩
  | resumed hw hr hop hc ho hend hfile =>
    have hcs := List.append_cancel_left (told hfile)
    cases hcs
  | @started reason' t e₁ c hw hr hop hnone hm hfile =>
    obtain ⟨rfl, w, hwake, hreason, harmed, hnext⟩ := hm.of_deferral hl (told hfile)
    exact ⟨.inl ⟨id, reason', hop⟩, c, w, get?_of_file hfile, hwake, hreason,
      (armed hfile).trans harmed, hnext⟩
  | evicted hw hr hi hc hres hfile => exact (unchanged (told hfile)).elim

theorem follows_of_plan (hz : e.settings.hours.zone = .fixed offset)
    (hp : e.plan c stage now = .ok p) {wakeReason : WakeReason}
    (hw : p.wake? = some (wakeReason, wakeAt)) (d : Case) :
    now ≤ wakeAt ∧ ∀ t ∈ deferrals (p.notices d now), e.settings.hours.Follows t wakeAt := by
  have hg := grounds_of_plan hp
  cases p with
  | defer kind wakeAt' =>
    cases hw
    have hfollows := BusinessHours.follows_nextStart hz hg.2
    refine ⟨hfollows.le, fun t ht => ?_⟩
    obtain rfl := List.mem_singleton.1 ht
    exact hfollows
  | send kind wakeAt' =>
    cases hw
    exact ⟨le_of_nextStageAt hg.2.2, fun t ht => nomatch ht⟩
  | fail | conclude | sendLast => cases hw

theorem Moved.forward (hz : e.settings.hours.zone = .fixed offset) (hl : e.listening = true)
    (hcs : (deferrals (e.commandsOf c.id)).Pairwise e.settings.hours.Follows)
    (hnow : ∀ t ∈ deferrals (e.commandsOf c.id), e.settings.hours.Follows t now)
    (hm : Moved e c now target e' c') (armed : List WakeRequest) :
    CaseFile.Forward e.settings.hours ⟨some c', e'.commandsOf c.id, armed⟩ := by
  cases hm with
  | @rearmed stage p wakeReason wakeAt hp hw =>
    obtain ⟨hle, hfollows⟩ := follows_of_plan hz hp hw (c.enter stage)
    rw [commandsOf_tell (by exact hl) fun cmd => caseId_of_notices]
    refine ⟨pairwise_deferrals_notices hcs hnow p _, fun d w hd hwake t ht => ?_⟩
    obtain rfl := Option.some.inj hd
    cases hwake
    rw [deferrals_append] at ht
    rcases List.mem_append.1 ht with ht | ht
    · exact (hnow t ht).later hle
    · exact hfollows t ht
  | @closed stage p hp hw =>
    rw [commandsOf_tell (by exact hl) fun cmd => caseId_of_ending, ← List.append_assoc]
    exact .ended (pairwise_deferrals_notices hcs hnow p _) rfl _ _ _
  | ended =>
    rw [commandsOf_tell (by exact hl) fun cmd hcmd => List.mem_singleton.1 hcmd ▸ rfl]
    exact .ended hcs rfl _ _ _

theorem Revised.forward (hz : x.before.settings.hours.zone = .fixed offset)
    (hl : x.before.listening = true) (hb : x.before.Balanced) (hearly : x.NotEarly id)
    (hf : (x.before.file id).Forward x.before.settings.hours) (h : Revised x id) :
    (x.after.file id).Forward x.before.settings.hours := by
  cases h with
  | same hw hr hs hfile => exact hfile ▸ hf
  | @woken c c₁ c' t e₁ hw hr hid hc ho hclock hm ha hout hfile =>
    subst hid
    -- An open case has a wake-up ahead, which comes after all that was deferred before.
    have hsome : c.wake.isSome :=
      (hb.wake c (List.mem_of_find?_eq_some hc)).trans (Option.isNone_iff_eq_none.2 ho)
    obtain ⟨w, hwake⟩ := Option.isSome_iff_exists.1 hsome
    have hdue : w.wakeAt ≤ t := now_of_read hclock ▸ hearly c hw rfl w hwake
    have hmoved := hm.forward hz hl hf.deferrals
      (fun u hu => (hf.ahead c w hc hwake u hu).later hdue) (e₁.armedFor c.id)
    obtain ⟨⟨elapsed, rfl⟩, -⟩ := accountElapsed_cases ha
    rw [hfile]
    refine ⟨hmoved.deferrals, fun d w hd hwake => ?_⟩
    obtain rfl := Option.some.inj hd
    exact hmoved.ahead c₁ w rfl hwake
  | @resumed c c' t hw hr hop hc ho hend hfile =>
    obtain ⟨elapsed, rfl⟩ := hend
    rw [hfile]
    exact .ended hf.deferrals rfl _ _ _
  | @started reason t e₁ c hw hr hop hnone hm hfile =>
    have htold : x.before.commandsOf id = [] := congrArg CaseFile.told hnone
    have hnow : ∀ u ∈ deferrals (x.before.commandsOf id), x.before.settings.hours.Follows u t := by
      rw [htold]
      exact List.forall_mem_nil _
    rw [hfile]
    exact Moved.forward (c := .fresh id reason t) hz hl hf.deferrals hnow hm _
  | evicted hw hr hi hc hres hfile => exact hfile ▸ hf.withoutCase

/-- What a run has deferred, step by step and case by case. -/
structure Postponed (s : Settings) (l : List Step) (e : Engine) : Prop where
  settings : e.settings = s
  balanced : e.Balanced
  steps : ∀ x ∈ l, ∀ id now, x.Defers id now →
    x.Reads now ∧ ∃ c w, x.after.get? id = some c ∧ c.wake = some w ∧ w.reason = .deferred ∧
      x.after.armedFor id = x.before.armedFor id ++ [⟨id, w.seq, w.wakeAt⟩] ∧
      s.hours.nextStart now = .ok w.wakeAt
  forward : ∀ id, (∀ x ∈ l, x.NotEarly id) → (e.file id).Forward s.hours

theorem postponed_of_initial (h₀ : Initial e₀) : Postponed e₀.settings [] e₀ where
  settings := rfl
  balanced := balanced_of_initial h₀
  steps := List.forall_mem_nil _
  forward id _ := file_of_initial h₀ id ▸ .empty _

theorem Postponed.step {s : Settings} (hz : s.hours.zone = .fixed offset)
    (hp : Postponed s l x.before) (hreg : Registry ids x.before)
    (hnew : ∀ id ∈ x.op.started?, id ∉ ids) (h : Performed x.before x.op x.reply x.after) :
    Postponed s (l ++ [x]) x.after := by
  obtain ⟨rfl, hbalanced, hsteps, hforward⟩ := hp
  refine ⟨h.settings_eq, hbalanced.step hreg hnew h.effect,
    forall_mem_snoc.2 ⟨hsteps, fun id now => ?_⟩, fun id hearly => ?_⟩
  · exact (h.revised hreg hnew id).of_deferral hreg.listening
  · obtain ⟨hbefore, hthis⟩ := forall_mem_snoc.1 hearly
    exact (h.revised hreg hnew id).forward hz hreg.listening hbalanced hthis (hforward id hbefore)

/-- At a fixed offset every step that defers a case arms a wake-up for the case and leaves it waiting
for that. The wake-up is later than the deferral unless a window starts at the time of the deferral,
so always when hours are closed then; at a window start it is armed for that very instant. Where no
firing wakes the case before its wake-up is due, the deferrals of a case are in order of time, and
two of them are at the same instant only if a window starts then. -/
theorem deferral_moves_on (h₀ : Initial e₀) (hz : e₀.settings.hours.zone = .fixed offset)
    (hids : (startsOf l).Nodup) (h : Runs e₀ l e) :
    (∀ x ∈ l, ∀ id now, x.Defers id now →
      x.Reads now ∧ ∃ c w, x.after.get? id = some c ∧ c.wake = some w ∧ w.reason = .deferred ∧
        x.after.armedFor id = x.before.armedFor id ++ [⟨id, w.seq, w.wakeAt⟩] ∧
        now ≤ w.wakeAt ∧ (now < w.wakeAt ↔ ¬ e₀.settings.hours.Starts now) ∧
        (e₀.settings.hours.isOpen now = .ok false → now < w.wakeAt)) ∧
    (∀ id, (∀ x ∈ l, x.NotEarly id) → (deferrals (e.commandsOf id)).Pairwise fun t u =>
      t ≤ u ∧ (¬ e₀.settings.hours.Starts t → t < u)) := by
  have hp : Postponed e₀.settings l e := by
    refine (h.invariant (registry_of_initial h₀) (postponed_of_initial h₀) ?_ hids).2
    intro l e op r e' _ hreg hnew hp hdone
    exact hp.step (x := ⟨e, op, r, e'⟩) hz hreg hnew hdone
  refine ⟨fun x hx id now hd => ?_, fun id hearly => ?_⟩
  · obtain ⟨hreads, c, w, hc, hwake, hreason, harmed, hnext⟩ := hp.steps x hx id now hd
    have hlt := BusinessHours.lt_nextStart_iff hz hnext
    exact ⟨hreads, c, w, hc, hwake, hreason, harmed, (BusinessHours.follows_nextStart hz hnext).le,
      hlt, fun hclosed => hlt.2 (BusinessHours.not_starts_of_closed hz hclosed)⟩
  · exact (hp.forward id hearly).deferrals.imp fun hf => ⟨hf.le, hf.lt⟩

def onHold : Engine :=
  { standard with
    timers := ⟨[(⟨⟨1⟩, 1, ⟨1792994400, 0⟩⟩, false)], none⟩
    lastSeq := 1
    commands := [.notify ⟨1⟩ "UNREADABLE_DOCUMENT" .initial .scheduleNextWindow
      (some .initialAlert) ⟨1792796400, 0⟩]
    cases := [{ Case.fresh ⟨1⟩ "UNREADABLE_DOCUMENT" ⟨1792796400, 0⟩ with
      wake := some ⟨.deferred, ⟨1792994400, 0⟩, 1, 0⟩ }] }

def onHoldAgain : Engine :=
  { onHold with
    clock := ⟨⟨1793055600, 0⟩, none⟩
    timers := ⟨[(⟨⟨1⟩, 1, ⟨1792994400, 0⟩⟩, true), (⟨⟨1⟩, 2, ⟨1793080800, 0⟩⟩, false)], none⟩
    lastSeq := 2
    commands := onHold.commands ++ [.notify ⟨1⟩ "UNREADABLE_DOCUMENT" .initial
      .scheduleNextWindow (some .initialAlert) ⟨1793055600, 0⟩]
    cases := [{ Case.fresh ⟨1⟩ "UNREADABLE_DOCUMENT" ⟨1792796400, 0⟩ with
      wake := some ⟨.deferred, ⟨1793080800, 0⟩, 2, 1⟩ }] }

def toOnHoldAgain : List Step :=
  [⟨standard, .start ⟨1⟩ "UNREADABLE_DOCUMENT" ⟨1792796400, 0⟩, .ok (.started ⟨1⟩), onHold⟩,
    ⟨onHold, .setClock ⟨1793055600, 0⟩, .ok .done, onHold.setClock ⟨1793055600, 0⟩⟩,
    ⟨onHold.setClock ⟨1793055600, 0⟩, .timerFired ⟨1⟩ 1, .ok .done, onHoldAgain⟩]

theorem runs_toOnHoldAgain : Runs standard toOnHoldAgain onHoldAgain := by
  have hstart : Runs standard (toOnHoldAgain.take 1) onHold := .snoc (l := []) .nil _ rfl
  have hclock : Runs standard (toOnHoldAgain.take 2) (onHold.setClock ⟨1793055600, 0⟩) :=
    .snoc (l := toOnHoldAgain.take 1) hstart _ rfl
  exact .snoc (l := toOnHoldAgain.take 2) hclock _ rfl

theorem deferral_moves_on_weekend :
    Initial standard ∧ standard.settings.hours.zone = .fixed .utc ∧
      (startsOf toOnHoldAgain).Nodup ∧ Runs standard toOnHoldAgain onHoldAgain ∧
      (∀ x ∈ toOnHoldAgain, x.NotEarly ⟨1⟩) ∧
      deferrals (onHoldAgain.commandsOf ⟨1⟩) = [⟨1792796400, 0⟩, ⟨1793055600, 0⟩] ∧
      (¬ standard.settings.hours.Starts ⟨1792796400, 0⟩ →
        (⟨1792796400, 0⟩ : Instant) < ⟨1793055600, 0⟩) ∧
      ∃ c w, onHoldAgain.get? ⟨1⟩ = some c ∧ c.wake = some w ∧ w.reason = .deferred ∧
        ⟨1793055600, 0⟩ < w.wakeAt := by
  have hids : (startsOf toOnHoldAgain).Nodup := List.nodup_singleton (⟨1⟩ : CaseId)
  have hzone : standard.settings.hours.zone = .fixed .utc := rfl
  have hearly : ∀ x ∈ toOnHoldAgain, x.NotEarly ⟨1⟩ := by
    intro x hx
    simp only [toOnHoldAgain, List.mem_cons, List.not_mem_nil, or_false] at hx
    rcases hx with rfl | rfl | rfl
    · exact fun c hc => nomatch hc
    · exact fun c hc => nomatch hc
    · intro c hc _ w hw
      cases hc
      cases hw
      decide
  obtain ⟨hsteps, hforward⟩ :=
    deferral_moves_on initial_standard hzone hids runs_toOnHoldAgain
  have hclosed : standard.settings.hours.isOpen ⟨1793055600, 0⟩ = .ok false := by decide +kernel
  obtain ⟨-, c, w, hc, hw, hreason, -, -, -, hlater⟩ :=
    hsteps _ (.tail _ (.tail _ (.head _))) ⟨1⟩ ⟨1793055600, 0⟩ ⟨_, _, _, rfl⟩
  have hpair := List.pairwise_cons.1 (hforward ⟨1⟩ hearly)
  exact ⟨initial_standard, hzone, hids, runs_toOnHoldAgain, hearly, rfl,
    (hpair.1 _ (.head _)).2, c, w, hc, hw, hreason, hlater hclosed⟩

def deferring : Table :=
  { Table.notificationAction with
    rules := [⟨none, .empty, Table.sends .scheduleNextWindow (some .initialAlert)⟩] }

def stuck : Engine :=
  { standard with table := deferring, clock := ⟨⟨1792389600, 0⟩, none⟩ }

theorem stuck_defers_twice :
    deferring.validate = .ok () ∧ Initial stuck ∧ stuck.settings.hours.zone = .fixed .utc ∧
      stuck.settings.hours.isOpen ⟨1792389600, 0⟩ = .ok true ∧
      ∃ e, run [.start ⟨1⟩ "MULTI_APPLICATION" ⟨1792389600, 0⟩, .timerFired ⟨1⟩ 1] stuck = .ok e ∧
        e.timers.armed = [⟨⟨1⟩, 1, ⟨1792389600, 0⟩⟩, ⟨⟨1⟩, 2, ⟨1792389600, 0⟩⟩] ∧
        deferrals (e.commandsOf ⟨1⟩) = [⟨1792389600, 0⟩, ⟨1792389600, 0⟩] := by
  have h₀ : Initial stuck :=
    ⟨.standard, deferring, ⟨⟨1792389600, 0⟩, none⟩, none, rfl⟩
  exact ⟨rfl, h₀, rfl, rfl, _, rfl, rfl, rfl⟩

end Engine

end Followup
