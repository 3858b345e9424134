import Followup.Proofs.Engine.Interleaving
import Followup.Proofs.Notice.Wording

/-! Deliveries. A notice that is to be delivered is composed once and offered to each channel that was
last set for its kind, in order and whatever becomes of it on the channels before. Any other command
to notify reaches no channel. -/

namespace Followup

open Engine

namespace Dispatcher

variable {kind : String} {routes : List (String × List Channel)}

def configured (default : List Channel) (routes : List (String × List Channel)) : Dispatcher :=
  routes.foldl (fun d (kind, channels) => d.setKind kind channels) (.withDefault default)

def lastSet? (kind : String) (routes : List (String × List Channel)) : Option (List Channel) :=
  ((routes.filter fun route => route.1 = kind).getLast?).map Prod.snd

theorem lastSet?_concat (kind other : String) (channels : List Channel) :
    lastSet? kind (routes ++ [(other, channels)]) =
      if kind = other then some channels else lastSet? kind routes := by
  by_cases h : other = kind
  · rw [if_pos h.symm, lastSet?, List.filter_append, List.filter_singleton, decide_eq_true h,
      cond_true, List.getLast?_concat]
    rfl
  · rw [if_neg (Ne.symm h), lastSet?, List.filter_append, List.filter_singleton,
      decide_eq_false h, cond_false, List.append_nil, lastSet?]

theorem channelsFor_configured (default : List Channel) (routes : List (String × List Channel))
    (kind : String) :
    (configured default routes).channelsFor kind = (lastSet? kind routes).getD default := by
  induction routes using List.reverseRecOn with
  | nil => exact channelsFor_withDefault default kind
  | append_singleton routes route ih =>
    obtain ⟨other, channels⟩ := route
    rw [configured, List.foldl_concat, channelsFor_setKind, lastSet?_concat]
    by_cases h : kind = other
    · rw [if_pos h, if_pos h, Option.getD_some]
    · rw [if_neg h, if_neg h]
      exact ih

end Dispatcher

structure Delivery.Reports (d : Delivery) (id : CaseId) (n : Notice) (channel : Channel) : Prop where
  offered : d.channel = channel
  caseId : d.caseId = id.write
  isSuccess : d.isSuccess = true ↔ channel.send n = .ok ()
  error : ∀ err, d.error = some err ↔ channel.send n = .error err

namespace Dispatcher

theorem dispatch_reports (d : Dispatcher) (kind : String) {n : Notice} {id : CaseId}
    (hid : n.metadata.lookup "instance_id" = some id.write) :
    List.Forall₂ (fun channel delivery => delivery.Reports id n channel) (d.channelsFor kind)
      (d.dispatch kind n) := by
  rw [dispatch, List.forall₂_map_right_iff, List.forall₂_same]
  intro channel _
  rw [hid]
  cases hsend : channel.send n with
  | ok u =>
    refine ⟨rfl, rfl, iff_of_true rfl hsend, fun err => ?_⟩
    rw [hsend]
    constructor
    · intro h
      cases h
    · intro h
      cases h
  | error err =>
    refine ⟨rfl, rfl, ?_, fun err' => ?_⟩
    · rw [hsend]
      constructor
      · intro h
        cases h
      · intro h
        cases h
    · rw [hsend, Option.some.injEq, Except.error.injEq]

end Dispatcher

namespace Bridge

variable {b : Bridge} {e : Engine} {id : CaseId} {action : Action} {kind : NoticeKind}

theorem wantsNotice_iff : wantsNotice e id = true ↔
    ∃ c, e.get? id = some c ∧ c.outcome? ≠ some .resumed := by
  simp only [wantsNotice, Engine.outcome, snapshot]
  cases hget : e.get? id with
  | none =>
    constructor
    · intro h
      cases h
    · rintro ⟨c, hc, -⟩
      cases hc
  | some c =>
    simp only [Except.map, Option.some.injEq, exists_eq_left']
    cases hout : c.outcome? with
    | none => exact iff_of_true rfl (by decide)
    | some outcome =>
      cases outcome with
      | resumed => exact iff_of_false (by decide) (not_not_intro rfl)
      | closed => exact iff_of_true rfl (by decide)

theorem handle_of_wanted (ha : action ≠ .scheduleNextWindow) (hw : wantsNotice e id = true)
    (reason : String) (stage : Stage) (kind : NoticeKind) (at' : Instant) :
    b.handle e (.notify id reason stage action (some kind) at') =
      b.deliver kind (occasion id reason stage action kind at') := by
  cases action with
  | scheduleNextWindow => exact absurd rfl ha
  | sendNow | closeWorkflow => exact if_pos hw

/-- One notice was composed for an occasion and offered once to each of the channels, in order, and
that is what was answered. -/
structure Delivers (h : Handling) (id : CaseId) (o : Occasion) (n : Notice)
    (channels : List Channel) : Prop where
  composed : o.compose = .ok n
  notice : h.notice = some n
  reports : List.Forall₂ (fun channel delivery => delivery.Reports id n channel) channels h.deliveries
  answer : h.result = .ok h.deliveries

variable {default : List Channel} {routes : List (String × List Channel)}

theorem exists_delivers (hb : b.dispatcher = .configured default routes) (id : CaseId)
    (reason : String) (stage : Stage) (action : Action) (kind : NoticeKind) (at' : Instant) :
    ∃ n, Delivers (b.deliver kind (occasion id reason stage action kind at')) id
      (occasion id reason stage action kind at') n
      ((Dispatcher.lastSet? kind.name routes).getD default) := by
  have hcompose := (occasion id reason stage action kind at').compose_eq
  rw [← Dispatcher.channelsFor_configured, ← hb, deliver, hcompose]
  exact ⟨_, hcompose, rfl, b.dispatcher.dispatch_reports kind.name rfl, rfl⟩

/-- Handling a command to notify always succeeds. If the command is no deferral, has a kind, and its
case is there and has not been resumed, one notice is composed and offered once to each channel of
the list that was set last for its kind, or of the default list, in that order; each delivery is
under the id of the case and says what its own channel made of the notice. Any other command to
notify reaches no channel. -/
theorem notify_delivers (hb : b.dispatcher = .configured default routes) (e : Engine) (id : CaseId)
    (reason : String) (stage : Stage) (action : Action) (kind? : Option NoticeKind)
    (at' : Instant) :
    (∀ kind c, action ≠ .scheduleNextWindow → kind? = some kind → e.get? id = some c →
      c.outcome? ≠ some .resumed →
      ∃ n, Delivers (b.handle e (.notify id reason stage action kind? at')) id
        (occasion id reason stage action kind at') n
        ((Dispatcher.lastSet? kind.name routes).getD default)) ∧
    (action = .scheduleNextWindow ∨ kind? = none ∨
      (∀ c, e.get? id = some c → c.outcome? = some .resumed) →
      b.handle e (.notify id reason stage action kind? at') = .nothing ∧
        Handling.nothing.result = .ok []) := by
  constructor
  · rintro kind c ha rfl hget hout
    rw [handle_of_wanted ha (wantsNotice_iff.2 ⟨c, hget, hout⟩)]
    exact exists_delivers hb id reason stage action kind at'
  · intro hother
    refine ⟨?_, rfl⟩
    rcases b.handle_notify e id reason stage action kind? at'
      with hnothing | ⟨hwants, kind, hkind, hdeliver⟩
    · exact hnothing
    obtain ⟨c, hget, hout⟩ := wantsNotice_iff.1 hwants
    rcases hother with rfl | rfl | hresumed
    · rfl
    · cases hkind
    · exact absurd (hresumed c hget) hout

def rerouted : Bridge where
  dispatcher := .configured [.outbox "mail" none]
    [("INITIAL_ALERT", [.log]), ("FOLLOW_UP_1", []),
      ("INITIAL_ALERT", [.outbox "desk" (some "down"), .outbox "chat" none])]
  resumer := .log

theorem notify_delivers_alert :
    (∃ n desk chat, (rerouted.handle waiting alert).notice = some n ∧
        (rerouted.handle waiting alert).result = .ok [desk, chat] ∧
        desk.Reports ⟨1⟩ n (.outbox "desk" (some "down")) ∧
        desk.error = some (.config "down") ∧
        chat.Reports ⟨1⟩ n (.outbox "chat" none) ∧ chat.isSuccess = true) ∧
      rerouted.handle answered alert = .nothing := by
  have hsent := (notify_delivers (b := rerouted) rfl waiting ⟨1⟩ "UNREADABLE_DOCUMENT" .initial
    .sendNow (some .initialAlert) ⟨1792404000, 0⟩).1
  have hdropped := (notify_delivers (b := rerouted) rfl answered ⟨1⟩ "UNREADABLE_DOCUMENT" .initial
    .sendNow (some .initialAlert) ⟨1792404000, 0⟩).2
  have hresumed : ∀ c, answered.get? ⟨1⟩ = some c → c.outcome? = some .resumed := by
    intro c hc
    obtain rfl := Option.some.inj hc
    rfl
  refine ⟨?_, (hdropped (.inr (.inr hresumed))).1⟩
  obtain ⟨n, -, hn, hreports, hanswer⟩ := hsent .initialAlert _ (by decide) rfl rfl (by decide)
  obtain ⟨desk, rest, hdesk, hrest, hdeliveries⟩ := List.forall₂_cons_left_iff.1 hreports
  obtain ⟨chat, last, hchat, hlast, rfl⟩ := List.forall₂_cons_left_iff.1 hrest
  rw [List.forall₂_nil_left_iff.1 hlast] at hdeliveries
  exact ⟨n, desk, chat, hn, hanswer.trans (congrArg Except.ok hdeliveries), hdesk,
    (hdesk.error _).2 rfl, hchat, hchat.isSuccess.2 rfl⟩

end Bridge

end Followup
