import Followup.Proofs.BusinessHours.Passage
import Followup.Proofs.Engine.CaseFile
import Followup.Proofs.Settings.Validation

/-! The pace of an escalation. A wait is over before the wake-up that it was armed with, and stays
over however late the firing comes and however often its stage is deferred. -/

namespace Followup

open Engine

variable {e e' : Engine} {p : Plan} {id : CaseId} {cs : List Command} {s : Settings} {c c' : Case}
  {stage next : Stage}
  {stage? : Option Stage} {first last now t u : Instant} {reason : String} {action : Action}
  {kind : Option NoticeKind} {offset : Offset}

def sends (cs : List Command) : List (Stage × Instant) :=
  cs.filterMap fun
    | .notify _ _ stage .sendNow _ at' => some (stage, at')
    | _ => none

theorem sends_append (cs ds : List Command) : sends (cs ++ ds) = sends cs ++ sends ds :=
  List.filterMap_append

theorem sends_send (id : CaseId) (reason : String) (stage : Stage) (kind : Option NoticeKind)
    (now : Instant) : sends [.notify id reason stage .sendNow kind now] = [(stage, now)] := rfl

theorem sends_other (ha : action ≠ .sendNow) :
    sends [.notify id reason stage action kind now] = [] := by
  cases action with
  | sendNow => exact absurd rfl ha
  | scheduleNextWindow => rfl
  | closeWorkflow => rfl

theorem Blocks.sends (h : Blocks id stage? cs) :
    (sends cs).map Prod.fst = Stage.all.take (stage?.elim 4 Stage.index) := by
  induction h with
  | nil => rfl
  | deferred h reason kind at' ih =>
    rw [sends_append, sends_other (by decide), List.append_nil, ih]
  | @sent cs stage h reason kind at' ih =>
    rw [sends_append, sends_send, List.map_append, ih]
    cases stage <;> rfl

/-- No notice but the first is early: each was sent after the wait before its stage, and whatever
was told at the deadline was told once it had been reached. -/
structure InTime (s : Settings) (cs : List Command) : Prop where
  waits : (sends cs).IsChain fun a b => ∀ wait, s.waitBefore b.1 = some wait →
    ∃ d, s.hours.between a.2 b.2 = .ok d ∧ wait ≤ d
  deadline : ∀ id reason action kind at', .notify id reason .deadline action kind at' ∈ cs →
    ∃ first d, (sends cs).head? = some first ∧ s.hours.between first.2 at' = .ok d ∧ s.deadline ≤ d

structure Dated (c : Case) (cs : List Command) : Prop where
  first : c.firstSent = (sends cs).head?.map Prod.snd
  last : c.lastSent = (sends cs).getLast?.map Prod.snd

/-- All that stands before a stage is over by an instant. -/
structure Due (s : Settings) (first last : Instant) (stage : Stage) (t : Instant) : Prop where
  first_proper : first.Proper
  first_open : s.hours.isOpen first = .ok true
  last_proper : last.Proper
  last_open : s.hours.isOpen last = .ok true
  first_le : first ≤ last
  last_le : last ≤ t
  wait : ∀ wait, s.waitBefore stage = some wait → ∃ v, s.hours.add last wait = .ok v ∧ v ≤ t
  deadline : stage = .deadline → ∃ v, s.hours.add first s.deadline = .ok v ∧ v ≤ t

theorem Due.later (h : Due s first last stage t) (htu : t ≤ u) : Due s first last stage u where
  first_proper := h.first_proper
  first_open := h.first_open
  last_proper := h.last_proper
  last_open := h.last_open
  first_le := h.first_le
  last_le := le_trans h.last_le htu
  wait wait hwait := (h.wait wait hwait).imp fun _ hv => ⟨hv.1, le_trans hv.2 htu⟩
  deadline hstage := (h.deadline hstage).imp fun _ hv => ⟨hv.1, le_trans hv.2 htu⟩

def Ready (s : Settings) (c : Case) (stage : Stage) (t : Instant) : Prop :=
  ∀ first last, c.firstSent = some first → c.lastSent = some last → Due s first last stage t

structure OnSchedule (s : Settings) (c : Case) (cs : List Command) : Prop extends Dated c cs where
  ready : ∀ w stage, c.wake = some w → wakeTarget c = some stage → Ready s c stage w.wakeAt

structure Regular (s : Settings) (offset : Offset) : Prop where
  accepted : ∃ wait₁ wait₂, s.Accepted wait₁ wait₂
  zone : s.hours.zone = .fixed offset
  start : ¬ s.hours.start.IsLeap
  finish : ¬ s.hours.finish.IsLeap

theorem Regular.plain (h : Regular s offset) : s.hours.Plain :=
  BusinessHours.plain_of_fixed h.zone h.start h.finish

theorem Due.passed (hr : Regular s offset) (h : Due s first last stage now) (hnow : now.Proper)
    {b : Span} (hb : s.hours.between first now = .ok b) :
    (∀ wait, s.waitBefore stage = some wait →
      ∃ d, s.hours.between last now = .ok d ∧ wait ≤ d) ∧
    (stage = .deadline → s.deadline ≤ b) := by
  obtain ⟨wait₁, wait₂, haccepted⟩ := hr.accepted
  refine ⟨fun wait hwait => ?_, fun hstage => ?_⟩
  · obtain ⟨v, hadd, hv⟩ := h.wait wait hwait
    obtain ⟨d, hd⟩ := BusinessHours.between_of_later hr.plain h.first_proper h.last_proper hnow
      h.first_le h.last_le hb
    have hpos : Span.zero ≤ wait := Int.le_of_lt (haccepted.wait_pos hwait)
    exact ⟨d, hd, BusinessHours.le_between_of_add hr.plain hr.zone h.last_proper h.last_open hpos
      hadd hnow hv hd⟩
  · obtain ⟨v, hadd, hv⟩ := h.deadline hstage
    have hpos : Span.zero ≤ s.deadline := Int.le_of_lt haccepted.deadline_pos
    exact BusinessHours.le_between_of_add hr.plain hr.zone h.first_proper h.first_open hpos hadd
      hnow hv hb

theorem InTime.nil (s : Settings) : InTime s [] :=
  ⟨.nil, fun _ _ _ _ _ h => nomatch h⟩

theorem sends_resolved (cs : List Command) (id : CaseId) (outcome : Outcome)
    (diagnostic : Option String) (now : Instant) :
    sends (cs ++ [.resolved id outcome diagnostic now]) = sends cs := by
  rw [sends_append]
  exact List.append_nil _

theorem InTime.resolved (h : InTime s cs) (outcome : Outcome) (diagnostic : Option String) :
    InTime s (cs ++ [.resolved id outcome diagnostic now]) := by
  refine ⟨(sends_resolved cs ..).symm ▸ h.waits, fun id reason action kind at' hmem => ?_⟩
  rw [sends_resolved]
  rcases List.mem_append.1 hmem with hmem | hmem
  · exact h.deadline id reason action kind at' hmem
  · cases List.mem_singleton.1 hmem

theorem Dated.ended (h : Dated c cs) (outcome : Outcome) (diagnostic : Option String) :
    Dated (c.ended outcome diagnostic now) (cs ++ [.resolved id outcome diagnostic now]) where
  first := (sends_resolved cs ..).symm ▸ h.first
  last := (sends_resolved cs ..).symm ▸ h.last

theorem Dated.schedule_ended (h : Dated c cs) (outcome : Outcome) (diagnostic : Option String) :
    OnSchedule s (c.ended outcome diagnostic now)
      (cs ++ [.resolved id outcome diagnostic now]) :=
  ⟨h.ended outcome diagnostic, fun _ _ hw => nomatch hw⟩

theorem Dated.sent_or_none (h : Dated c cs)
    (hstages : (sends cs).map Prod.fst = Stage.all.take stage.index) :
    (∃ first last, c.firstSent = some first.2 ∧ c.lastSent = some last.2 ∧
      (sends cs).head? = some first ∧ (sends cs).getLast? = some last) ∨
    c.firstSent = none ∧ sends cs = [] ∧ stage = .initial := by
  have hfirst := h.first
  have hlast := h.last
  cases hsends : sends cs with
  | nil =>
    rw [hsends] at hfirst hstages
    refine .inr ⟨hfirst, rfl, ?_⟩
    cases stage with
    | initial => rfl
    | followUp1 | followUp2 | deadline => cases hstages
  | cons a as =>
    rw [hsends] at hfirst hlast
    obtain ⟨b, hb⟩ := Option.isSome_iff_exists.1 (List.getLast?_isSome.2 (List.cons_ne_nil a as))
    rw [hb] at hlast
    exact .inl ⟨a, b, hfirst, hlast, rfl, hb⟩

theorem Dated.advance (h : Dated c cs)
    (hstages : (sends cs).map Prod.fst = Stage.all.take stage.index)
    (hs : (c.enter stage).stage = stage) (hg : e.Grounds c stage now p) :
    Dated (p.advance c stage now) (cs ++ p.notices (c.enter stage) now) := by
  have unsent {ds : List Command} (hds : sends ds = []) : Dated (c.enter stage) (cs ++ ds) := by
    constructor
    · rw [Case.enter_firstSent, sends_append, hds, List.append_nil, h.first]
    · rw [Case.enter_lastSent, sends_append, hds, List.append_nil, h.last]
  have sent (id : CaseId) (reason : String) (kind : Option NoticeKind) :
      (sends (cs ++ [.notify id reason stage .sendNow kind now])).head?.map Prod.snd =
        some (c.firstSent.getD now) ∧
      (sends (cs ++ [.notify id reason stage .sendNow kind now])).getLast?.map Prod.snd =
        some now := by
    rw [sends_append, sends_send, List.getLast?_concat, List.head?_append, h.first]
    cases (sends cs).head? <;> exact ⟨rfl, rfl⟩
  cases p with
  | fail => exact unsent rfl
  | conclude => exact unsent rfl
  | defer => exact unsent rfl
  | send kind wakeAt =>
    simp only [Plan.notices, Plan.advance, hs]
    exact ⟨(sent _ _ kind).1.symm, (sent _ _ kind).2.symm⟩
  | sendLast kind =>
    -- Only the deadline has no stage after it, and there has been a first notice by then.
    have hfirst : c.firstSent = some (c.firstSent.getD now) := by
      rcases h.sent_or_none hstages with ⟨first, -, hfirst, -⟩ | ⟨-, -, rfl⟩
      · rw [hfirst]
        rfl
      · cases hg.2.2
    simp only [Plan.notices, Plan.advance, hs]
    refine ⟨?_, (sent _ _ kind).2.symm⟩
    rw [Case.enter_firstSent, hfirst]
    exact (sent _ _ kind).1.symm

theorem InTime.notice (h : InTime s cs)
    (hwait : ∀ a ∈ (sends cs).getLast?, ∀ wait, s.waitBefore stage = some wait →
      ∃ d, s.hours.between a.2 now = .ok d ∧ wait ≤ d)
    (hdeadline : stage = .deadline → ∃ first d, (sends cs).head? = some first ∧
      s.hours.between first.2 now = .ok d ∧ s.deadline ≤ d) :
    InTime s (cs ++ [.notify id reason stage action kind now]) := by
  have kept {a : Stage × Instant} (ha : (sends cs).head? = some a) (ds : List Command) :
      (sends (cs ++ ds)).head? = some a := by
    rw [sends_append, List.head?_append, ha, Option.some_or]
  refine ⟨?_, fun id' reason' action' kind' at' hmem => ?_⟩
  · by_cases ha : action = .sendNow
    · subst ha
      rw [sends_append, sends_send, List.isChain_append]
      refine ⟨h.waits, List.isChain_singleton _, fun a hlast b hb => ?_⟩
      obtain rfl : (stage, now) = b := Option.some.inj hb
      exact hwait a hlast
    · rw [sends_append, sends_other ha, List.append_nil]
      exact h.waits
  · rcases List.mem_append.1 hmem with hmem | hmem
    · obtain ⟨first, d, hfirst, hrest⟩ := h.deadline id' reason' action' kind' at' hmem
      exact ⟨first, d, kept hfirst _, hrest⟩
    · obtain ⟨-, -, hstage, -, -, rfl⟩ := Command.notify.inj (List.mem_singleton.1 hmem)
      obtain ⟨first, d, hfirst, hrest⟩ := hdeadline hstage.symm
      exact ⟨first, d, kept hfirst _, hrest⟩

structure Held (s : Settings) (c : Case) (cs : List Command) (stage : Stage) (now : Instant) : Prop
    extends InTime s cs, Dated c cs where
  ready : Ready s c stage now
  stages : (sends cs).map Prod.fst = Stage.all.take stage.index
  told : ∀ first, c.firstSent = some first → ∃ d, s.hours.between first now = .ok d
  proper : now.Proper

namespace Held

theorem notice (hr : Regular s offset) (h : Held s c cs stage now) :
    InTime s (cs ++ [.notify id reason stage action kind now]) := by
  rcases h.toDated.sent_or_none h.stages with
    ⟨first, last, hfirst, hlast, hhead, hend⟩ | ⟨-, hsends, hstage⟩
  · obtain ⟨b, hb⟩ := h.told first.2 hfirst
    obtain ⟨hwait, hdeadline⟩ := (h.ready first.2 last.2 hfirst hlast).passed hr h.proper hb
    refine h.toInTime.notice (fun a ha => ?_) fun hstage => ⟨first, b, hhead, hb, hdeadline hstage⟩
    obtain rfl := Option.some.inj (hend.symm.trans ha)
    exact hwait
  · refine h.toInTime.notice (fun a ha => ?_) fun hd => ?_
    · rw [hsends] at ha
      cases ha
    · rw [hstage] at hd
      cases hd

theorem inTime_notices (hr : Regular s offset) (h : Held s c cs stage now)
    (hs : (c.enter stage).stage = stage) (p : Plan) :
    InTime s (cs ++ p.notices (c.enter stage) now) := by
  cases p with
  | fail => exact (List.append_nil cs).symm ▸ h.toInTime
  | conclude | defer | send | sendLast =>
    simp only [Plan.notices, hs]
    exact h.notice hr

theorem due_of_send (hr : Regular s offset) (h : Held s c cs stage now) {wakeAt : Instant}
    (hset : e.settings = s) (hopen : s.hours.isOpen now = .ok true)
    (hnext : stage.next? = some next)
    (hw : e.nextStageAt stage (c.firstSent.getD now) now = .ok (some wakeAt)) :
    Due s (c.firstSent.getD now) now next wakeAt := by
  obtain ⟨wait₁, wait₂, haccepted⟩ := hr.accepted
  simp only [nextStageAt, hnext, hset] at hw
  have hlast : now ≤ wakeAt := by
    split at hw
    all_goals
      obtain ⟨v, -, hw⟩ := bind_eq_ok.1 hw
      cases hw
      exact (Reading.le_max v now).2
  have hfirst : (c.firstSent.getD now).Proper ∧
      s.hours.isOpen (c.firstSent.getD now) = .ok true ∧ c.firstSent.getD now ≤ now := by
    rcases h.toDated.sent_or_none h.stages with
      ⟨first, last, hfirst, hlast, -, -⟩ | ⟨hfirst, -, -⟩
    · have hdue := h.ready first.2 last.2 hfirst hlast
      rw [hfirst]
      exact ⟨hdue.first_proper, hdue.first_open, le_trans hdue.first_le hdue.last_le⟩
    · rw [hfirst]
      exact ⟨h.proper, hopen, le_refl now⟩
  refine ⟨hfirst.1, hfirst.2.1, h.proper, hopen, hfirst.2.2, hlast, fun wait hwait => ?_,
    fun hdeadline => ?_⟩
  · simp only [hwait] at hw
    obtain ⟨v, hv, hw⟩ := bind_eq_ok.1 hw
    cases hw
    exact ⟨v, hv, (Reading.le_max v now).1⟩
  · subst hdeadline
    simp only [haccepted.others .deadline (by decide)] at hw
    obtain ⟨v, hv, hw⟩ := bind_eq_ok.1 hw
    cases hw
    exact ⟨v, hv, (Reading.le_max v now).1⟩

theorem ready_advance (hr : Regular s offset) (h : Held s c cs stage now) (hset : e.settings = s)
    (hs : (c.enter stage).stage = stage) (hg : e.Grounds c stage now p) {reason : WakeReason}
    {wakeAt : Instant} (hw : p.wake? = some (reason, wakeAt)) {seq handle : Nat}
    (htarget : wakeTarget { p.advance c stage now with
      wake := some ⟨reason, wakeAt, seq, handle⟩ } = some next) :
    Ready s (p.advance c stage now) next wakeAt := by
  intro first last hfirst hlast
  cases p with
  | defer kind at' =>
    cases hw
    obtain rfl : stage = next := hs.symm.trans (Option.some.inj htarget)
    rw [Plan.advance, Case.enter_firstSent] at hfirst
    rw [Plan.advance, Case.enter_lastSent] at hlast
    have hle := BusinessHours.le_of_nextStart hr.plain h.proper (hset ▸ hg.2)
    exact (h.ready first last hfirst hlast).later hle
  | send kind at' =>
    cases hw
    obtain rfl := Option.some.inj hfirst
    obtain rfl := Option.some.inj hlast
    have hnext : (c.enter stage).stage.next? = some next := htarget
    rw [hs] at hnext
    exact h.due_of_send hr hset (hset ▸ hg.2.1) hnext hg.2.2
  | fail | conclude | sendLast => cases hw

theorem moved (hr : Regular s offset) (h : Held s c (e.commandsOf c.id) stage now)
    (hset : e.settings = s) (hl : e.listening = true) (hs : (c.enter stage).stage = stage)
    (hm : Moved e c now (some stage) e' c') :
    InTime s (e'.commandsOf c.id) ∧ OnSchedule s c' (e'.commandsOf c.id) := by
  cases hm with
  | @rearmed _ p reason wakeAt hp hw =>
    have hg := grounds_of_plan hp
    have hdated := h.toDated.advance h.stages hs hg
    rw [commandsOf_tell (by exact hl) fun cmd => caseId_of_notices]
    refine ⟨h.inTime_notices hr hs p, ⟨hdated.first, hdated.last⟩, fun w next hwake htarget => ?_⟩
    cases hwake
    exact h.ready_advance hr hset hs hg hw htarget
  | @closed _ p hp hw =>
    have hdated := h.toDated.advance h.stages hs (grounds_of_plan hp)
    rw [commandsOf_tell (by exact hl) fun cmd => caseId_of_ending, ← List.append_assoc]
    exact ⟨(h.inTime_notices hr hs p).resolved _ _, hdated.schedule_ended _ _⟩

end Held

structure CaseFile.Paced (s : Settings) (f : CaseFile) : Prop where
  inTime : InTime s f.told
  schedule : ∀ c, f.case? = some c → OnSchedule s c f.told

theorem CaseFile.Paced.empty (s : Settings) : CaseFile.empty.Paced s := by
  refine ⟨.nil s, fun c hc => ?_⟩
  cases hc

namespace Engine

variable {e₀ : Engine} {l : List Step} {x : Step} {ids : List CaseId} {target : Option Stage}

/-- A firing that wakes the case of an id comes when the wake-up is due or later. It may be any
later. Nothing happens to the id in a leap second. -/
structure Step.Timely (x : Step) (id : CaseId) : Prop where
  woken : ∀ c ∈ x.woken?, c.id = id → x.before.clock.now.Proper ∧
    ∀ w ∈ c.wake, w.wakeAt ≤ x.before.clock.now
  started : ∀ reason now, x.op = .start id reason now → now.Proper

theorem between_of_account (h : e.accountElapsed c now = .ok c')
    (hfirst : c.firstSent = some first) : ∃ d, e.settings.hours.between first now = .ok d := by
  simp only [accountElapsed, hfirst] at h
  obtain ⟨d, hd, -⟩ := bind_eq_ok.1 h
  exact ⟨d, hd⟩

theorem Moved.firstSent (h : Moved e c now target e' c') (hf : c.firstSent = some first) :
    c'.firstSent = some first := by
  cases h with
  | rearmed | closed => exact Plan.firstSent_advance hf _ _ now
  | ended => exact hf

theorem held_of_woken (hp : (e.file c.id).Paced e.settings) (hc : e.get? c.id = some c)
    (hw : ∀ w, c.wake = some w → w.wakeAt ≤ now) (hsome : c.wake.isSome)
    (hstage : wakeTarget c = some stage) (hb : Blocks c.id (some stage) (e.commandsOf c.id))
    (hnow : now.Proper) (hm : Moved e c now target e' c')
    {c'' : Case} (ha : e.accountElapsed c' now = .ok c'') :
    Held e.settings c (e.commandsOf c.id) stage now := by
  obtain ⟨w, hwake⟩ := Option.isSome_iff_exists.1 hsome
  have hsched := hp.schedule c hc
  exact {
    hp.inTime, hsched.toDated with
    ready := fun first last hfirst hlast =>
      (hsched.ready w stage hwake hstage first last hfirst hlast).later (hw w hwake)
    stages := hb.sends
    told := fun first hfirst => between_of_account ha (hm.firstSent hfirst)
    proper := hnow }

theorem Revised.paced (hr : Regular x.before.settings offset) (hl : x.before.listening = true)
    (ha : x.before.Accounted) (hb : x.before.Balanced) (ht : x.Timely id)
    (hp : (x.before.file id).Paced x.before.settings) (h : Revised x id) :
    (x.after.file id).Paced x.before.settings := by
  cases h with
  | same hw hreply hs hfile => exact hfile ▸ hp
  | @woken c c₁ c' now e₁ hw hreply hid hc ho hclock hm hacc hout hfile =>
    subst hid
    have hmem := List.mem_of_find?_eq_some hc
    obtain ⟨stage, hstage, hblocks⟩ := ha.expects c hmem ho
    obtain ⟨hnow, hwake⟩ := ht.woken c hw rfl
    rw [← now_of_read hclock] at hnow hwake
    have hsome : c.wake.isSome := (hb.wake c hmem).trans (Option.isNone_iff_eq_none.2 ho)
    have hheld := held_of_woken hp hc hwake hsome hstage hblocks hnow hm hacc
    rw [hstage] at hm
    obtain ⟨hin, hsched⟩ := hheld.moved hr rfl hl (stage_enter hstage) hm
    obtain ⟨⟨d, rfl⟩, -⟩ := accountElapsed_cases hacc
    rw [hfile]
    refine ⟨hin, fun c hc => ?_⟩
    cases hc
    exact ⟨⟨hsched.first, hsched.last⟩, hsched.ready⟩
  | @resumed c c' now hw hreply hop hc ho hend hfile =>
    obtain ⟨d, rfl⟩ := hend
    have hended : OnSchedule x.before.settings (c.ended .resumed none now)
        ((x.before.file id).told ++ [.resolved id .resumed none now]) :=
      (hp.schedule c hc).toDated.schedule_ended .resumed none
    rw [hfile]
    refine ⟨hp.inTime.resolved .resumed none, fun c hc => ?_⟩
    cases hc
    exact ⟨⟨hended.first, hended.last⟩, hended.ready⟩
  | @started reason now e₁ c hw hreply hop hnone hm hfile =>
    -- Nothing has been told of a new case, so nothing has been told too early.
    have htold : x.before.commandsOf id = [] := congrArg CaseFile.told hnone
    have hheld : Held x.before.settings (.fresh id reason now) (x.before.commandsOf id) .initial
        now := {
      waits := htold ▸ (InTime.nil x.before.settings).waits
      deadline := htold ▸ (InTime.nil x.before.settings).deadline
      first := htold ▸ rfl
      last := htold ▸ rfl
      ready := fun first last hfirst => nomatch hfirst
      stages := htold ▸ rfl
      told := fun first hfirst => nomatch hfirst
      proper := ht.started reason now hop }
    obtain ⟨hin, hsched⟩ := hheld.moved hr rfl hl rfl hm
    rw [hfile]
    refine ⟨hin, fun c hc => ?_⟩
    cases hc
    exact hsched
  | evicted hw hreply hi hc hres hfile =>
    rw [hfile]
    exact ⟨hp.inTime, fun c hc => nomatch hc⟩

structure Sound (s : Settings) (e : Engine) : Prop where
  settings : e.settings = s
  accounted : e.Accounted
  balanced : e.Balanced

theorem sound_of_initial (h : Initial e) : Sound e.settings e :=
  ⟨rfl, accounted_of_initial h, balanced_of_initial h⟩

theorem Sound.step {op : Operation} {r : Except EngineError Reply} (hs : Sound s e)
    (hreg : Registry ids e) (hnew : ∀ id ∈ op.started?, id ∉ ids) (h : Performed e op r e') :
    Sound s e' :=
  ⟨h.settings_eq.trans hs.settings, hs.accounted.step hreg hnew h.effect,
    hs.balanced.step hreg hnew h.effect⟩

/-- Where the firings that wake the case of an id come when they are due or any later, each of its
follow-ups is sent once the wait before it has passed since the last notice, and all that is told
at the deadline is told once that has passed since the first notice. -/
theorem notices_in_time (h₀ : Initial e₀) (hz : e₀.settings.hours.zone = .fixed offset)
    (hs : ¬ e₀.settings.hours.start.IsLeap) (hf : ¬ e₀.settings.hours.finish.IsLeap)
    (hids : (startsOf l).Nodup) (h : Runs e₀ l e) (id : CaseId) (ht : ∀ x ∈ l, x.Timely id) :
    ((sends (e.commandsOf id)).IsChain fun a b => ∀ wait,
      e₀.settings.waitBefore b.1 = some wait →
        ∃ d, e₀.settings.hours.between a.2 b.2 = .ok d ∧ wait ≤ d) ∧
    (∀ reason action kind u, .notify id reason .deadline action kind u ∈ e.commands →
      ∃ first d, (sends (e.commandsOf id)).head? = some first ∧
        e₀.settings.hours.between first.2 u = .ok d ∧ e₀.settings.deadline ≤ d) ∧
    (∀ c, e.get? id = some c →
      c.firstSent = (sends (e.commandsOf id)).head?.map Prod.snd) := by
  have hr : Regular e₀.settings offset :=
    ⟨Settings.accepted_of_validate (initial_cases h₀).1, hz, hs, hf⟩
  have hstart : (e₀.file id).Paced e₀.settings := file_of_initial h₀ id ▸ .empty _
  have hpaced : Sound e₀.settings e ∧
      ((∀ x ∈ l, x.Timely id) → (e.file id).Paced e₀.settings) := by
    refine (h.invariant (P := fun l e => Sound e₀.settings e ∧
      ((∀ x ∈ l, x.Timely id) → (e.file id).Paced e₀.settings)) (registry_of_initial h₀)
      ⟨sound_of_initial h₀, fun _ => hstart⟩ ?_ hids).2
    rintro l e op r e' - hreg hnew ⟨hsound, hp⟩ hdone
    refine ⟨hsound.step hreg hnew hdone, fun ht => ?_⟩
    obtain ⟨hbefore, hthis⟩ := forall_mem_snoc.1 ht
    replace hbefore := hp hbefore
    have hset := hsound.settings
    rw [← hset] at hr hbefore ⊢
    exact (hdone.revised hreg hnew id).paced hr hreg.listening hsound.accounted hsound.balanced
      hthis hbefore
  have hp := hpaced.2 ht
  refine ⟨hp.inTime.waits, fun reason action kind u hmem => ?_,
    fun c hc => (hp.schedule c hc).first⟩
  exact hp.inTime.deadline id reason action kind u
    (List.mem_filter.2 ⟨hmem, by simp [Command.caseId]⟩)

theorem notices_in_time_reminded :
    Initial standard ∧ (startsOf toReminded).Nodup ∧ Runs standard toReminded reminded ∧
      (∀ x ∈ toReminded, x.Timely ⟨1⟩) ∧
      sends (reminded.commandsOf ⟨1⟩) =
        [(.initial, ⟨1792404000, 0⟩), (.followUp1, ⟨1792407600, 0⟩)] ∧
      ∃ d, standard.settings.hours.between ⟨1792404000, 0⟩ ⟨1792407600, 0⟩ = .ok d ∧
        .ofHours 1 ≤ d := by
  have hids : (startsOf toReminded).Nodup := List.nodup_singleton (⟨1⟩ : CaseId)
  have hzone : standard.settings.hours.zone = .fixed .utc := rfl
  have htimely : ∀ x ∈ toReminded, x.Timely ⟨1⟩ := by
    intro x hx
    simp only [toReminded, List.mem_cons, List.not_mem_nil, or_false] at hx
    rcases hx with rfl | rfl | rfl
    · refine ⟨fun c hc => (nomatch hc), fun reason now hop => ?_⟩
      cases hop
      exact ⟨by decide, by decide⟩
    · exact ⟨fun c hc => (nomatch hc), fun reason now hop => nomatch hop⟩
    · refine ⟨fun c hc _ => ⟨⟨by decide, by decide⟩, ?_⟩, fun reason now hop => nomatch hop⟩
      cases hc
      intro w hw
      cases hw
      decide
  obtain ⟨hchain, -, -⟩ := notices_in_time initial_standard hzone (by decide) (by decide) hids
    runs_toReminded ⟨1⟩ htimely
  exact ⟨initial_standard, hids, runs_toReminded, htimely, rfl,
    (List.isChain_cons_cons.1 hchain).1 (.ofHours 1) rfl⟩

end Engine

end Followup
