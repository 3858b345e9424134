import Followup.Proofs.Engine.Pace

/-! What a case keeps of its notices. The times of the first and of the last are those at which they
were told, and the reason for the next wake-up says whether the last one was sent or deferred. -/

namespace Followup

open Engine

variable {e e' : Engine} {p : Plan} {id : CaseId} {cs : List Command} {c c' : Case} {stage : Stage}
  {now : Instant} {offset : Offset}

def actions (cs : List Command) : List Action :=
  cs.filterMap fun
    | .notify _ _ _ action _ _ => some action
    | .resolved .. => none

theorem actions_notice (cs : List Command) (id : CaseId) (reason : String) (stage : Stage)
    (action : Action) (kind : Option NoticeKind) (now : Instant) :
    (actions (cs ++ [.notify id reason stage action kind now])).getLast? = some action := by
  rw [actions, List.filterMap_append]
  exact List.getLast?_concat

/-- The case waits for its next stage if its last notice was sent, and for the same stage again if
that was deferred. Only the deadline has no next stage. -/
inductive AwaitsAfter (c : Case) (w : Wake) : Action → Prop
  | sent (hr : w.reason = .nextStage) (hs : c.stage ≠ .deadline) : AwaitsAfter c w .sendNow
  | deferred (hr : w.reason = .deferred) : AwaitsAfter c w .scheduleNextWindow

/-- What a case keeps agrees with what was told of it. -/
structure Recorded (c : Case) (cs : List Command) : Prop extends Dated c cs where
  begun : c.stage ≠ .initial → c.firstSent.isSome
  awaits : c.resolution = none → ∃ w action, c.wake = some w ∧
    (actions cs).getLast? = some action ∧ AwaitsAfter c w action

theorem Recorded.withElapsed (h : Recorded c cs) (elapsed : Span) :
    Recorded { c with elapsed } cs := by
  refine ⟨⟨h.first, h.last⟩, h.begun, fun ho => ?_⟩
  obtain ⟨w, action, hw, hlast, hafter⟩ := h.awaits ho
  refine ⟨w, action, hw, hlast, ?_⟩
  cases hafter with
  | sent hr hs => exact .sent hr hs
  | deferred hr => exact .deferred hr

theorem Recorded.ended (h : Recorded c cs) (outcome : Outcome) (diagnostic : Option String) :
    Recorded (c.ended outcome diagnostic now) (cs ++ [.resolved id outcome diagnostic now]) :=
  ⟨h.toDated.ended outcome diagnostic, h.begun, fun ho => nomatch ho⟩

namespace Engine

variable {e₀ : Engine} {l : List Step} {x : Step} {target : Option Stage}

theorem stage_advance (hs : (c.enter stage).stage = stage) (p : Plan) :
    (p.advance c stage now).stage = stage := by
  cases p <;> exact hs

theorem begun_advance (hd : Dated c cs) (hb : Blocks c.id (some stage) cs)
    (hs : (c.enter stage).stage = stage) (p : Plan)
    (hne : (p.advance c stage now).stage ≠ .initial) :
    (p.advance c stage now).firstSent.isSome := by
  rw [stage_advance hs] at hne
  rcases hd.sent_or_none hb.sends with ⟨first, -, hfirst, -⟩ | ⟨-, -, hstage⟩
  · rw [Plan.firstSent_advance hfirst]
    rfl
  · exact absurd hstage hne

theorem Moved.recorded (hd : Dated c (e.commandsOf c.id))
    (hb : Blocks c.id (some stage) (e.commandsOf c.id)) (hl : e.listening = true)
    (hs : (c.enter stage).stage = stage) (hm : Moved e c now (some stage) e' c') :
    Recorded c' (e'.commandsOf c.id) := by
  cases hm with
  | @rearmed _ p reason wakeAt hp hw =>
    have hg := grounds_of_plan hp
    have hdated := hd.advance hb.sends hs hg
    rw [commandsOf_tell (by exact hl) fun cmd => caseId_of_notices]
    refine ⟨⟨hdated.first, hdated.last⟩, begun_advance hd hb hs p, fun _ => ?_⟩
    cases p with
    | defer kind at' =>
      cases hw
      exact ⟨_, _, rfl, actions_notice .., .deferred rfl⟩
    | send kind at' =>
      cases hw
      refine ⟨_, _, rfl, actions_notice .., .sent rfl fun hlast => ?_⟩
      have hnext := next?_of_nextStageAt hg.2.2
      obtain rfl : stage = .deadline := hs.symm.trans hlast
      cases hnext
    | fail | conclude | sendLast => cases hw
  | @closed _ p hp hw =>
    have hdated := hd.advance hb.sends hs (grounds_of_plan hp)
    rw [commandsOf_tell (by exact hl) fun cmd => caseId_of_ending, ← List.append_assoc]
    exact ⟨hdated.ended .closed (p.diagnostic stage), begun_advance hd hb hs p,
      fun ho => nomatch ho⟩

theorem Revised.recorded (hl : x.before.listening = true) (ha : x.before.Accounted)
    (hr : ∀ c, x.before.get? id = some c → Recorded c (x.before.commandsOf id))
    (h : Revised x id) (hc : x.after.get? id = some c) : Recorded c (x.after.commandsOf id) := by
  have told {f : CaseFile} (hfile : x.after.file id = f) : x.after.commandsOf id = f.told :=
    congrArg CaseFile.told hfile
  cases h with
  | same hw hreply hs hfile =>
    rw [told hfile]
    exact hr c ((get?_of_file hfile).symm.trans hc)
  | @woken c₀ c₁ c' now e₁ hw hreply hid hget ho hclock hm hacc hout hfile =>
    obtain rfl := Option.some.inj (case_of_file hfile hc)
    subst hid
    obtain ⟨stage, hstage, hb⟩ := ha.expects c₀ (List.mem_of_find?_eq_some hget) ho
    rw [hstage] at hm
    obtain ⟨⟨elapsed, rfl⟩, -⟩ := accountElapsed_cases hacc
    rw [told hfile]
    exact (hm.recorded (hr c₀ hget).toDated hb hl (stage_enter hstage)).withElapsed elapsed
  | @resumed c₀ c' now hw hreply hop hget ho hend hfile =>
    obtain rfl := Option.some.inj (case_of_file hfile hc)
    obtain ⟨elapsed, rfl⟩ := hend
    rw [told hfile]
    exact ((hr c₀ hget).ended .resumed none).withElapsed elapsed
  | @started reason now e₁ c' hw hreply hop hnone hm hfile =>
    obtain rfl := Option.some.inj (case_of_file hfile hc)
    have htold : x.before.commandsOf id = [] := congrArg CaseFile.told hnone
    have hdated : Dated (.fresh id reason now) (x.before.commandsOf id) := by
      rw [htold]
      exact ⟨rfl, rfl⟩
    rw [told hfile]
    exact hm.recorded hdated (htold ▸ .nil) hl rfl
  | evicted hw hreply hi hget hres hfile => cases case_of_file hfile hc

theorem Effect.told_prefix {started : Option CaseId} (hl : e.listening = true)
    (h : Effect e started e') (id : CaseId) : e.commandsOf id <+: e'.commandsOf id := by
  obtain ⟨⟨cs, hcs⟩, -⟩ := h.commands_grow hl
  rw [commandsOf, commandsOf, hcs, List.filter_append]
  exact List.prefix_append _ _

theorem head_of_prefix {ds : List Command} {t : Instant} (h : cs <+: ds)
    (ht : (sends cs).head?.map Prod.snd = some t) : (sends ds).head?.map Prod.snd = some t := by
  obtain ⟨as, rfl⟩ := h
  obtain ⟨a, ha, rfl⟩ := Option.map_eq_some_iff.1 ht
  rw [sends_append, List.head?_append, ha]
  rfl

def Step.KeepsFirst (x y : Step) : Prop :=
  ∀ id c d t, x.after.get? id = some c → y.after.get? id = some d → c.firstSent = some t →
    d.firstSent = some t

structure Booked (l : List Step) (e : Engine) : Prop where
  accounted : e.Accounted
  recorded : ∀ id c, e.get? id = some c → Recorded c (e.commandsOf id)
  first : ∀ x ∈ l, ∀ id c t, x.after.get? id = some c → c.firstSent = some t →
    (sends (e.commandsOf id)).head?.map Prod.snd = some t
  keeps : l.Pairwise Step.KeepsFirst

theorem booked_of_initial (h : Initial e) : Booked [] e where
  accounted := accounted_of_initial h
  recorded id _ hc := nomatch (get?_of_file (file_of_initial h id)).symm.trans hc
  first := List.forall_mem_nil _
  keeps := .nil

theorem Booked.step {ids : List CaseId} (hb : Booked l x.before) (hreg : Registry ids x.before)
    (hnew : ∀ id ∈ x.op.started?, id ∉ ids)
    (h : Performed x.before x.op x.reply x.after) : Booked (l ++ [x]) x.after := by
  have hrec (id : CaseId) (c : Case) (hc : x.after.get? id = some c) :
      Recorded c (x.after.commandsOf id) :=
    (h.revised hreg hnew id).recorded hreg.listening hb.accounted (hb.recorded id) hc
  have hfirst (y : Step) (hy : y ∈ l) (id : CaseId) (c : Case) (t : Instant)
      (hc : y.after.get? id = some c) (ht : c.firstSent = some t) :
      (sends (x.after.commandsOf id)).head?.map Prod.snd = some t :=
    head_of_prefix (h.effect.told_prefix hreg.listening id) (hb.first y hy id c t hc ht)
  refine {
    accounted := hb.accounted.step hreg hnew h.effect
    recorded := hrec
    first := forall_mem_snoc.2 ⟨hfirst, fun id c _ hc ht => ?_⟩
    keeps := pairwise_snoc.2 ⟨hb.keeps, fun y hy id c d t hc hd ht => ?_⟩ }
  · rw [← (hrec id c hc).first, ht]
  · rw [(hrec id d hd).first, hfirst y hy id c t hc ht]

/-- After every run, a case has the times of its first and of its last notice, the first of which
never changes, and there has been one if the case is beyond its first stage. An open case waits for
its next stage if its last notice was sent, and for the same stage again if it was deferred, which
it always was at the deadline; so there is always a stage that it is to be woken for. -/
theorem notices_on_record (h₀ : Initial e₀) (hids : (startsOf l).Nodup) (h : Runs e₀ l e) :
    (∀ c ∈ e.cases,
      c.firstSent = (sends (e.commandsOf c.id)).head?.map Prod.snd ∧
      c.lastSent = (sends (e.commandsOf c.id)).getLast?.map Prod.snd ∧
      (c.stage ≠ .initial → c.firstSent.isSome)) ∧
    (∀ c ∈ e.cases, c.resolution = none → ∃ w action, c.wake = some w ∧
      (actions (e.commandsOf c.id)).getLast? = some action ∧
      (action = .sendNow ∧ w.reason = .nextStage ∨
        action = .scheduleNextWindow ∧ w.reason = .deferred) ∧
      (c.stage = .deadline → w.reason = .deferred) ∧ ∃ stage, wakeTarget c = some stage) ∧
    l.Pairwise fun x y => ∀ id c d t, x.after.get? id = some c → y.after.get? id = some d →
      c.firstSent = some t → d.firstSent = some t := by
  obtain ⟨hreg, hb⟩ := h.invariant (registry_of_initial h₀) (booked_of_initial h₀)
    (fun _ hreg hnew hb hdone => hb.step hreg hnew hdone) hids
  have recorded (c : Case) (hc : c ∈ e.cases) : Recorded c (e.commandsOf c.id) :=
    hb.recorded c.id c (get?_of_mem hreg.nodup hc)
  refine ⟨fun c hc => ?_, fun c hc ho => ?_, hb.keeps⟩
  · have hrec := recorded c hc
    exact ⟨hrec.first, hrec.last, hrec.begun⟩
  · obtain ⟨w, action, hw, hlast, hafter⟩ := (recorded c hc).awaits ho
    obtain ⟨stage, hstage, -⟩ := hb.accounted.expects c hc ho
    refine ⟨w, action, hw, hlast, ?_⟩
    cases hafter with
    | sent hr hs => exact ⟨.inl ⟨rfl, hr⟩, fun hd => absurd hd hs, stage, hstage⟩
    | deferred hr => exact ⟨.inr ⟨rfl, hr⟩, fun _ => hr, stage, hstage⟩

theorem notices_on_record_reminded :
    Initial standard ∧ (startsOf toReminded).Nodup ∧ Runs standard toReminded reminded ∧
      ∃ c ∈ reminded.cases,
        c.firstSent = (sends (reminded.commandsOf c.id)).head?.map Prod.snd ∧
        c.firstSent = some ⟨1792404000, 0⟩ ∧
        c.lastSent = (sends (reminded.commandsOf c.id)).getLast?.map Prod.snd ∧
        c.lastSent = some ⟨1792407600, 0⟩ ∧
        ∃ w, c.wake = some w ∧ w.reason = .nextStage ∧
          (actions (reminded.commandsOf c.id)).getLast? = some .sendNow := by
  have hids : (startsOf toReminded).Nodup := List.nodup_singleton (⟨1⟩ : CaseId)
  obtain ⟨htimes, hopen, -⟩ := notices_on_record initial_standard hids runs_toReminded
  have hmem := List.head_mem (l := reminded.cases) (by decide)
  obtain ⟨hfirst, hlast, -⟩ := htimes _ hmem
  obtain ⟨w, action, hw, haction, hafter, -⟩ := hopen _ hmem rfl
  refine ⟨initial_standard, hids, runs_toReminded, _, hmem, hfirst, rfl, hlast, rfl, w, hw, ?_⟩
  cases hw
  rcases hafter with ⟨rfl, hr⟩ | ⟨-, hr⟩
  · exact ⟨hr, haction⟩
  · cases hr

end Engine

end Followup
