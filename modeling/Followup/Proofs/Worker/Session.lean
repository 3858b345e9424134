import Followup.Proofs.Engine.Faultless
import Followup.Proofs.Worker.Exchange
import Followup.Proofs.Worker.Folder

/-! A session of the worker from a new engine on. Lines come in any number, and between them the
engine wakes and forgets cases while its clock and its timers fail and recover. -/

namespace Followup

def Operation.isBackground : Operation → Bool
  | timerFired _ _ | purgeExpired | setClock _ | setOutage _ | setRefusal _ => true
  | _ => false

namespace Worker

open Engine

def Request.at? : Request → Option Instant
  | classify _ _ at' | start _ at' | respond _ at' => at'
  | status _ => none

/-- What a worker is met with: a line, with the time at which it comes and an id that is not in use,
or something that goes on in the background. -/
inductive Happening where
  | line (now : Instant) (id : CaseId) (text : String)
  | meanwhile (op : Operation) (h : op.isBackground)

namespace Happening

def times : Happening → List Instant
  | line now _ text => now :: ((Request.read? text).bind Request.at?).toList
  | meanwhile op _ => op.now?.toList

def id? : Happening → Option CaseId
  | line _ id _ => some id
  | meanwhile .. => none

def line? : Happening → Option (Instant × CaseId × String)
  | line now id text => if Session.isBlankLine text then none else some (now, id, text)
  | meanwhile .. => none

end Happening

def Exchange.asked (x : Exchange) : Instant × CaseId × String := (x.now, x.id, x.line)

namespace Session

def meet (s : Session) : Happening → Checked (Session × Option Exchange)
  | .line now id text => do
    let (s', response?) ← s.answer now id text
    return (s', response?.map fun response => ⟨s, now, id, text, response, s'⟩)
  | .meanwhile op _ => do
    let (e, _) ← s.engine.perform op
    return ({ s with engine := e }, none)

def serve (s : Session) : List Happening → Checked (Session × List Exchange)
  | [] => return (s, [])
  | h :: hs => do
    let (s, x?) ← s.meet h
    let (s, xs) ← s.serve hs
    return (s, x?.toList ++ xs)

/-- Where nothing goes on but lines, the responses are those of the exchanges. -/
theorem run_eq (s : Session) (lines : List (Instant × CaseId × String)) :
    s.run lines = (s.serve (lines.map fun a => .line a.1 a.2.1 a.2.2)).map
      fun a => (a.1, a.2.map Exchange.response) := by
  induction lines generalizing s with
  | nil => rfl
  | cons line lines ih =>
    obtain ⟨now, id, text⟩ := line
    rw [run, List.map_cons, serve, meet]
    cases s.answer now id text with
    | error fault => rfl
    | ok a =>
      obtain ⟨s', response?⟩ := a
      simp only [ok_bind, ih]
      change _ = Except.map _ (s'.serve (lines.map fun a => .line a.1 a.2.1 a.2.2) >>= _)
      cases s'.serve (lines.map fun a => .line a.1 a.2.1 a.2.2) with
      | error fault => rfl
      | ok b =>
        obtain ⟨s'', xs⟩ := b
        cases response? with
        | none => rfl
        | some response => rfl

end Session

section History

open Session

variable {s₀ s s' : Session} {happenings rest : List Happening} {l : List Step}
  {exchanges ys : List Exchange} {now : Instant} {id : CaseId} {text : String} {x : Exchange}

/-- What a session has come to by some happenings, and what its engine has done. -/
structure History (s₀ : Session) (happenings : List Happening) (l : List Step)
    (exchanges : List Exchange) (s : Session) : Prop where
  runs : Engine.Runs s₀.engine l s.engine
  validation : s.validation = s₀.validation
  starts : (startsOf l).Sublist (happenings.filterMap Happening.id?)
  asked : exchanges.map Exchange.asked = happenings.filterMap Happening.line?
  leavesAll : ∀ x ∈ exchanges, ∀ failure, x.response = .error failure → x.LeavesAll
  handles : ∀ x ∈ exchanges, x.Handles s₀.validation x.request?
  resumed : ∀ id, (∃ x ∈ exchanges, x.Resumes id) ↔ ∃ z ∈ l, z.Resumes id
  once : ∀ id, exchanges.Pairwise fun x y => ¬ (x.Resumes id ∧ y.Resumes id)

theorem History.nil (s₀ : Session) : History s₀ [] [] [] s₀ where
  runs := .nil
  validation := rfl
  starts := .slnil
  asked := rfl
  leavesAll := List.forall_mem_nil _
  handles := List.forall_mem_nil _
  resumed _ := iff_of_false (fun ⟨_, hx, _⟩ => nomatch hx) fun ⟨_, hz, _⟩ => nomatch hz
  once _ := .nil

theorem Asks.started {validation : Table} {op : Operation} {members : List (String × JsonValue)}
    (h : Asks validation now id text op members) : op.started?.toList.Sublist [id] := by
  cases h with
  | classified | start => exact .refl _
  | respond | status => exact List.nil_sublist _

theorem History.starts_snoc (hist : History s₀ happenings l exchanges s) (h : Happening) :
    (startsOf l).Sublist ((happenings ++ [h]).filterMap Happening.id?) := by
  rw [filterMap_snoc]
  exact hist.starts.trans (List.sublist_append_left _ _)

theorem History.blank (hist : History s₀ happenings l exchanges s)
    (hblank : isBlankLine text = true) :
    History s₀ (happenings ++ [.line now id text]) l exchanges s :=
  { hist with
    starts := hist.starts_snoc _
    asked := by
      rw [filterMap_snoc, Happening.line?, if_pos hblank, hist.asked]
      exact (List.append_nil _).symm }

theorem History.meanwhile (hist : History s₀ happenings l exchanges s) {op : Operation}
    (h : op.isBackground) {e : Engine} {reply : Except EngineError Engine.Reply}
    (hp : s.engine.perform op = .ok (e, reply)) :
    History s₀ (happenings ++ [.meanwhile op h]) (l ++ [⟨s.engine, op, reply, e⟩]) exchanges
      { s with engine := e } :=
  { hist with
    runs := hist.runs.snoc op hp
    starts := by
      have hnone : op.started? = none := by
        cases op with
        | start => cases h
        | _ => rfl
      rw [startsOf_snoc, filterMap_snoc, hnone]
      exact hist.starts.append (.refl _)
    asked := by
      rw [filterMap_snoc, hist.asked]
      exact (List.append_nil _).symm
    resumed := fun i => by
      have hnot : ¬ Step.Resumes ⟨s.engine, op, reply, e⟩ i := by
        rintro ⟨⟨now, rfl⟩, -⟩
        cases h
      rw [exists_mem_snoc, or_iff_left hnot]
      exact hist.resumed i }

theorem History.once_snoc (hist : History s₀ happenings l exchanges s) {z : Step} {e : Engine}
    {i : CaseId} (hf : Finality i (l ++ [z]) e) (hx : x.Resumes i → z.Resumes i) :
    (exchanges ++ [x]).Pairwise fun x y => ¬ (x.Resumes i ∧ y.Resumes i) := by
  have resolves {w : Step} (hw : w ∈ l ++ [z]) (h : w.Resumes i) : w.Resolves i :=
    ((hf.resumes w hw).1 h).1
  have hz : z ∈ l ++ [z] := List.mem_append_right _ (List.mem_singleton_self z)
  refine pairwise_snoc.2 ⟨hist.once i, fun y hy ⟨hyi, hxi⟩ => ?_⟩
  obtain ⟨w, hw, hwi⟩ := (hist.resumed i).1 ⟨y, hy, hyi⟩
  exact (pairwise_snoc.1 hf.once).2 w hw
    ⟨resolves (List.mem_append_left _ hw) hwi, resolves hz (hx hxi)⟩

theorem History.unknown (hist : History s₀ happenings l exchanges s) (h₀ : Initial s₀.engine)
    (hids : ((happenings ++ [Happening.line now id text]).filterMap Happening.id?).Nodup) :
    Registry (startsOf l) s.engine ∧ id ∉ startsOf l := by
  rw [filterMap_snoc] at hids
  obtain ⟨hnodup, -, hdisjoint⟩ := List.nodup_append.1 hids
  refine ⟨registry_of_runs h₀ (hist.starts.nodup hnodup) hist.runs, fun hmem => ?_⟩
  exact hdisjoint id (hist.starts.subset hmem) id (List.mem_singleton_self id) rfl

theorem History.asked_snoc (hist : History s₀ happenings l exchanges s) (now : Instant)
    (id : CaseId) (hline : isBlankLine text = false) (response : Response) (s' : Session) :
    (exchanges ++ [Exchange.mk s now id text response s']).map Exchange.asked =
      (happenings ++ [Happening.line now id text]).filterMap Happening.line? := by
  rw [filterMap_snoc, Happening.line?, if_neg (by simp [hline]), List.map_append, hist.asked]
  rfl

theorem History.answered (hist : History s₀ happenings l exchanges s) (h₀ : Initial s₀.engine)
    (hids : ((happenings ++ [Happening.line now id text]).filterMap Happening.id?).Nodup)
    (hline : isBlankLine text = false) {response : Response}
    (h : Answered s now id text response s') :
    ∃ l', History s₀ (happenings ++ [.line now id text]) l'
      (exchanges ++ [⟨s, now, id, text, response, s'⟩]) s' := by
  obtain ⟨hreg, hid⟩ := hist.unknown h₀ hids
  have hasked := hist.asked_snoc now id hline response s'
  have hleaves : ∀ x ∈ exchanges ++ [⟨s, now, id, text, response, s'⟩],
      ∀ failure, x.response = .error failure → x.LeavesAll :=
    forall_mem_snoc.2 ⟨hist.leavesAll, fun _ hr => leavesAll_of_answered h hr⟩
  have hhandles : ∀ x ∈ exchanges ++ [⟨s, now, id, text, response, s'⟩],
      x.Handles s₀.validation x.request? :=
    forall_mem_snoc.2 ⟨hist.handles, hist.validation ▸ handles_of_answered hreg hid h⟩
  cases h with
  | settled hs =>
    have hnot (i : CaseId) : ¬ Exchange.Resumes ⟨s, now, id, text, response, s⟩ i :=
      hs.not_resumes i
    refine ⟨l, hist.runs, hist.validation, hist.starts_snoc _, hasked, hleaves, hhandles,
      fun i => ?_, fun i => ?_⟩
    · rw [exists_mem_snoc, or_iff_left (hnot i)]
      exact hist.resumed i
    · exact pairwise_snoc.2 ⟨hist.once i, fun _ _ hboth => hnot i hboth.2⟩
  | @performed op members e reply hasks hp =>
    have hruns := hist.runs.snoc op hp
    have hstarts : (startsOf (l ++ [⟨s.engine, op, reply, e⟩])).Sublist
        ((happenings ++ [Happening.line now id text]).filterMap Happening.id?) := by
      rw [startsOf_snoc, filterMap_snoc]
      exact hist.starts.append hasks.started
    -- What is told is what the engine has done, so the end of a case is as final as it is there.
    have hiff (i : CaseId) := resumes_iff hasks hp i
    refine ⟨_, hruns, hist.validation, hstarts, hasked, hleaves, hhandles, fun i => ?_, fun i => ?_⟩
    · rw [exists_mem_snoc, exists_mem_snoc, hist.resumed i, hiff i]
    · exact hist.once_snoc (finality_of_runs h₀ (hstarts.nodup hids) hruns i) (hiff i).1

theorem History.meet (hist : History s₀ happenings l exchanges s) (h₀ : Initial s₀.engine)
    {h : Happening} {x? : Option Exchange}
    (hids : ((happenings ++ [h]).filterMap Happening.id?).Nodup)
    (hm : s.meet h = .ok (s', x?)) :
    ∃ l', History s₀ (happenings ++ [h]) l' (exchanges ++ x?.toList) s' := by
  cases h with
  | line now id text =>
    obtain ⟨⟨s₁, response?⟩, ha, hm⟩ := bind_eq_ok.1 hm
    cases hm
    cases hblank : isBlankLine text with
    | true =>
      cases (answer_blank hblank).symm.trans ha
      rw [Option.map_none, Option.toList_none, List.append_nil]
      exact ⟨l, hist.blank hblank⟩
    | false =>
      obtain ⟨response, rfl, h⟩ := answered_of_answer hblank ha
      exact hist.answered h₀ hids hblank h
  | meanwhile op h =>
    obtain ⟨⟨e, reply⟩, hp, hm⟩ := bind_eq_ok.1 hm
    cases hm
    rw [Option.toList_none, List.append_nil]
    exact ⟨_, hist.meanwhile h hp⟩

theorem History.serve (hist : History s₀ happenings l exchanges s) (h₀ : Initial s₀.engine)
    (hids : ((happenings ++ rest).filterMap Happening.id?).Nodup)
    (hserve : s.serve rest = .ok (s', ys)) :
    ∃ l', History s₀ (happenings ++ rest) l' (exchanges ++ ys) s' := by
  -- On what is still to come, with the history of all that came before.
  induction rest generalizing happenings l exchanges s ys with
  | nil =>
    cases hserve
    rw [List.append_nil, List.append_nil]
    exact ⟨l, hist⟩
  | cons h rest ih =>
    obtain ⟨⟨s₁, x?⟩, hm, hserve⟩ := bind_eq_ok.1 hserve
    obtain ⟨⟨s₂, xs⟩, hrest, hserve⟩ := bind_eq_ok.1 hserve
    cases hserve
    rw [List.append_cons] at hids ⊢
    have hids' := hids
    rw [List.filterMap_append] at hids'
    obtain ⟨l₁, hist₁⟩ := hist.meet h₀ (List.nodup_append.1 hids').1 hm
    rw [← List.append_assoc exchanges]
    exact ih hist₁ hids hrest

end History

section Answers

variable {s₀ s : Session} {happenings : List Happening} {P : Instant → Prop} {now : Instant}
  {id : CaseId} {text : String}

theorem Asks.time {validation : Table} {op : Operation} {members : List (String × JsonValue)}
    (h : Asks validation now id text op members) :
    ∀ t ∈ op.now?, t ∈ (Happening.line now id text).times := by
  have chosen (at' : Option Instant) : at'.getD now ∈ now :: at'.toList := by
    cases at' with
    | none => exact List.mem_singleton_self now
    | some t => exact List.mem_cons_of_mem now (List.mem_singleton_self t)
  rintro t ht
  rw [Happening.times]
  cases h with
  | @classified _ _ at' _ hread | @start _ at' hread | @respond _ at' hread =>
    cases ht
    rw [hread]
    exact chosen at'
  | status => cases ht

theorem exists_answer (he : s.engine.Within P)
    (ht : ∀ t ∈ (Happening.line now id text).times, P t) :
    ∃ a, s.answer now id text = .ok a ∧ a.1.engine.Within P := by
  cases hblank : Session.isBlankLine text with
  | true => exact ⟨_, answer_blank hblank, he⟩
  | false =>
    rcases answer_eq s now id hblank with ⟨response, -, heq⟩ | ⟨op, members, hasks, heq⟩
    · exact ⟨_, heq, he⟩
    · obtain ⟨a, ha, hwithin⟩ := exists_perform he fun t hop => ht t (hasks.time t hop)
      exact ⟨_, by rw [heq, ha]; rfl, hwithin⟩

theorem exists_meet (he : s.engine.Within P) {h : Happening} (ht : ∀ t ∈ h.times, P t) :
    ∃ a, s.meet h = .ok a ∧ a.1.engine.Within P := by
  cases h with
  | line now id text =>
    obtain ⟨a, ha, hwithin⟩ := exists_answer he ht
    exact ⟨_, by rw [Session.meet, ha]; rfl, hwithin⟩
  | meanwhile op h =>
    have hop : ∀ t ∈ op.now?, P t := fun t hop => ht t (Option.mem_toList.2 hop)
    obtain ⟨a, ha, hwithin⟩ := exists_perform he hop
    exact ⟨_, by rw [Session.meet, ha]; rfl, hwithin⟩

theorem exists_serve (he : s.engine.Within P) (ht : ∀ h ∈ happenings, ∀ t ∈ h.times, P t) :
    ∃ a, s.serve happenings = .ok a := by
  induction happenings generalizing s with
  | nil => exact ⟨_, rfl⟩
  | cons h happenings ih =>
    rw [List.forall_mem_cons] at ht
    obtain ⟨⟨s₁, x?⟩, ha, hwithin⟩ := exists_meet he ht.1
    obtain ⟨b, hb⟩ := ih hwithin ht.2
    refine ⟨(b.1, x?.toList ++ b.2), ?_⟩
    rw [Session.serve, ha, ok_bind]
    dsimp only at hb ⊢
    rw [hb]
    rfl

theorem isWhole_of_settingsOf {o : Options} {env : Settings.Environment} {settings : Settings}
    (h : (settingsOf o env).run = .ok (.ok settings)) :
    settings.hours.start.IsWhole ∧ settings.hours.finish.IsWhole := by
  obtain ⟨s, hs, h⟩ := Fallible.bind_eq_ok.1 h
  cases h
  obtain ⟨found, hfound, rfl⟩ := ofProfile_eq_ok.1 hs
  exact (Settings.of_ofLookup hfound).2.1

/-- A worker at a fixed offset answers each line that is not blank once, in their order, whatever
its tables are, as long as the times it is told are clear of the ends of the calendar. A request
that is answered with an error changes no case, timer or command. An intake of the class for success
starts nothing; any other class starts one escalation, for that class and under the id that is told,
or the timers refuse. A response is told to have resolved its case just if it did, no two responses
to a case are told so, and at the end a case has resumed just if one was. -/
theorem answers_every_line {o : Options} {env : Settings.Environment} {offset : Offset}
    (hs : (settingsOf o env).run = .ok (.ok s₀.engine.settings))
    (hz : s₀.engine.settings.hours.zone = .fixed offset) (h₀ : Initial s₀.engine)
    (hclock : s₀.engine.settings.Clear offset s₀.engine.clock.now)
    (hids : (happenings.filterMap Happening.id?).Nodup)
    (htimes : ∀ h ∈ happenings, ∀ t ∈ h.times, s₀.engine.settings.Clear offset t) :
    ∃ s exchanges, s₀.serve happenings = .ok (s, exchanges) ∧
      exchanges.map Exchange.asked = happenings.filterMap Happening.line? ∧
      (∀ x ∈ exchanges, ∀ failure, x.response = .error failure → x.LeavesAll) ∧
      (∀ x ∈ exchanges, x.Handles s₀.validation x.request?) ∧
      (∀ id, exchanges.Pairwise fun x y => ¬ (x.Resumes id ∧ y.Resumes id)) ∧
      ∀ id c, s.engine.get? id = some c →
        (c.outcome? = some .resumed ↔ ∃ x ∈ exchanges, x.Resumes id) := by
  obtain ⟨hvalid, -, hcases, -⟩ := initial_cases h₀
  obtain ⟨hstart, hfinish⟩ := isWhole_of_settingsOf hs
  have he₀ : s₀.engine.Within (s₀.engine.settings.Clear offset) :=
    ⟨Settings.answersAt_clear hvalid hstart hfinish hz, hclock, by simp [hcases]⟩
  obtain ⟨⟨s, exchanges⟩, hserve⟩ := exists_serve he₀ htimes
  obtain ⟨l, hist⟩ := (History.nil s₀).serve h₀ hids hserve
  refine ⟨s, exchanges, hserve, hist.asked, hist.leavesAll, hist.handles, hist.once,
    fun id c hc => ?_⟩
  have hf := finality_of_runs h₀ (hist.starts.nodup hids) hist.runs id
  exact (hf.outcome c hc).trans (hist.resumed id).symm

def plain : Options where
  tablesDir := none
  webhookUrl := none
  webhookTemplate := none
  webhookKinds := []
  profile := ""

def standardWorker : Session := ⟨standard, .applicationValidation⟩

theorem settingsOf_plain :
    (settingsOf plain []).run = .ok (.ok standardWorker.engine.settings) := by
  have hprofile : (Settings.ofProfile [] plain.profile).run = .ok (.ok Settings.standard) :=
    ofProfile_of_unset fun _ _ _ => rfl
  exact settingsOf_of_ok hprofile

def answeredTwice : List Happening :=
  [.line ⟨1792404000, 0⟩ ⟨1⟩
      "\x7b\"op\":\"classify\",\"loan_application_count\":2,\"requirements_present\":true\x7d",
    .line ⟨1792404000, 0⟩ ⟨2⟩ " ",
    .meanwhile (.setRefusal (some "full")) rfl,
    .line ⟨1792404010, 0⟩ ⟨3⟩ "\x7b\"op\":\"start\",\"trigger_reason\":\"INVALID_BAD_DATA\"\x7d",
    .line ⟨1792405000, 0⟩ ⟨4⟩
      "[\"respond\",\"00000000-0000-0000-0000-000000000001\",null]",
    .line ⟨1792405001, 0⟩ ⟨5⟩
      "[\"respond\",\"00000000-0000-0000-0000-000000000001\",\"2026-10-19T10:20:00Z\"]"]

theorem answers_every_line_twice :
    (settingsOf plain []).run = .ok (.ok standardWorker.engine.settings) ∧
      Initial standardWorker.engine ∧ (answeredTwice.filterMap Happening.id?).Nodup ∧
      (∀ h ∈ answeredTwice, ∀ t ∈ h.times, standard.settings.Clear .utc t) ∧
      ∃ s exchanges, standardWorker.serve answeredTwice = .ok (s, exchanges) ∧
        exchanges.map Exchange.id = [⟨1⟩, ⟨3⟩, ⟨4⟩, ⟨5⟩] ∧ ∃ x ∈ exchanges, x.Resumes ⟨1⟩ := by
  have hb : standard.settings.Bounded .utc := ⟨rfl, by decide, by decide⟩
  have clear {t : Instant} (ht : t.Modern) : standard.settings.Clear .utc t :=
    hb.clear (by decide) ht
  have h₀ : Initial standardWorker.engine := initial_standard
  have hids : (answeredTwice.filterMap Happening.id?).Nodup := by decide
  have hmodern : ∀ h ∈ answeredTwice, ∀ t ∈ h.times, t.Modern := by decide +kernel
  have htimes : ∀ h ∈ answeredTwice, ∀ t ∈ h.times, standard.settings.Clear .utc t :=
    fun h hh t ht => clear (hmodern h hh t ht)
  obtain ⟨s, exchanges, hserve, hasked, -, -, -, hresumed⟩ :=
    answers_every_line settingsOf_plain rfl h₀ (clear (by decide)) hids htimes
  have hanswered : exchanges.map Exchange.id =
      (answeredTwice.filterMap Happening.line?).map fun a => a.2.1 := by
    rw [← hasked, List.map_map]
    rfl
  have hend : (standardWorker.serve answeredTwice).map
      (fun a => (a.1.engine.get? ⟨1⟩).bind Case.outcome?) = .ok (some .resumed) := by
    decide +kernel
  rw [hserve] at hend
  obtain ⟨c, hc, hout⟩ := Option.bind_eq_some_iff.1 (Except.ok.inj hend)
  exact ⟨settingsOf_plain, h₀, hids, htimes, s, exchanges, hserve,
    hanswered.trans (by decide +kernel), (hresumed ⟨1⟩ c hc).1 hout⟩

end Answers

end Worker

end Followup
