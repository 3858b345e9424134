import Followup.Proofs.Engine.Bystander
import Followup.Proofs.Engine.Resolution
import Followup.Proofs.Engine.Retry
import Followup.Worker.Session

/-! What the worker does with one line. It either knows the response itself, and then nothing
changes, or asks its engine for one operation and tells the reply. -/

namespace Followup

def Engine.Reply.json (members : List (String × JsonValue)) : Engine.Reply → JsonValue
  | .started id => .record (members ++ [("instance_id", .text id.write)])
  | .responded first => .record (members ++ [("resolved", .truth first)])
  | .seen c => c.json
  | .done | .evaluated _ | .removed _ | .purged _ => .record members

namespace Worker

open Engine

variable {s s' : Session} {now : Instant} {id : CaseId} {line : String} {validation : Table}
  {op : Operation} {members : List (String × JsonValue)} {reply : Except EngineError Engine.Reply}
  {response : Response} {f : Failure}

/-- The lines that the worker answers on its own. -/
inductive Settled (validation : Table) (line : String) : Response → Prop
  | invalid (hread : Request.read? line = none) : Settled validation line (.error .invalid)
  | malformed {count : Int} {present : Bool} {at' : Option Instant} {e : RuleError}
    (hread : Request.read? line = some (.classify count present at'))
    (h : classify validation count present = .error e) :
    Settled validation line (.error (.engine (.rules e)))
  | unclassified {count : Int} {present : Bool} {at' : Option Instant}
    (hread : Request.read? line = some (.classify count present at'))
    (h : classify validation count present = .ok none) :
    Settled validation line (.error .unclassified)
  | passed {count : Int} {present : Bool} {at' : Option Instant}
    (hread : Request.read? line = some (.classify count present at'))
    (h : classify validation count present = .ok (some successClass)) :
    Settled validation line (.ok (.record [("classification", .text successClass)]))

inductive Asks (validation : Table) (now : Instant) (id : CaseId) (line : String) :
    Operation → List (String × JsonValue) → Prop
  | classified {count : Int} {present : Bool} {at' : Option Instant} {name : String}
    (hread : Request.read? line = some (.classify count present at'))
    (h : classify validation count present = .ok (some name)) (hne : name ≠ successClass) :
    Asks validation now id line (.start id name (at'.getD now)) [("classification", .text name)]
  | start {reason : String} {at' : Option Instant}
    (hread : Request.read? line = some (.start reason at')) :
    Asks validation now id line (.start id reason (at'.getD now)) []
  | respond {caseId : CaseId} {at' : Option Instant}
    (hread : Request.read? line = some (.respond caseId at')) :
    Asks validation now id line (.respond caseId (at'.getD now))
      [("instance_id", .text caseId.write)]
  | status {caseId : CaseId} (hread : Request.read? line = some (.status caseId)) :
    Asks validation now id line (.snapshot caseId) []

def tell (members : List (String × JsonValue)) : Except EngineError Engine.Reply → Response
  | .ok reply => .ok (reply.json members)
  | .error err => .error (.engine err)

inductive Answered (s : Session) (now : Instant) (id : CaseId) (line : String) :
    Response → Session → Prop
  | settled {response : Response} (h : Settled s.validation line response) :
    Answered s now id line response s
  | performed {op : Operation} {members : List (String × JsonValue)} {e : Engine}
    {reply : Except EngineError Engine.Reply} (h : Asks s.validation now id line op members)
    (hp : s.engine.perform op = .ok (e, reply)) :
    Answered s now id line (tell members reply) { s with engine := e }

theorem answer_blank (hblank : Session.isBlankLine line = true) :
    s.answer now id line = .ok (s, none) := by
  rw [Session.answer, if_pos hblank]
  rfl

theorem start_eq (s : Session) (id : CaseId) (reason : String) (time : Instant)
    (members : List (String × JsonValue)) :
    s.start id reason time members = (s.engine.perform (.start id reason time)).map
      fun a => ({ s with engine := a.1 }, tell members a.2) := by
  rw [Session.start, perform]
  cases s.engine.start id reason time with
  | error fault => rfl
  | ok a =>
    obtain ⟨e, err | id⟩ := a
    · rfl
    · rfl

theorem perform_eq (s : Session) (now : Instant) (id : CaseId) {r : Request}
    (hread : Request.read? line = some r) :
    (∃ response, Settled s.validation line response ∧ s.perform now id r = .ok (s, response)) ∨
      ∃ op members, Asks s.validation now id line op members ∧
        s.perform now id r = (s.engine.perform op).map
          fun a => ({ s with engine := a.1 }, tell members a.2) := by
  cases r with
  | classify count present at' =>
    simp only [Session.perform]
    cases hclass : classify s.validation count present with
    | error e => exact .inl ⟨_, .malformed hread hclass, rfl⟩
    | ok name? =>
      cases name? with
      | none => exact .inl ⟨_, .unclassified hread hclass, rfl⟩
      | some name =>
        dsimp only
        split
        · next hname =>
          subst hname
          exact .inl ⟨_, .passed hread hclass, rfl⟩
        · next hname =>
          exact .inr ⟨_, _, .classified hread hclass hname, start_eq s id name _ _⟩
  | start reason at' => exact .inr ⟨_, _, .start hread, start_eq s id reason _ _⟩
  | respond caseId at' =>
    refine .inr ⟨_, _, .respond hread, ?_⟩
    rw [Session.perform, Engine.perform]
    cases s.engine.onExternalResponse caseId (at'.getD now) with
    | error fault => rfl
    | ok a =>
      obtain ⟨e, err | first⟩ := a
      · rfl
      · rfl
  | status caseId =>
    refine .inr ⟨_, _, .status hread, ?_⟩
    rw [Session.perform, Engine.perform]
    cases s.engine.snapshot caseId with
    | error err => rfl
    | ok c => rfl

theorem answer_eq (s : Session) (now : Instant) (id : CaseId)
    (hline : Session.isBlankLine line = false) :
    (∃ response, Settled s.validation line response ∧
        s.answer now id line = .ok (s, some response)) ∨
      ∃ op members, Asks s.validation now id line op members ∧
        s.answer now id line = (s.engine.perform op).map
          fun a => ({ s with engine := a.1 }, some (tell members a.2)) := by
  rw [Session.answer, if_neg (by simp [hline])]
  cases hread : Request.read? line with
  | none => exact .inl ⟨_, .invalid hread, rfl⟩
  | some r =>
    dsimp only
    rcases perform_eq s now id hread with
      ⟨response, hsettled, h⟩ | ⟨op, members, hasks, h⟩
    · exact .inl ⟨response, hsettled, by rw [h]; rfl⟩
    · refine .inr ⟨op, members, hasks, ?_⟩
      rw [h]
      cases s.engine.perform op with
      | error fault => rfl
      | ok a => rfl

theorem answered_of_answer (hline : Session.isBlankLine line = false) {response? : Option Response}
    (h : s.answer now id line = .ok (s', response?)) :
    ∃ response, response? = some response ∧ Answered s now id line response s' := by
  rcases answer_eq s now id hline with
    ⟨response, hsettled, heq⟩ | ⟨op, members, hasks, heq⟩
  · cases heq.symm.trans h
    exact ⟨response, rfl, .settled hsettled⟩
  · obtain ⟨⟨e, reply⟩, hp, ha⟩ := map_eq_ok.1 (heq.symm.trans h)
    cases ha
    exact ⟨_, rfl, .performed hasks hp⟩

structure Exchange where
  before : Session
  now : Instant
  id : CaseId
  line : String
  response : Response
  after : Session

namespace Exchange

def request? (x : Exchange) : Option Request := Request.read? x.line

/-- No case, no timer and no command is any different, though numbers may be used up. -/
def LeavesAll (x : Exchange) : Prop :=
  ∃ n, x.before.engine.lastSeq ≤ n ∧
    x.after = { x.before with engine := { x.before.engine with lastSeq := n } }

/-- There is one case more, for the reason given, under the id that came with the line. Nothing was
known of that id before, and nothing changes for any other. -/
structure Admits (x : Exchange) (reason : String) : Prop where
  vacant : x.before.engine.file x.id = .empty
  admitted : ∃ c : Case, c.id = x.id ∧ c.reason = reason ∧
    x.after.engine.cases = x.before.engine.cases ++ [c]
  others : ∀ id, id ≠ x.id → Untouched id x.before.engine x.after.engine

def Resolves (x : Exchange) (id : CaseId) : Prop :=
  ¬ x.before.engine.Resolved id ∧ x.after.engine.Resolved id

def Resumes (x : Exchange) (id : CaseId) : Prop :=
  (∃ at', x.request? = some (.respond id at')) ∧
    x.response = .ok (.record [("instance_id", .text id.write), ("resolved", .truth true)])

def Starts (x : Exchange) (reason : String) (members : List (String × JsonValue)) : Prop :=
  (∃ refusal, x.before.engine.timers.refusal = some refusal ∧
    x.response = .error (.engine (.schedulingUnavailable refusal))) ∨
  x.response = .ok (.record (members ++ [("instance_id", .text x.id.write)])) ∧ x.Admits reason

def Classifies (x : Exchange) : Except RuleError (Option String) → Prop
  | .error e => x.response = .error (.engine (.rules e))
  | .ok none => x.response = .error .unclassified
  | .ok (some name) =>
    let members := [("classification", JsonValue.text name)]
    if name = successClass then x.response = .ok (.record members) ∧ x.after = x.before
    else x.Starts name members

def Tells (x : Exchange) (id : CaseId) (told : Case → JsonValue) : Prop :=
  x.response = match x.before.engine.get? id with
    | none => .error (.engine (.unknownCase id))
    | some c => .ok (told c)

structure Responds (x : Exchange) (id : CaseId) : Prop where
  told : x.Tells id fun c =>
    .record [("instance_id", .text id.write), ("resolved", .truth !c.isResolved)]
  resumes : x.Resumes id ↔ x.Resolves id
  outcome : x.Resolves id → ∃ c, x.after.engine.get? id = some c ∧ c.outcome? = some .resumed

/-- What becomes of a line, by what it asks for. -/
def Handles (x : Exchange) (validation : Table) : Option Request → Prop
  | none => x.response = .error .invalid
  | some (.classify count present _) => x.Classifies (classify validation count present)
  | some (.start reason _) => x.Starts reason []
  | some (.respond id _) => x.Responds id
  | some (.status id) => x.Tells id Case.json ∧ x.after = x.before

end Exchange

open Exchange

variable {e : Engine} {ids : List CaseId} {time : Instant} {reason : String}

theorem leavesAll_of_answered (h : Answered s now id line response s')
    (hr : response = .error f) : LeavesAll ⟨s, now, id, line, response, s'⟩ := by
  cases h with
  | settled => exact ⟨s.engine.lastSeq, Nat.le_refl _, rfl⟩
  | @performed op members e reply h hp =>
    cases reply with
    | error err =>
      obtain ⟨n, hn, rfl⟩ := perform_error hp
      exact ⟨n, hn, rfl⟩
    | ok reply => cases hr

theorem starts_of_perform (hreg : Registry ids s.engine) (hid : id ∉ ids)
    (hp : s.engine.perform (.start id reason time) = .ok (e, reply))
    (members : List (String × JsonValue)) :
    Starts ⟨s, now, id, line, tell members reply, { s with engine := e }⟩ reason members := by
  obtain ⟨a, ha, h⟩ := bind_eq_ok.1 hp
  cases h
  obtain ⟨⟨e₁, r₁⟩, htr, h⟩ := bind_eq_ok.1 ha
  rcases transition_cases rfl htr with ⟨refusal, rfl, rfl⟩ | ⟨c, rfl, hm⟩
  · cases h
    obtain ⟨refusal', hrefusal, heq⟩ := refusal_of_transition rfl htr
    cases heq
    exact .inl ⟨refusal, hrefusal, rfl⟩
  · cases h
    refine .inr ⟨rfl, hreg.file_eq_empty hid, ⟨c, hm.id_eq, hm.reason_eq, ?_⟩, fun other hne => ?_⟩
    · exact congrArg (· ++ [c]) hm.cases_eq
    · exact untouched_of_start hreg.listening ha hne

theorem Settled.not_resumes (h : Settled validation line response) (i : CaseId) :
    ¬ Resumes ⟨s, now, id, line, response, s'⟩ i := by
  rintro ⟨⟨at', hread'⟩, -⟩
  cases h with
  | invalid hread | malformed hread | unclassified hread | passed hread =>
    cases hread.symm.trans hread'

theorem resumes_iff (h : Asks s.validation now id line op members)
    (hp : s.engine.perform op = .ok (e, reply)) (i : CaseId) :
    Resumes ⟨s, now, id, line, tell members reply, { s with engine := e }⟩ i ↔
      Step.Resumes ⟨s.engine, op, reply, e⟩ i := by
  cases h with
  | classified hread | start hread | status hread =>
    exact iff_of_false (fun ⟨⟨_, hread'⟩, _⟩ => nomatch hread.symm.trans hread')
      fun ⟨⟨_, hop⟩, _⟩ => nomatch hop
  | @respond caseId at' hread =>
    have hreply := reply_of_respond hp
    constructor
    · -- A reply other than that the case was open is told differently.
      rintro ⟨⟨at'', hread'⟩, hr⟩
      cases hread.symm.trans hread'
      refine ⟨⟨_, rfl⟩, ?_⟩
      cases hsnap : s.engine.snapshot i with
      | error err =>
        rw [hreply, hsnap] at hr
        cases hr
      | ok c =>
        cases hres : c.isResolved with
        | false =>
          rw [hreply, hsnap]
          exact congrArg (fun b => Except.ok (Reply.responded !b)) hres
        | true => simp [hreply, hsnap, hres, tell, Except.map, Reply.json] at hr
    · rintro ⟨⟨now', hop⟩, hr⟩
      cases hop
      cases hr
      exact ⟨⟨_, hread⟩, rfl⟩

theorem responds_of_perform (hreg : Registry ids s.engine) {caseId : CaseId} {at' : Option Instant}
    (hread : Request.read? line = some (.respond caseId at'))
    (hp : s.engine.perform (.respond caseId (at'.getD now)) = .ok (e, reply)) :
    Responds ⟨s, now, id, line, tell [("instance_id", .text caseId.write)] reply,
      { s with engine := e }⟩ caseId := by
  have hnew : ∀ i ∈ (Operation.respond caseId (at'.getD now)).started?, i ∉ ids := by
    rintro i ⟨⟩
  have hrev := (performed_of_perform hreg.nodup hp).revised hreg hnew caseId
  have hasks : Asks s.validation now id line (.respond caseId (at'.getD now)) _ := .respond hread
  have hiff := resumes_iff hasks hp caseId
  refine ⟨?_, ⟨fun h => (hrev.resumes_iff.1 (hiff.1 h)).1, fun h => hiff.2 (hrev.resumes rfl h)⟩,
    fun h => (hrev.resumes_iff.1 (hrev.resumes rfl h)).2⟩
  rw [Tells, reply_of_respond hp, snapshot]
  dsimp only
  cases s.engine.get? caseId with
  | none => rfl
  | some c => rfl

theorem handles_of_answered (hreg : Registry ids s.engine) (hid : id ∉ ids)
    (h : Answered s now id line response s') :
    Handles ⟨s, now, id, line, response, s'⟩ s.validation (Request.read? line) := by
  cases h with
  | settled h =>
    cases h with
    | invalid hread =>
      rw [hread]
      rfl
    | malformed hread hclass | unclassified hread hclass =>
      rw [hread, Handles, hclass]
      rfl
    | passed hread hclass =>
      rw [hread, Handles, hclass, Classifies, if_pos rfl]
      exact ⟨rfl, rfl⟩
  | performed h hp =>
    cases h with
    | classified hread hclass hne =>
      rw [hread, Handles, hclass, Classifies, if_neg hne]
      exact starts_of_perform hreg hid hp _
    | start hread =>
      rw [hread]
      exact starts_of_perform hreg hid hp []
    | respond hread =>
      rw [hread]
      exact responds_of_perform hreg hread hp
    | @status caseId hread =>
      rw [hread]
      cases hp
      refine ⟨?_, rfl⟩
      rw [Tells, snapshot]
      dsimp only
      cases s.engine.get? caseId with
      | none => rfl
      | some c => rfl

end Worker

end Followup
