import Followup.Engine.Operations
import Followup.Worker.Request
import Followup.Json.Basic

/-! A session of the worker: one answer for each line that is not blank, in their order. A request
that is answered with an error changes nothing. -/

namespace Followup

def Case.json (c : Case) : JsonValue :=
  let time (t : Option Instant) : JsonValue := (t.map fun t => .text (Stamp.write t)).getD .null
  let text (s : Option String) : JsonValue := (s.map JsonValue.text).getD .null
  .record [("created_at", time (some c.createdAt)),
    ("diagnostic", text (c.resolution.bind Resolution.diagnostic)),
    ("elapsed_business_minutes", .whole c.elapsed.wholeMinutes),
    ("first_sent_at", time c.firstSent),
    ("id", .text c.id.write),
    ("last_sent_at", time c.lastSent),
    ("next_wake", time (c.wake.map Wake.wakeAt)),
    ("outcome", text (c.outcome?.map Outcome.name)),
    ("resolved", .truth c.isResolved),
    ("resolved_at", time (c.resolution.map Resolution.resolvedAt)),
    ("stage", .text c.stage.name),
    ("stage_history", .list (c.history.map fun s => .text s.name)),
    ("trigger_reason", .text c.reason),
    ("wake_reason", text (c.wake.map fun w => w.reason.name))]

namespace Worker

inductive Failure where
  | invalid
  | unclassified
  | engine (cause : EngineError)
deriving DecidableEq

def Failure.message : Failure → String
  | invalid => "invalid request"
  | unclassified => "no classification rule matched"
  | engine cause => cause.message

abbrev Response := Except Failure JsonValue

def responseJson : Response → JsonValue
  | .ok v => .record [("ok", .truth true), ("result", v)]
  | .error e => .record [("error", .text e.message), ("ok", .truth false)]

def successClass : String := "SUCCESS"

structure Session where
  engine : Engine
  validation : Table

namespace Session

def fail (s : Session) (e : EngineError) : Session × Response := (s, .error (.engine e))

def start (s : Session) (id : CaseId) (reason : String) (time : Instant)
    (members : List (String × JsonValue)) : Checked (Session × Response) := do
  match ← s.engine.start id reason time with
  | (e, .ok id) =>
    return ({ s with engine := e }, .ok (.record (members ++ [("instance_id", .text id.write)])))
  | (e, .error err) => return { s with engine := e }.fail err

def perform (s : Session) (now : Instant) (id : CaseId) :
    Request → Checked (Session × Response)
  | .classify count requirementsPresent at' =>
    match classify s.validation count requirementsPresent with
    | .error e => return s.fail (.rules e)
    | .ok none => return (s, .error .unclassified)
    | .ok (some name) =>
      let members := [("classification", JsonValue.text name)]
      if name = successClass then return (s, .ok (.record members))
      else s.start id name (at'.getD now) members
  | .start reason at' => s.start id reason (at'.getD now) []
  | .respond caseId at' => do
    match ← s.engine.onExternalResponse caseId (at'.getD now) with
    | (e, .ok resolved) =>
      return ({ s with engine := e }, .ok (.record
        [("instance_id", .text caseId.write), ("resolved", .truth resolved)]))
    | (e, .error err) => return { s with engine := e }.fail err
  | .status caseId =>
    match s.engine.snapshot caseId with
    | .ok c => return (s, .ok c.json)
    | .error err => return s.fail err

def isBlankLine (line : String) : Bool := line.toList.all Text.isBlank

def answer (s : Session) (now : Instant) (id : CaseId) (line : String) :
    Checked (Session × Option Response) := do
  if isBlankLine line then return (s, none)
  match Request.read? line with
  | none => return (s, some (.error .invalid))
  | some r =>
    let (s, response) ← s.perform now id r
    return (s, some response)

/-- Answers lines one after the other, each with the time at which it comes and an id that is not
in use. -/
def run (s : Session) : List (Instant × CaseId × String) → Checked (Session × List Response)
  | [] => return (s, [])
  | (now, id, line) :: lines => do
    let (s, response) ← s.answer now id line
    let (s, responses) ← s.run lines
    return (s, response.toList ++ responses)

end Session

end Worker

end Followup
