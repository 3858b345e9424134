import Followup.Calendar.Stamp
import Followup.CaseId
import Followup.Json.Reader

/-! What the worker is asked for, one JSON value a line: a record whose member `op` names the kind
of request, or a list that begins with that name and has a value for each field. -/

namespace Followup.Worker

inductive Request where
  | classify (count : Int) (requirementsPresent : Bool) (at' : Option Instant)
  | start (reason : String) (at' : Option Instant)
  | respond (id : CaseId) (at' : Option Instant)
  | status (id : CaseId)
deriving DecidableEq

namespace Request

open JsonValue

def text? : JsonValue → Option String
  | text s => some s
  | _ => none

def whole? : JsonValue → Option Int
  | whole n => some n
  | _ => none

def truth? : JsonValue → Option Bool
  | truth b => some b
  | _ => none

def id? (v : JsonValue) : Option CaseId := (text? v).bind CaseId.read?

def time? : Option JsonValue → Option (Option Instant)
  | none | some null => some none
  | some v => ((text? v).bind Stamp.read?).map some

def fields? : String → Option (List String)
  | "classify" => some ["loan_application_count", "requirements_present", "at"]
  | "start" => some ["trigger_reason", "at"]
  | "respond" => some ["instance_id", "at"]
  | "status" => some ["instance_id"]
  | _ => none

def ofMembers? (kind : String) (members : List (String × JsonValue)) : Option Request := do
  let fields ← fields? kind
  if fields.any fun f => 1 < members.countP fun (k, _) => k == f then none
  let get (f : String) : Option JsonValue := members.lookup f
  match kind with
  | "classify" =>
    return classify (← whole? (← get "loan_application_count"))
      (← truth? (← get "requirements_present")) (← time? (get "at"))
  | "start" => return start (← text? (← get "trigger_reason")) (← time? (get "at"))
  | "respond" => return respond (← id? (← get "instance_id")) (← time? (get "at"))
  | _ => return status (← id? (← get "instance_id"))

def ofJson? : JsonValue → Option Request
  | record members => do
    match members.partition fun (k, _) => k == "op" with
    | ([(_, op)], rest) => ofMembers? (← text? op) rest
    | _ => none
  | list (op :: values) => do
    let kind ← text? op
    let fields ← fields? kind
    if fields.length = values.length then ofMembers? kind (fields.zip values) else none
  | _ => none

def read? (line : String) : Option Request := (JsonValue.read? line).bind ofJson?

end Request

end Followup.Worker
