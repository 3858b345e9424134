import Followup.Json.Basic
import Followup.Notice.Address
import Followup.Notice.Dispatcher
import Followup.Notice.Reference
import Followup.Notice.Status
import Followup.Notice.Wording

/-! Notices as HTTP requests. What is asked for depends on the notice alone, and what became of it
on the answer alone, so the network stays outside. -/

namespace Followup

open Text

structure Webhook where
  url : String
  method : String
  headers : List (String × String)
  bodyTemplate : Option String

structure WebRequest where
  method : String
  address : Address
  headers : List (String × String)
  body : String
deriving DecidableEq

inductive Reply where
  | refused
  | status (code : Nat) (body : Option String)
deriving DecidableEq

namespace Webhook

def isTokenChar (c : Char) : Bool := c.isAlphanum || "!#$%&'*+-.^_\x60|~".toList.contains c

def isToken (s : String) : Bool := !s.isEmpty && s.toList.all isTokenChar

def isHeaderValue (s : String) : Bool :=
  s.toList.all fun c => c = '\t' || (32 ≤ c.toNat && c.toNat ≠ 127)

def resolveHeaders (env : String → Option String) :
    List (String × String) → Except NoticeError (List (String × String))
  | [] => .ok []
  | (name, value) :: rest => do
    let value ← Reference.resolve env value
    return (name, value) :: (← resolveHeaders env rest)

def readMethod (text : String) : Except NoticeError String :=
  if isToken (uppered text) then .ok (uppered text)
  else .error (.config s!"invalid HTTP method: {text}")

/-- Sets up a webhook: the method is checked first, then the references are replaced in the address
and in the headers, and last the template is checked. -/
def create (env : String → Option String) (url : String) (method : Option String)
    (headers : List (String × String)) (bodyTemplate : Option String) :
    Except NoticeError Webhook := do
  let method ← readMethod (method.getD "POST")
  let url ← Reference.resolve env url
  let headers ← resolveHeaders env headers
  if (bodyTemplate.map Template.read?) matches some none then
    throw (.config ("invalid body template: " ++ NoticeError.template.message))
  return { url, method, headers, bodyTemplate }

def context (n : Notice) : List (String × Template.Value) :=
  [("subject", .text n.subject), ("body", .text n.body),
    ("metadata", .record (n.metadata.map fun (k, v) => (k, .text v)))]

def noticeJson (n : Notice) : JsonValue :=
  .record [("subject", .text n.subject), ("body", .text n.body),
    ("metadata", .record (n.metadata.map fun (k, v) => (k, .text v)))]

def body (w : Webhook) (n : Notice) : Except NoticeError (String × String) :=
  match w.bodyTemplate with
  | some text => (Template.renderText text (context n)).map (·, "text/plain")
  | none => .ok ((noticeJson n).write, "application/json")

def request (w : Webhook) (n : Notice) : Except NoticeError WebRequest := do
  let (body, contentType) ← w.body n
  if w.headers.any fun (name, value) => !isToken name || !isHeaderValue value then throw .http
  match Address.read? w.url with
  | none => throw .http
  | some address =>
    return {
      method := w.method, address, body
      headers := ("content-type", contentType) ::
        w.headers.map fun (name, value) => (name.toLower, value) }

def replyText (method : String) (code : Nat) (body : Option String) : String :=
  if method = "HEAD" ∨ ¬ Status.hasBody code then "" else body.getD "<unreadable body>"

def judge (r : WebRequest) : Reply → Except NoticeError Unit
  | .refused => .error .http
  | .status code body =>
    if Status.isSuccess code then .ok ()
    else .error (.config
      s!"webhook returned {Status.write code}: {replyText r.method code body}")

def channel (w : Webhook) (network : WebRequest → Reply) : Channel where
  name := "webhook"
  keeps := false
  send n := do
    let r ← w.request n
    judge r (network r)

end Webhook

end Followup
