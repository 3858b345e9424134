import Followup.Notice.Basic
import Followup.Template.Render
import Followup.Template.Tree.Reader

/-! The wording of notices: a subject and a body for each kind, written as templates that see the
escalation and the time. -/

namespace Followup

def Template.renderText (text : String) (context : List (String × Value)) :
    Except NoticeError String :=
  match (Template.read? text).bind (Template.render? · context) with
  | some s => .ok s
  | none => .error .template

structure Wording where
  subject : String
  body : String
deriving DecidableEq

structure Occasion where
  caseId : String
  reason : String
  stage : String
  kind : String
  action : String
  now : String
deriving DecidableEq

namespace Wording

def initialAlert : Wording where
  subject := "Action needed: intake \x7b\x7b escalation.instance_id \x7d\x7d " ++
    "(\x7b\x7b escalation.trigger_reason | humanize \x7d\x7d)"
  body := "Your loan intake could not be processed " ++
    "(\x7b\x7b escalation.trigger_reason | humanize \x7d\x7d). " ++
    "Please reply to this message with the corrected documents."

def followUp1 : Wording where
  subject := "Reminder: intake \x7b\x7b escalation.instance_id \x7d\x7d is waiting for your reply"
  body := "We are still waiting for your reply about " ++
    "\x7b\x7b escalation.trigger_reason | humanize \x7d\x7d."

def followUp2 : Wording where
  subject := "Second reminder: intake \x7b\x7b escalation.instance_id \x7d\x7d"
  body := "This intake will be closed if we do not hear back. " ++
    "Reason: \x7b\x7b escalation.trigger_reason | humanize \x7d\x7d."

def closingMessage : Wording where
  subject := "Closed: intake \x7b\x7b escalation.instance_id \x7d\x7d"
  body := "No reply was received before the deadline, so this intake has been closed."

def general : Wording where
  subject := "Intake \x7b\x7b escalation.instance_id \x7d\x7d: " ++
    "\x7b\x7b escalation.notification_kind | humanize \x7d\x7d"
  body := "Stage \x7b\x7b escalation.stage | humanize \x7d\x7d, " ++
    "reason \x7b\x7b escalation.trigger_reason | humanize \x7d\x7d."

def ofKind (kind : String) : Wording :=
  match kind with
  | "INITIAL_ALERT" => initialAlert
  | "FOLLOW_UP_1" => followUp1
  | "FOLLOW_UP_2" => followUp2
  | "CLOSING_MESSAGE" => closingMessage
  | _ => general

end Wording

namespace Occasion

open Template

def context (o : Occasion) : List (String × Value) :=
  [("escalation", .record [
      ("instance_id", .text o.caseId), ("trigger_reason", .text o.reason),
      ("stage", .text o.stage), ("notification_kind", .text o.kind),
      ("action", .text o.action)]),
    ("now", .text o.now)]

def metadata (o : Occasion) : List (String × String) :=
  [("instance_id", o.caseId), ("trigger_reason", o.reason), ("stage", o.stage),
    ("notification_kind", o.kind), ("action", o.action), ("sent_at", o.now)]

def compose (o : Occasion) : Except NoticeError Notice := do
  let wording := Wording.ofKind o.kind
  return {
    subject := ← renderText wording.subject o.context
    body := ← renderText wording.body o.context
    metadata := o.metadata }

end Occasion

end Followup
