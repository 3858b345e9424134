import Followup.Rules.Table

/-! The two tables that are always there: what to do at each stage of an escalation, and how an
intake is classified. -/

namespace Followup

namespace Field

def triggerReason : String := "triggerReason"
def stage : String := "stage"
def isBusinessHours : String := "isBusinessHours"
def responseReceived : String := "responseReceived"
def action : String := "action"
def notificationKind : String := "notificationKind"
def loanApplicationCount : String := "loanApplicationCount"
def requirementsPresent : String := "requirementsPresent"
def classification : String := "classification"

end Field

namespace Table

def escalatingReasons : List String :=
  ["INVALID_NO_APPLICATION", "INVALID_BAD_DATA", "MULTI_APPLICATION", "UNREADABLE_DOCUMENT"]

def sends (action : Action) (kind : Option NoticeKind) : Columns Fact :=
  .ofList <| (Field.action, .text action.name) ::
    (kind.map fun k => (Field.notificationKind, Fact.text k.name)).toList

def stageRule (stage : Stage) (inHours : Bool) (action : Action) (kind : NoticeKind) : Rule where
  description := none
  conditions := .ofList
    [(Field.stage, .equals (.text stage.name)), (Field.isBusinessHours, .equals (.bool inHours))]
  output := sends action (some kind)

def notificationAction : Table where
  apiVersion := "v1"
  kind := RuleError.tableKind
  id := "notification-action"
  name := "Escalation notification action"
  description := some <|
    "Picks what to do at each escalation stage of an intake case that is waiting on a human " ++
    "answer. Sends happen immediately inside business hours and are deferred to the next window " ++
    "otherwise.\n"
  inputs := .ofList [(Field.triggerReason, .string), (Field.stage, .string),
    (Field.isBusinessHours, .boolean), (Field.responseReceived, .boolean)]
  rules := [
    { description := some "Not an escalation reason; close without notifying anyone."
      conditions := .ofList [(Field.triggerReason, .notIn (escalatingReasons.map .text))]
      output := sends .closeWorkflow none },
    { description := some "Final deadline reached without a response."
      conditions := .ofList [(Field.stage, .equals (.text Stage.deadline.name)),
        (Field.responseReceived, .equals (.bool false))]
      output := sends .closeWorkflow (some .closingMessage) },
    stageRule .initial true .sendNow .initialAlert,
    stageRule .initial false .scheduleNextWindow .initialAlert,
    stageRule .followUp1 true .sendNow .followUp1,
    stageRule .followUp1 false .scheduleNextWindow .followUp1,
    stageRule .followUp2 true .sendNow .followUp2,
    stageRule .followUp2 false .scheduleNextWindow .followUp2,
    { description := some "Anything unexpected closes the case with a closing message."
      conditions := .ofList [(Field.stage, .any)]
      output := sends .closeWorkflow (some .closingMessage) }]

def classifies (name : String) : Columns Fact := .ofList [(Field.classification, .text name)]

def applicationValidation : Table where
  apiVersion := "v1"
  kind := RuleError.tableKind
  id := "application-validation"
  name := "Loan application validation"
  description := some <|
    "Classifies an inbound intake email by how many loan applications it carries and whether the " ++
    "required documents are present. Anything other than SUCCESS starts an escalation.\n"
  inputs := .ofList [(Field.loanApplicationCount, .integer), (Field.requirementsPresent, .boolean)]
  rules := [
    { description := none
      conditions := .ofList [(Field.loanApplicationCount, .equals (.int 1)),
        (Field.requirementsPresent, .equals (.bool true))]
      output := classifies "SUCCESS" },
    { description := none
      conditions := .ofList [(Field.loanApplicationCount, .equals (.int 0))]
      output := classifies "INVALID_NO_APPLICATION" },
    { description := none
      conditions := .ofList [(Field.loanApplicationCount, .greaterThan (.int 1))]
      output := classifies "MULTI_APPLICATION" },
    { description := none
      conditions := .ofList [(Field.loanApplicationCount, .equals (.int 1)),
        (Field.requirementsPresent, .equals (.bool false))]
      output := classifies "INVALID_BAD_DATA" },
    { description := some "Negative counts and missing inputs are bad data."
      conditions := .empty
      output := classifies "INVALID_BAD_DATA" }]

def builtin : List Table := [applicationValidation, notificationAction]

end Table

end Followup
