import Followup.Rules.Builtin
import Followup.Rules.Evaluation

/-! Decisions read off a table: what to do with a stage, and how an intake is classified. -/

namespace Followup

structure Decision where
  action : Action
  kind : Option NoticeKind
  /-- The place of the rule that decided, unless it was the one that holds for all facts. -/
  rule : Option Nat
deriving DecidableEq

namespace Decision

/-- The facts of a stage. A response ends an escalation before any stage is looked at, so none has
been received. -/
def facts (reason : String) (stage : Stage) (inHours : Bool) : Facts :=
  .ofList [(Field.triggerReason, .text reason), (Field.stage, .text stage.name),
    (Field.isBusinessHours, .bool inHours), (Field.responseReceived, .bool false)]

def textIn (output : Columns Fact) (column : String) : Except Malformation String :=
  match (output.get? column).bind Fact.text? with
  | some text => .ok text
  | none => .error (.noText column)

def kindIn (output : Columns Fact) : Except Malformation (Option NoticeKind) :=
  match output.get? Field.notificationKind with
  | none => .ok none
  | some (.text name) =>
    match NoticeKind.ofName name with
    | .ok kind => .ok (some kind)
    | .error e => .error (.unknownName e)
  | some value => .error (.notText Field.notificationKind value)

def ofOutput (rule : Option Nat) (output : Columns Fact) : Except Malformation Decision := do
  let action ← match Action.ofName (← textIn output Field.action) with
    | .ok action => pure action
    | .error e => throw (.unknownName e)
  let kind ← kindIn output
  if !action.isTerminal && kind.isNone then throw (.kindMissing action Field.notificationKind)
  return ⟨action, kind, rule⟩

def decide (t : Table) (facts : Facts) : Except RuleError (Option Decision) := do
  let read (rule : Option Nat) (output : Columns Fact) : Except RuleError (Option Decision) :=
    match ofOutput rule output with
    | .ok d => .ok (some d)
    | .error e => .error (.malformed t.id e)
  match ← t.evaluate facts with
  | .matched index output => read (some index) output
  | .catchAll output => read none output
  | .noMatch => return none

end Decision

def classify (t : Table) (count : Int) (requirementsPresent : Bool) :
    Except RuleError (Option String) := do
  let facts : Facts := .ofList [(Field.loanApplicationCount, .int count),
    (Field.requirementsPresent, .bool requirementsPresent)]
  match (← t.evaluate facts).output? with
  | none => return none
  | some output =>
    match Decision.textIn output Field.classification with
    | .ok name => return some name
    | .error e => throw (.malformed t.id e)

end Followup
