import Followup.Rules.Columns
import Followup.Rules.Predicate
import Followup.Stage

/-! Decision tables: rules in an order that counts. A rule holds for the facts that satisfy all of
its conditions, and puts out a record. -/

namespace Followup

abbrev Facts := Columns Fact

structure Rule where
  description : Option String
  conditions : Columns Predicate
  output : Columns Fact

namespace Rule

def isCatchAll (r : Rule) : Bool := r.conditions.entries.all fun (_, p) => p.isAny

def holds (r : Rule) (facts : Facts) : Bool :=
  r.conditions.entries.all fun (field, p) => p.test (facts.get? field)

end Rule

structure Table where
  apiVersion : String
  kind : String
  id : String
  name : String
  description : Option String
  /-- The fields that conditions may mention, with their types; if none is declared, all may. -/
  inputs : Columns FactType
  rules : List Rule

def Table.catchAll? (t : Table) : Option Nat := t.rules.findIdx? Rule.isCatchAll

/-- What is wrong with the rules of a table, or with what they put out. -/
inductive Malformation where
  | noRules
  | catchAllNotLast (place : Nat)
  | conflict (earlier later : Nat)
  | emptySet (rule : Nat) (field : String)
  | unordered (rule : Nat) (field : String) (type : FactType)
  | undeclared (rule : Nat) (field : String)
  | wrongType (rule : Nat) (field : String) (declared : FactType) (literal : Fact)
  | noText (column : String)
  | notText (column : String) (value : Fact)
  | unknownName (cause : UnknownName)
  | kindMissing (action : Action) (column : String)
deriving DecidableEq

namespace Malformation

def reason : Malformation → String
  | noRules => "table has no rules"
  | catchAllNotLast place => s!"catch-all rule at position {place} must be the last rule"
  | conflict earlier later =>
    s!"rules {earlier} and {later} have identical conditions but different outputs"
  | emptySet rule field => s!"rule {rule}: \x60not_equals\x60 on '{field}' has an empty set"
  | unordered rule field type =>
    s!"rule {rule}: ordering comparison on '{field}' needs an integer or timestamp, " ++
      s!"got {type.name}"
  | undeclared rule field => s!"rule {rule}: '{field}' is not a declared input"
  | wrongType rule field declared literal =>
    s!"rule {rule}: '{field}' is declared {declared.name} but compared with " ++
      s!"{literal.type.name} literal '{literal.write}'"
  | noText column => s!"output has no string '{column}' column"
  | notText column value => s!"'{column}' must be a string, got {value.write}"
  | unknownName cause => cause.message
  | kindMissing action column => s!"{action.name} requires a '{column}' column"

end Malformation

inductive RuleError where
  | io
  | unreadable
  | operators (count : Nat)
  | wrongKind (kind : String)
  | emptyId
  | notLoaded (id : String)
  | malformed (table : String) (cause : Malformation)
deriving DecidableEq

namespace RuleError

def tableKind : String := "DecisionTable"

def operatorsMessage (count : Nat) : String :=
  if count = 0 then
    "predicate condition must set one of equals, not_equals, greater_than, less_than"
  else s!"predicate condition sets {count} operators; use exactly one"

def message : RuleError → String
  | io => "IO error"
  | unreadable | operators _ => "YAML parse error"
  | wrongKind kind =>
    s!"Validation error: unsupported kind '{kind}', expected '{tableKind}'"
  | emptyId => "Validation error: table metadata.id must not be empty"
  | notLoaded id => s!"Validation error: decision table '{id}' is not loaded"
  | malformed table cause => s!"malformed table '{table}': {cause.reason}"

end RuleError

end Followup
