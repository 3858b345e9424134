import Followup.Rules.Check

/-! Evaluation of a table: the first rule that holds decides. -/

namespace Followup

inductive Evaluation where
  | matched (index : Nat) (output : Columns Fact)
  | catchAll (output : Columns Fact)
  | noMatch

def Evaluation.output? : Evaluation → Option (Columns Fact)
  | matched _ output | catchAll output => some output
  | noMatch => none

namespace Table

def firstHit (facts : Facts) : (index : Nat) → List Rule → Option (Nat × Rule)
  | _, [] => none
  | index, r :: rs => if r.holds facts then some (index, r) else firstHit facts (index + 1) rs

def evaluate (t : Table) (facts : Facts) : Except RuleError Evaluation := do
  t.validate
  match firstHit facts 0 t.rules with
  | some (index, r) =>
    return if r.isCatchAll then .catchAll r.output else .matched index r.output
  | none => return .noMatch

end Table

end Followup
