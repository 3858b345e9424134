import Followup.Rules.Table

/-! The layout that a table needs before it is evaluated, and the rules in it that can never be
reached because an earlier one has the same conditions. -/

namespace Followup

/-- A rule that an earlier rule with the same conditions and the same output makes superfluous. -/
structure Duplicate where
  rule : Nat
  of : Nat
deriving DecidableEq

namespace Table

def checkCondition (t : Table) (rule : Nat) (field : String) (p : Predicate) :
    Except Malformation Unit := do
  match p with
  | .notIn [] => throw (.emptySet rule field)
  | .greaterThan v | .lessThan v => if !v.isOrdered then throw (.unordered rule field v.type)
  | _ => pure ()
  if t.inputs.isEmpty then return
  match t.inputs.get? field with
  | none => throw (.undeclared rule field)
  | some declared =>
    match p.literals.find? fun v => v.type ≠ declared with
    | some v => throw (.wrongType rule field declared v)
    | none => return

def compareWith (index : Nat) (r : Rule) : (place : Nat) → List Rule → List Duplicate →
    List Duplicate × Except Malformation Unit
  | _, [], found => (found, .ok ())
  | place, e :: es, found =>
    if e.conditions.same r.conditions then
      if e.output.same r.output then compareWith index r (place + 1) es (found ++ [⟨index, place⟩])
      else (found, .error (.conflict place index))
    else compareWith index r (place + 1) es found

def checkRules (t : Table) : (before : List Rule) → List Rule → List Duplicate →
    List Duplicate × Except Malformation Unit
  | _, [], found => (found, .ok ())
  | before, r :: rs, found =>
    match r.conditions.entries.forM fun (field, p) => t.checkCondition before.length field p with
    | .error e => (found, .error e)
    | .ok _ =>
      match compareWith before.length r 0 before found with
      | (found, .error e) => (found, .error e)
      | (found, .ok _) => checkRules t (before ++ [r]) rs found

/-- The duplicates found up to the first thing that is wrong, and that thing. -/
def inspect (t : Table) : List Duplicate × Except Malformation Unit :=
  if t.rules.isEmpty then ([], .error .noRules)
  else match t.catchAll? with
    | some place =>
      if place ≠ t.rules.length - 1 then ([], .error (.catchAllNotLast place))
      else t.checkRules [] t.rules []
    | none => t.checkRules [] t.rules []

def duplicates (t : Table) : List Duplicate := t.inspect.1

def validate (t : Table) : Except RuleError Unit :=
  match t.inspect.2 with
  | .ok _ => .ok ()
  | .error e => .error (.malformed t.id e)

end Table

end Followup
