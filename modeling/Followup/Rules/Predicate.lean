import Followup.Rules.Fact

/-! Predicates on a single fact. A fact that is missing satisfies the wildcard only. -/

namespace Followup

inductive Predicate where
  | any
  | equals (value : Fact)
  | notIn (values : List Fact)
  | greaterThan (value : Fact)
  | lessThan (value : Fact)
deriving DecidableEq

namespace Predicate

def isAny : Predicate → Bool
  | any => true
  | _ => false

def test : Predicate → Option Fact → Bool
  | any, _ => true
  | _, none => false
  | equals v, some f => f == v
  | notIn vs, some f => !vs.contains f
  | greaterThan v, some f => f.compare? v == some .gt
  | lessThan v, some f => f.compare? v == some .lt

def literals : Predicate → List Fact
  | any => []
  | equals v | greaterThan v | lessThan v => [v]
  | notIn vs => vs

theorem test_none (p : Predicate) : p.test none = p.isAny := by cases p <;> rfl

end Predicate

end Followup
