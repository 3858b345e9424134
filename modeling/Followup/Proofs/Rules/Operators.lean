import Followup.Proofs.Rules.Operands
import Mathlib.Data.List.Nodup

/-! How a condition is read operator by operator. Each operator is read at most once, whether a key
names it or its place does, and of those that something is written behind there must be just
one. -/

namespace Followup

namespace Document

open Yaml

namespace Operators

variable {n : Node} {p : Predicate} {r : Option Predicate} {o o' : Operators} {op : Operator}
  {xs : List (Operator × Node)}

def get (o : Operators) : Operator → Option (Option Predicate)
  | .equals => o.equals.map (Option.map .equals)
  | .notEquals => o.notEquals.map (Option.map .notIn)
  | .greaterThan => o.greaterThan.map (Option.map .greaterThan)
  | .lessThan => o.lessThan.map (Option.map .lessThan)

def Puts (o : Operators) (op : Operator) (r : Option Predicate) (o' : Operators) : Prop :=
  ∀ op', o'.get op' = if op' = op then some r else o.get op'

theorem ext_get (h : ∀ op, o.get op = o'.get op) : o = o' := by
  have hslot {α : Type} {make : α → Predicate} (hmake : make.Injective) :
      (Option.map (Option.map make)).Injective :=
    Option.map_injective (Option.map_injective hmake)
  have hequals := hslot (fun _ _ => Predicate.equals.inj) (h .equals)
  have hnot := hslot (fun _ _ => Predicate.notIn.inj) (h .notEquals)
  have hgreater := hslot (fun _ _ => Predicate.greaterThan.inj) (h .greaterThan)
  have hless := hslot (fun _ _ => Predicate.lessThan.inj) (h .lessThan)
  cases o
  cases o'
  simp_all

theorem Puts.unique {o₁ o₂ : Operators} (h₁ : o.Puts op r o₁) (h₂ : o.Puts op r o₂) : o₁ = o₂ :=
  ext_get fun op' => (h₁ op').trans (h₂ op').symm

structure Fills (o : Operators) (xs : List (Operator × Node)) (o' : Operators) : Prop where
  distinct : (xs.map Prod.fst).Nodup
  free : ∀ x ∈ xs, o.get x.1 = .none
  given : ∀ x ∈ xs, ∃ r, x.1.Gives x.2 r ∧ o'.get x.1 = some r
  other : ∀ op ∉ xs.map Prod.fst, o'.get op = o.get op

theorem fills_nil : o.Fills [] o' ↔ o = o' := by
  constructor
  · intro h
    exact ext_get fun op => (h.other op List.not_mem_nil).symm
  · rintro rfl
    exact ⟨.nil, List.forall_mem_nil _, List.forall_mem_nil _, fun _ _ => rfl⟩

/-- The operators are different ones, and one of them makes the condition while nothing is written
behind the others. -/
structure Chooses (xs : List (Operator × Node)) (p : Predicate) : Prop where
  distinct : (xs.map Prod.fst).Nodup
  chosen : ∃ x ∈ xs, x.1.Makes x.2 p ∧ ∀ y ∈ xs, y.1 ≠ x.1 → IsNull y.2

theorem Fills.join (h : none.Fills xs o) :
    (o.get op).join = some p ↔ ∃ n, (op, n) ∈ xs ∧ op.Makes n p := by
  constructor
  · intro hop
    by_cases hmem : op ∈ xs.map Prod.fst
    · obtain ⟨⟨op, n⟩, hx, rfl⟩ := List.mem_map.1 hmem
      obtain ⟨r, hr, hget⟩ := h.given _ hx
      rw [hget, Option.join_some] at hop
      subst hop
      cases hr with
      | condition hmakes => exact ⟨n, hx, hmakes⟩
    · rw [h.other op hmem] at hop
      cases op <;> cases hop
  · rintro ⟨n, hx, hmakes⟩
    obtain ⟨r, hr, hget⟩ := h.given _ hx
    rw [hget, Option.join_some]
    exact Except.ok.inj ((Operator.read_eq_ok.2 hr).symm.trans
      (Operator.read_eq_ok.2 (.condition hmakes)))

inductive Names : Node → Operator → Prop
  | name {s : Scalar} {op : Operator} (h : s.meaning = .text op.name) : Names (.scalar s) op

inductive Numbers : Node → Operator → Prop
  | number {s : Scalar} {op : Operator} (h : s.meaning = .whole op.place) : Numbers (.scalar s) op

theorem exists_place {i : Nat} (h : o.set i n = .ok o') : ∃ op : Operator, op.place = i := by
  match i with
  | 0 => exact ⟨.equals, rfl⟩
  | 1 => exact ⟨.notEquals, rfl⟩
  | 2 => exact ⟨.greaterThan, rfl⟩
  | 3 => exact ⟨.lessThan, rfl⟩
  | i + 4 => cases h

end Operators

end Document

end Followup
