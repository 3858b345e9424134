import Followup.Proofs.Rules.Operators

/-! The forms in which a condition can be written: a bare value, one of the two words for the
wildcard, or an operator with what it compares with. These are all forms but two, which are hardly
written on purpose: operators may also be given by their places, as numbers that stand for the keys
or as the items of a sequence. -/

namespace Followup

namespace Document

open Yaml
open Operators (Names Numbers Chooses)

variable {n : Node} {s : Scalar} {p : Predicate} {tag : Option String}

def IsWildcard (t : String) : Prop := t = "any" ∨ t = "-"

inductive Spelled : Node → Predicate → Prop
  | wildcard {s : Scalar} {t : String} (h : s.meaning = .text t) (ht : IsWildcard t) :
    Spelled (.scalar s) .any
  | value {n : Node} {f : Fact} (h : IsFact n f) (hword : ∀ t, f = .text t → ¬ IsWildcard t) :
    Spelled n (.equals f)
  | condition {tag : Option String} {es : List (Node × Node)} {xs : List (Operator × Node)}
    {p : Predicate} (htag : localTag? tag = none)
    (hkeys : List.Forall₂ (fun e x => Names e.1 x.1 ∧ e.2 = x.2) es xs) (h : Chooses xs p) :
    Spelled (.mapping tag es) p

inductive IsNumber : Node → Prop
  | number {s : Scalar} {i : Int} (h : s.meaning = .whole i) : IsNumber (.scalar s)

theorem Operators.Numbers.isNumber {op : Operator} (h : Numbers n op) : IsNumber n := by
  cases h with
  | number hs => exact .number hs

/-- The forms that are taken for the operators in their order: a sequence, which has what is
written behind each of them, and a mapping with places among its keys. -/
inductive Stray : Node → Predicate → Prop
  | row {tag : Option String} {xs : List (Operator × Node)} {p : Predicate}
    (htag : localTag? tag = none) (horder : xs.map Prod.fst <+: Operator.all)
    (h : Chooses xs p) : Stray (.sequence tag (xs.map Prod.snd)) p
  | numbered {tag : Option String} {es : List (Node × Node)} {xs : List (Operator × Node)}
    {p : Predicate} (htag : localTag? tag = none)
    (hkeys : List.Forall₂ (fun e x => (Names e.1 x.1 ∨ Numbers e.1 x.1) ∧ e.2 = x.2) es xs)
    (hnumber : ∃ e ∈ es, IsNumber e.1) (h : Chooses xs p) : Stray (.mapping tag es) p

theorem IsFact.wildcard {t : String} (h : s.meaning = .text t) (ht : IsWildcard t) :
    IsFact (.scalar s) (.text t) := by
  refine .text h ?_
  rcases ht with rfl | rfl
  · decide +kernel
  · decide +kernel

def plain (text : String) : Node := .scalar ⟨text, .plain, none⟩

end Document

end Followup
