import Followup.Rules.Document
import Mathlib.Data.List.Forall2

/-! What may be written behind an operator in a condition: a fact, for one of the operators also a
list of facts, or nothing. -/

namespace Followup

theorem mapM_eq_ok {ε α β : Type} {f : α → Except ε β} {l : List α} {bs : List β} :
    l.mapM f = .ok bs ↔ List.Forall₂ (fun a b => f a = .ok b) l bs := by
  induction l generalizing bs with
  | nil => exact ⟨fun h => Except.ok.inj h ▸ .nil, fun | .nil => rfl⟩
  | cons a l ih =>
    rw [List.mapM_cons, bind_eq_ok]
    constructor
    · rintro ⟨b, hb, h⟩
      obtain ⟨rest, hrest, h⟩ := bind_eq_ok.1 h
      exact Except.ok.inj h ▸ .cons hb (ih.1 hrest)
    · intro h
      cases h with
      | cons hb hrest => exact ⟨_, hb, bind_eq_ok.2 ⟨_, ih.2 hrest, rfl⟩⟩

namespace Document

open Yaml

variable {n : Node} {f : Fact} {fs : List Fact} {p : Predicate} {r : Option Predicate}
  {tag : Option String}

inductive IsFact : Node → Fact → Prop
  | truth {s : Scalar} {b : Bool} (h : s.meaning = .truth b) : IsFact (.scalar s) (.bool b)
  | whole {s : Scalar} {i : Int} (h : s.meaning = .whole i) (hlow : -9223372036854775808 ≤ i)
    (hhigh : i < 9223372036854775808) : IsFact (.scalar s) (.int i)
  | stamp {s : Scalar} {t : String} {instant : Instant} (h : s.meaning = .text t)
    (ht : Stamp.read? t = some instant) : IsFact (.scalar s) (.stamp instant)
  | text {s : Scalar} {t : String} (h : s.meaning = .text t) (ht : Stamp.read? t = none) :
    IsFact (.scalar s) (.text t)

theorem fact_eq_ok : fact n = .ok f ↔ IsFact n f := by
  have hfits (i : Int) : Text.Numeral.fits 64 i = true ↔
      -9223372036854775808 ≤ i ∧ i < 9223372036854775808 := by
    rw [Text.Numeral.fits, Bool.and_eq_true, decide_eq_true_iff, decide_eq_true_iff]
    rfl
  cases n with
  | scalar s =>
    constructor
    · intro h
      rw [fact] at h
      split at h
      · next b hs => exact Except.ok.inj h ▸ .truth hs
      · next i hs =>
        split at h
        · next hi =>
          obtain ⟨hlow, hhigh⟩ := (hfits i).1 hi
          exact Except.ok.inj h ▸ .whole hs hlow hhigh
        · cases h
      · next t hs =>
        split at h
        · next instant ht => exact Except.ok.inj h ▸ .stamp hs ht
        · next ht => exact Except.ok.inj h ▸ .text hs ht
      · cases h
    · intro h
      cases h with
      | truth hs => rw [fact, hs]
      | whole hs hlow hhigh =>
        simp only [fact, hs]
        exact if_pos ((hfits _).2 ⟨hlow, hhigh⟩)
      | stamp hs ht | text hs ht => simp only [fact, hs, ht]
  | sequence | mapping | void | cut | loop => exact iff_of_false nofun nofun

inductive IsNull : Node → Prop
  | scalar {s : Scalar} (h : s.meaning = .null) : IsNull (.scalar s)
  | void : IsNull .void

theorem isNull_iff : Operators.isNull n = true ↔ IsNull n := by
  cases n with
  | scalar s =>
    exact decide_eq_true_iff.trans ⟨.scalar, fun | .scalar h => h⟩
  | void => exact iff_of_true rfl .void
  | sequence | mapping | cut | loop => exact iff_of_false nofun nofun

theorem IsFact.not_null (h : IsFact n f) : ¬ IsNull n := by
  intro hnull
  cases h with
  | truth h | whole h | stamp h | text h =>
    obtain ⟨hs⟩ := hnull
    cases hs.symm.trans h

inductive AreFacts : Node → List Fact → Prop
  | one {n : Node} {f : Fact} (h : IsFact n f) : AreFacts n [f]
  | list {tag : Option String} {ns : List Node} {fs : List Fact} (htag : localTag? tag = none)
    (h : List.Forall₂ IsFact ns fs) : AreFacts (.sequence tag ns) fs

theorem AreFacts.not_null (h : AreFacts n fs) : ¬ IsNull n := by
  cases h with
  | one h => exact h.not_null
  | list => exact nofun

theorem areFacts_sequence {ns : List Node} :
    AreFacts (.sequence tag ns) fs ↔ localTag? tag = none ∧ List.Forall₂ IsFact ns fs := by
  refine ⟨fun h => ?_, fun h => .list h.1 h.2⟩
  cases h with
  | one hf => cases hf
  | list htag h => exact ⟨htag, h⟩

namespace Operators

theorem fact?_eq_ok {v : Option Fact} :
    fact? n = .ok v ↔ IsNull n ∧ v = .none ∨ ∃ f, IsFact n f ∧ v = some f := by
  by_cases hnull : IsNull n
  · rw [fact?, if_pos (isNull_iff.2 hnull), Except.ok.injEq]
    constructor
    · rintro rfl
      exact .inl ⟨hnull, rfl⟩
    · rintro (⟨-, rfl⟩ | ⟨f, hf, -⟩)
      · rfl
      · exact absurd hnull hf.not_null
  · rw [fact?, if_neg (mt isNull_iff.1 hnull), map_eq_ok, or_iff_right fun h => hnull h.1]
    simp only [fact_eq_ok, @eq_comm _ (some _)]

theorem facts?_sequence (tag : Option String) (ns : List Node) :
    facts? (.sequence tag ns) =
      if (localTag? tag).isSome then .error .unreadable else (ns.mapM fact).map some := rfl

theorem many_eq_ok (hnull : ¬ IsNull n) {v : Option (List Fact)} :
    facts? n = .ok v ↔ ∃ fs, AreFacts n fs ∧ v = some fs := by
  have hone (hn : ∀ tag ns, n ≠ .sequence tag ns) :
      ((fact n).map fun f => some [f]) = .ok v ↔ ∃ fs, AreFacts n fs ∧ v = some fs := by
    simp only [map_eq_ok, fact_eq_ok]
    constructor
    · rintro ⟨f, hf, rfl⟩
      exact ⟨[f], .one hf, rfl⟩
    · rintro ⟨fs, hfs, rfl⟩
      cases hfs with
      | one hf => exact ⟨_, hf, rfl⟩
      | list => exact absurd rfl (hn _ _)
  cases n with
  | sequence tag ns =>
    simp only [areFacts_sequence, facts?_sequence]
    cases localTag? tag with
    | some => exact iff_of_false nofun nofun
    | none =>
      simp only [Option.isSome_none, Bool.false_eq_true, if_false, map_eq_ok, mapM_eq_ok,
        fact_eq_ok, true_and, @eq_comm _ (some _)]
  | scalar | mapping | void | cut | loop =>
    unfold facts?
    rw [if_neg (mt isNull_iff.1 hnull)]
    exact hone nofun

theorem facts?_eq_ok {v : Option (List Fact)} :
    facts? n = .ok v ↔ IsNull n ∧ v = .none ∨ ∃ fs, AreFacts n fs ∧ v = some fs := by
  by_cases hnull : IsNull n
  · unfold facts?
    rw [if_pos (isNull_iff.2 hnull), Except.ok.injEq]
    constructor
    · rintro rfl
      exact .inl ⟨hnull, rfl⟩
    · rintro (⟨-, rfl⟩ | ⟨fs, hfs, -⟩)
      · rfl
      · exact absurd hnull hfs.not_null
  · rw [many_eq_ok hnull, or_iff_right fun h => hnull h.1]

end Operators

inductive Operator where
  | equals | notEquals | greaterThan | lessThan
deriving DecidableEq

namespace Operator

def name : Operator → String
  | equals => "equals"
  | notEquals => "not_equals"
  | greaterThan => "greater_than"
  | lessThan => "less_than"

def place : Operator → Nat
  | equals => 0
  | notEquals => 1
  | greaterThan => 2
  | lessThan => 3

def all : List Operator := [equals, notEquals, greaterThan, lessThan]

theorem getElem?_all {op : Operator} {i : Nat} : all[i]? = some op ↔ op.place = i := by
  match i with
  | 0 | 1 | 2 | 3 => cases op <;> simp [all, place]
  | i + 4 => cases op <;> simp [all, place]

theorem mem_all (op : Operator) : op ∈ all := List.mem_of_getElem? (getElem?_all.2 rfl)

inductive Makes : Operator → Node → Predicate → Prop
  | equals {n : Node} {f : Fact} (h : IsFact n f) : Makes equals n (.equals f)
  | notEquals {n : Node} {fs : List Fact} (h : AreFacts n fs) : Makes notEquals n (.notIn fs)
  | greaterThan {n : Node} {f : Fact} (h : IsFact n f) : Makes greaterThan n (.greaterThan f)
  | lessThan {n : Node} {f : Fact} (h : IsFact n f) : Makes lessThan n (.lessThan f)

/-- Behind an operator nothing may be written too. -/
inductive Gives (op : Operator) (n : Node) : Option Predicate → Prop
  | nothing (h : IsNull n) : Gives op n none
  | condition {p : Predicate} (h : op.Makes n p) : Gives op n (some p)

variable {op : Operator}

theorem Makes.not_null (h : op.Makes n p) : ¬ IsNull n := by
  cases h with
  | equals h | greaterThan h | lessThan h => exact h.not_null
  | notEquals h => exact h.not_null

def read : Operator → Node → FromDocument (Option Predicate)
  | equals, n => (Operators.fact? n).map (Option.map .equals)
  | notEquals, n => (Operators.facts? n).map (Option.map .notIn)
  | greaterThan, n => (Operators.fact? n).map (Option.map .greaterThan)
  | lessThan, n => (Operators.fact? n).map (Option.map .lessThan)

theorem gives_iff {α : Type} {make : α → Predicate} {reads : α → Prop}
    {value : FromDocument (Option α)}
    (hvalue : ∀ v, value = .ok v ↔ IsNull n ∧ v = none ∨ ∃ a, reads a ∧ v = some a)
    (hmakes : ∀ p, op.Makes n p ↔ ∃ a, reads a ∧ p = make a) :
    value.map (Option.map make) = .ok r ↔ op.Gives n r := by
  simp only [map_eq_ok, hvalue]
  constructor
  · rintro ⟨v, ⟨hnull, rfl⟩ | ⟨a, ha, rfl⟩, rfl⟩
    · exact .nothing hnull
    · exact .condition ((hmakes _).2 ⟨a, ha, rfl⟩)
  · intro h
    cases h with
    | nothing hnull => exact ⟨none, .inl ⟨hnull, rfl⟩, rfl⟩
    | condition h =>
      obtain ⟨a, ha, rfl⟩ := (hmakes _).1 h
      exact ⟨some a, .inr ⟨a, ha, rfl⟩, rfl⟩

theorem read_eq_ok : op.read n = .ok r ↔ op.Gives n r := by
  cases op with
  | equals =>
    exact gives_iff (fun _ => Operators.fact?_eq_ok) fun p =>
      ⟨fun | .equals hf => ⟨_, hf, rfl⟩, fun ⟨_, hf, hp⟩ => hp ▸ .equals hf⟩
  | notEquals =>
    exact gives_iff (fun _ => Operators.facts?_eq_ok) fun p =>
      ⟨fun | .notEquals hfs => ⟨_, hfs, rfl⟩, fun ⟨_, hfs, hp⟩ => hp ▸ .notEquals hfs⟩
  | greaterThan =>
    exact gives_iff (fun _ => Operators.fact?_eq_ok) fun p =>
      ⟨fun | .greaterThan hf => ⟨_, hf, rfl⟩, fun ⟨_, hf, hp⟩ => hp ▸ .greaterThan hf⟩
  | lessThan =>
    exact gives_iff (fun _ => Operators.fact?_eq_ok) fun p =>
      ⟨fun | .lessThan hf => ⟨_, hf, rfl⟩, fun ⟨_, hf, hp⟩ => hp ▸ .lessThan hf⟩

end Operator

end Document

end Followup
