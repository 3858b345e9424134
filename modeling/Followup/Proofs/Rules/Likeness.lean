import Followup.Proofs.Rules.Layout

/-! Tables that ask for the same. Conditions ask for the same if they are equal or exclude the same
facts, however these are listed. Where the rules of two tables ask for the same one by one, they
apply to the same facts, and if both tables are accepted or both refused, all facts get answers of
the same kind. Nothing but a conflict between rules can set such tables apart. -/

namespace Followup

variable {t u : Table} {facts : Facts} {field : String} {p q q' : Predicate} {v : Fact}
  {f? : Option Fact} {r r' s : Rule} {R : Columns Fact → Columns Fact → Prop} {i j : Nat}

namespace Predicate

/-- Both are equal, or they exclude the same facts, in whatever order and however often each. -/
inductive Alike : Predicate → Predicate → Prop
  | refl (p : Predicate) : Alike p p
  | notIn {vs ws : List Fact} (h : ∀ v, v ∈ vs ↔ v ∈ ws) : Alike (.notIn vs) (.notIn ws)

theorem Alike.symm (h : p.Alike q) : q.Alike p := by
  cases h with
  | refl => exact .refl p
  | notIn h => exact .notIn fun v => (h v).symm

theorem Alike.trans (hpq : p.Alike q) (hqr : q.Alike q') : p.Alike q' := by
  cases hpq with
  | refl => exact hqr
  | notIn h =>
    cases hqr with
    | refl => exact .notIn h
    | notIn h' => exact .notIn fun v => (h v).trans (h' v)

theorem rel_symm {p? q? : Option Predicate} (h : Option.Rel Alike p? q?) :
    Option.Rel Alike q? p? := by
  cases h with
  | none => exact .none
  | some h => exact .some h.symm

theorem rel_trans {p? q? q'? : Option Predicate} (hpq : Option.Rel Alike p? q?)
    (hqr : Option.Rel Alike q? q'?) : Option.Rel Alike p? q'? := by
  cases hpq with
  | none => exact hqr
  | some hpq =>
    cases hqr with
    | some hqr => exact .some (hpq.trans hqr)

theorem Alike.eq_any (h : p.Alike q) (hp : p = .any) : q = .any := by
  cases h with
  | refl => exact hp
  | notIn => cases hp

theorem Alike.mentions (h : p.Alike q) (hq : q.Mentions v) : p.Mentions v := by
  cases h with
  | refl => exact hq
  | notIn h =>
    cases hq with
    | notIn hv => exact .notIn ((h v).2 hv)

theorem Alike.wellMade (h : p.Alike q) (hp : p.WellMade) : q.WellMade := by
  cases h with
  | refl => exact hp
  | @notIn vs ws h =>
    cases hp with
    | notIn hne =>
      obtain ⟨v, hv⟩ := List.exists_mem_of_ne_nil vs hne
      exact .notIn (List.ne_nil_of_mem ((h v).1 hv))

theorem Alike.accepts (h : p.Alike q) (hp : p.Accepts f?) : q.Accepts f? := by
  cases h with
  | refl => exact hp
  | notIn h =>
    cases hp with
    | notIn hf => exact .notIn (mt (h _).2 hf)

end Predicate

namespace Rule

/-- The rules ask for the same under every field. -/
def Alike (r s : Rule) : Prop :=
  ∀ field, Option.Rel Predicate.Alike (r.conditions.get? field) (s.conditions.get? field)

theorem alike_of_agree (h : r.conditions.Agree s.conditions) : r.Alike s := by
  intro field
  rw [h field]
  cases s.conditions.get? field with
  | none => exact .none
  | some p => exact .some (.refl p)

theorem Alike.symm (h : r.Alike s) : s.Alike r := fun field => Predicate.rel_symm (h field)

theorem Alike.trans (hrs : r.Alike s) (hst : s.Alike r') : r.Alike r' :=
  fun field => Predicate.rel_trans (hrs field) (hst field)

theorem Alike.exists_condition (h : r.Alike s) (hq : (field, q) ∈ s.conditions.entries) :
    ∃ p, (field, p) ∈ r.conditions.entries ∧ p.Alike q := by
  have hfield := h field
  rw [Columns.get?_of_mem hq] at hfield
  cases hp : r.conditions.get? field with
  | none => rw [hp] at hfield; cases hfield
  | some p =>
    rw [hp] at hfield
    cases hfield with
    | some hpq => exact ⟨p, Columns.mem_of_get? hp, hpq⟩

theorem Alike.applies (h : r.Alike s) (hr : r.Applies facts) : s.Applies facts := by
  intro field q hq
  obtain ⟨p, hp, hpq⟩ := h.exists_condition hq
  exact hpq.accepts (hr field p hp)

theorem Alike.unconditional (h : r.Alike s) (hr : r.Unconditional) : s.Unconditional := by
  intro field q hq
  obtain ⟨p, hp, hpq⟩ := h.exists_condition hq
  exact hpq.eq_any (hr field p hp)

theorem Alike.isCatchAll_eq (h : r.Alike s) : r.isCatchAll = s.isCatchAll := by
  rw [Bool.eq_iff_iff, isCatchAll_iff_unconditional, isCatchAll_iff_unconditional]
  exact ⟨h.unconditional, h.symm.unconditional⟩

end Rule

namespace Table

/-- Rule by rule the tables ask for the same and put out what is related, and they declare the same
fields. -/
structure Alike (R : Columns Fact → Columns Fact → Prop) (t u : Table) : Prop where
  id_eq : t.id = u.id
  inputs : t.inputs.Agree u.inputs
  rules : List.Forall₂ (fun r s => r.Alike s ∧ R r.output s.output) t.rules u.rules

theorem Alike.flip (h : t.Alike R u) : u.Alike (flip R) t where
  id_eq := h.id_eq.symm
  inputs := h.inputs.symm
  rules := h.rules.flip.imp fun _ _ h => ⟨h.1.symm, h.2⟩

theorem Alike.exists_rule (h : t.Alike R u) (hi : t.rules[i]? = some r) :
    ∃ s, u.rules[i]? = some s ∧ r.Alike s ∧ R r.output s.output := by
  obtain ⟨hlength, hrules⟩ := List.forall₂_iff_get.1 h.rules
  obtain ⟨hlt, rfl⟩ := List.getElem?_eq_some_iff.1 hi
  exact ⟨_, List.getElem?_eq_getElem (hlength ▸ hlt), hrules i hlt (hlength ▸ hlt)⟩

theorem Alike.hits_subset (h : t.Alike R u) : t.hits facts ⊆ u.hits facts := by
  rintro i ⟨r, hi, hr⟩
  obtain ⟨s, hs, halike, -⟩ := h.exists_rule hi
  exact ⟨s, hs, halike.applies hr⟩

theorem Alike.hits_eq (h : t.Alike R u) : t.hits facts = u.hits facts :=
  h.hits_subset.antisymm h.flip.hits_subset

theorem not_isLeast_of_alike (hij : i < j) (hi : t.rules[i]? = some r) (hj : t.rules[j]? = some s)
    (h : r.Alike s) : ¬ IsLeast (t.hits facts) j := by
  rintro ⟨⟨s', hs', happlies⟩, hleast⟩
  obtain rfl := Option.some.inj (hj.symm.trans hs')
  have hle : j ≤ i := hleast ⟨r, hi, h.symm.applies happlies⟩
  omega

theorem Alike.catchAll?_eq (h : t.Alike R u) : t.catchAll? = u.catchAll? := by
  have hall : List.Forall₂ (fun r s => r.isCatchAll = s.isCatchAll) t.rules u.rules :=
    h.rules.imp fun _ _ hrs => hrs.1.isCatchAll_eq
  unfold catchAll?
  generalize t.rules = rs, u.rules = ss at hall
  induction hall with
  | nil => rfl
  | cons hrs _ ih => rw [List.findIdx?_cons, List.findIdx?_cons, hrs, ih]

theorem Alike.admits (h : t.Alike R u) (hpq : p.Alike q) (hp : t.Admits field p) :
    u.Admits field q := by
  refine ⟨hpq.wellMade hp.1, fun hdeclared => ?_⟩
  obtain ⟨type, htype, hmentions⟩ := hp.2 (mt h.inputs.entries_eq_nil.1 hdeclared)
  exact ⟨type, h.inputs field ▸ htype, fun v hv => hmentions v (hpq.mentions hv)⟩

theorem Alike.admitsAll (h : t.Alike R u) (hrs : r.Alike s) (hr : t.AdmitsAll r) :
    u.AdmitsAll s := by
  intro field q hq
  obtain ⟨p, hp, hpq⟩ := hrs.exists_condition hq
  exact h.admits hpq (hr field p hp)

theorem Alike.sound (h : t.Alike R u) (ht : t.Sound) : u.Sound := by
  have hlength : t.rules.length = u.rules.length := h.rules.length_eq
  refine ⟨?_, ?_, ?_⟩
  · rw [← List.length_pos_iff, ← hlength]
    exact List.length_pos_iff.2 ht.rules_ne_nil
  · intro i s hi hs
    obtain ⟨r, hr, halike, -⟩ := h.flip.exists_rule hi
    rw [← hlength]
    exact ht.unconditional_last i r hr (halike.unconditional hs)
  · intro s hs
    obtain ⟨i, hi⟩ := List.mem_iff_getElem?.1 hs
    obtain ⟨r, hr, halike, -⟩ := h.flip.exists_rule hi
    exact h.admitsAll halike.symm (ht.admits r (List.mem_of_getElem? hr))

/-- Both tables refuse the facts, or both answer them by the rule at the same place, with related
outputs, or both have no rule for them. -/
inductive SameAnswer (R : Columns Fact → Columns Fact → Prop) :
    Except RuleError Evaluation → Except RuleError Evaluation → Prop
  | refused (id : String) (c c' : Malformation) :
    SameAnswer R (.error (.malformed id c)) (.error (.malformed id c'))
  | matched (i : Nat) {o o' : Columns Fact} (h : R o o') :
    SameAnswer R (.ok (.matched i o)) (.ok (.matched i o'))
  | catchAll {o o' : Columns Fact} (h : R o o') :
    SameAnswer R (.ok (.catchAll o)) (.ok (.catchAll o'))
  | noMatch : SameAnswer R (.ok .noMatch) (.ok .noMatch)

theorem evaluate_of_refused (h : t.validate ≠ .ok ()) (facts : Facts) :
    ∃ c, t.evaluate facts = .error (.malformed t.id c) := by
  simp only [evaluate_eq_error]
  rw [validate] at h ⊢
  split at h
  · exact absurd rfl h
  · next c _ => exact ⟨c, rfl⟩

theorem Alike.evaluate (h : t.Alike R u) (hv : t.validate = .ok () ↔ u.validate = .ok ())
    (facts : Facts) : SameAnswer R (t.evaluate facts) (u.evaluate facts) := by
  by_cases ht : t.validate = .ok ()
  · rcases exists_isLeast t facts with ⟨i, r, hi, hleast⟩ | hnone
    · obtain ⟨s, hs, halike, hout⟩ := h.exists_rule hi
      rw [evaluate_of_isLeast ht hi hleast, evaluate_of_isLeast (hv.1 ht) hs (h.hits_eq ▸ hleast),
        halike.isCatchAll_eq]
      split
      · exact .catchAll hout
      · exact .matched i hout
    · rw [evaluate_of_none ht hnone, evaluate_of_none (hv.1 ht)]
      · exact .noMatch
      · intro s hs happlies
        obtain ⟨i, hi⟩ := List.mem_iff_getElem?.1 hs
        obtain ⟨r, hr, hmatch⟩ := h.flip.hits_subset ⟨s, hi, happlies⟩
        exact hnone r (List.mem_of_getElem? hr) hmatch
  · obtain ⟨c, hc⟩ := evaluate_of_refused ht facts
    obtain ⟨c', hc'⟩ := evaluate_of_refused (mt hv.2 ht) facts
    rw [hc, hc', h.id_eq]
    exact .refused u.id c c'

end Table

end Followup
