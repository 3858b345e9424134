import Followup.Rules.Evaluation

/-! The first rule that holds decides, and a table that is laid out well always has an answer. -/

namespace Followup

variable {t : Table} {facts : Facts} {before after : List Rule} {r : Rule} {field : String}
  {p : Predicate}

theorem Rule.holds_eq_false (hmem : (field, p) ∈ r.conditions.entries)
    (hp : p.test (facts.get? field) = false) : r.holds facts = false :=
  List.all_eq_false.2 ⟨(field, p), hmem, Bool.eq_false_iff.1 hp⟩

namespace Table

theorem firstHit_append (hbefore : ∀ b ∈ before, b.holds facts = false) (rs : List Rule) (n : Nat) :
    firstHit facts n (before ++ rs) = firstHit facts (n + before.length) rs := by
  induction before generalizing n with
  | nil => rfl
  | cons b before ih =>
    obtain ⟨hb, hrest⟩ := List.forall_mem_cons.1 hbefore
    rw [List.cons_append, firstHit, hb, if_neg Bool.false_ne_true, ih hrest, List.length_cons,
      Nat.add_assoc, Nat.add_comm 1]

theorem evaluate_of_first (hv : t.validate = .ok ()) (ht : t.rules = before ++ r :: after)
    (hbefore : ∀ b ∈ before, b.holds facts = false) (hr : r.holds facts = true) :
    t.evaluate facts =
      .ok (if r.isCatchAll then .catchAll r.output else .matched before.length r.output) := by
  have hfirst : firstHit facts 0 t.rules = some (before.length, r) := by
    rw [ht, firstHit_append hbefore, firstHit, if_pos hr, Nat.zero_add]
  rw [evaluate, hv]
  simp only [hfirst]
  rfl

theorem exists_evaluate (hv : t.validate = .ok ()) (facts : Facts) :
    ∃ r, t.evaluate facts = .ok r := by
  rw [evaluate, hv]
  cases firstHit facts 0 t.rules with
  | none => exact ⟨_, rfl⟩
  | some hit => exact ⟨_, rfl⟩

end Table

end Followup
