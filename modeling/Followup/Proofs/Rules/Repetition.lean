import Followup.Proofs.Rules.Likeness

/-! A rule that repeats the conditions of an earlier one is superfluous. It never decides anything,
it is not the one for all other facts, and without it the table is accepted as before and gives the
answers that it gave, by rules of which the later ones have moved up by one place. -/

namespace Followup

variable {t : Table} {facts : Facts} {r s : Rule} {i j k : Nat} {a : Evaluation}

def placeAfter (j i : Nat) : Nat := if i < j then i else i - 1

def placeBefore (j i : Nat) : Nat := if i < j then i else i + 1

theorem placeBefore_placeAfter (h : i ≠ j) : placeBefore j (placeAfter j i) = i := by
  rw [placeAfter]
  split
  · next hlt => rw [placeBefore, if_pos hlt]
  · rw [placeBefore, if_neg (by omega)]
    omega

theorem placeAfter_le (h : i ≤ placeBefore j k) : placeAfter j i ≤ k := by
  rw [placeBefore] at h
  rw [placeAfter]
  split at h <;> split <;> omega

def Evaluation.without (j : Nat) : Evaluation → Evaluation
  | matched i output => matched (placeAfter j i) output
  | catchAll output => catchAll output
  | noMatch => noMatch

namespace Table

def without (t : Table) (j : Nat) : Table := { t with rules := t.rules.eraseIdx j }

theorem getElem?_without : (t.without j).rules[k]? = t.rules[placeBefore j k]? := by
  rw [without, List.getElem?_eraseIdx, placeBefore]
  split <;> rfl

theorem getElem?_placeAfter (h : k ≠ j) : (t.without j).rules[placeAfter j k]? = t.rules[k]? := by
  rw [getElem?_without, placeBefore_placeAfter h]

theorem mem_of_without (hr : r ∈ (t.without j).rules) : r ∈ t.rules :=
  (List.eraseIdx_sublist t.rules j).subset hr

theorem mem_hits_without : k ∈ (t.without j).hits facts ↔ placeBefore j k ∈ t.hits facts := by
  change (∃ r, (t.without j).rules[k]? = some r ∧ _) ↔ _
  rw [getElem?_without]
  rfl

theorem LaidOut.without (ht : t.LaidOut) (hij : i < j) (hj : j < t.rules.length) :
    (t.without j).LaidOut := by
  have hlength : (t.without j).rules.length = t.rules.length - 1 :=
    List.length_eraseIdx_of_lt hj
  refine ⟨⟨?_, ?_, ?_⟩, ?_⟩
  · refine List.ne_nil_of_length_pos ?_
    omega
  · intro k r hk hr
    rw [getElem?_without] at hk
    have hlast := ht.unconditional_last _ r hk hr
    rw [placeBefore] at hlast
    split at hlast <;> omega
  · exact fun r hr => ht.admits r (mem_of_without hr)
  · exact fun r hr s hs => ht.consistent r (mem_of_without hr) s (mem_of_without hs)

theorem isLeast_without (hne : k ≠ j) (h : IsLeast (t.hits facts) k) :
    IsLeast ((t.without j).hits facts) (placeAfter j k) := by
  constructor
  · rw [mem_hits_without, placeBefore_placeAfter hne]
    exact h.1
  · intro m hm
    exact placeAfter_le (h.2 (mem_hits_without.1 hm))

theorem evaluate_without (hv : t.validate = .ok ()) (hv' : (t.without j).validate = .ok ())
    (hnever : ¬ IsLeast (t.hits facts) j) :
    ∃ a, t.evaluate facts = .ok a ∧ (t.without j).evaluate facts = .ok (a.without j) := by
  rcases exists_isLeast t facts with ⟨k, r, hk, hleast⟩ | hnone
  · have hne : k ≠ j := fun hkj => hnever (hkj ▸ hleast)
    refine ⟨_, evaluate_of_isLeast hv hk hleast, ?_⟩
    rw [evaluate_of_isLeast hv' ((getElem?_placeAfter hne).trans hk) (isLeast_without hne hleast)]
    split <;> rfl
  · refine ⟨_, evaluate_of_none hv hnone, ?_⟩
    exact evaluate_of_none hv' fun r hr => hnone r (mem_of_without hr)

/-- A rule of an accepted table that has the conditions of an earlier one is superfluous. -/
theorem repetition_superfluous (hv : t.validate = .ok ()) (hij : i < j)
    (hi : t.rules[i]? = some r) (hj : t.rules[j]? = some s)
    (h : r.conditions.Agree s.conditions) :
    (∀ facts, ¬ IsLeast (t.hits facts) j) ∧
      (∀ facts output, t.evaluate facts ≠ .ok (.matched j output)) ∧ ¬ s.Unconditional ∧
      (t.without j).validate = .ok () ∧
      ∀ facts, ∃ a, t.evaluate facts = .ok a ∧
        (t.without j).evaluate facts = .ok (a.without j) := by
  have hlaid := validate_eq_ok.1 hv
  have halike : r.Alike s := Rule.alike_of_agree h
  have hlt := (List.getElem?_eq_some_iff.1 hj).1
  have hnever (facts : Facts) : ¬ IsLeast (t.hits facts) j := not_isLeast_of_alike hij hi hj halike
  have hv' : (t.without j).validate = .ok () := validate_eq_ok.2 (hlaid.without hij hlt)
  refine ⟨hnever, fun facts output heval => hnever facts (isLeast_of_matched heval), ?_, hv',
    fun facts => evaluate_without hv hv' (hnever facts)⟩
  intro hs
  -- The earlier rule would be without a condition too, and it is not the last one.
  have hlast := hlaid.unconditional_last i r hi (halike.symm.unconditional hs)
  omega

theorem repetition_superfluous_echoing :
    echoing.duplicates = [⟨1, 0⟩] ∧ (echoing.without 1).rules = applicationValidation.rules ∧
      (echoing.without 1).validate = .ok () ∧
      echoing.evaluate (intake 2 true) = .ok (.matched 3 (classifies "MULTI_APPLICATION")) ∧
      (echoing.without 1).evaluate (intake 2 true) =
        .ok (.matched 2 (classifies "MULTI_APPLICATION")) := by
  have hv : echoing.validate = .ok () := rfl
  have hagree : (echoing.rules[0]).conditions.Agree (echoing.rules[1]).conditions :=
    Columns.agree_iff_perm.2 (.swap _ _ [])
  obtain ⟨-, -, -, hv', hanswers⟩ :=
    repetition_superfluous hv Nat.zero_lt_one rfl rfl hagree
  have hbefore : echoing.evaluate (intake 2 true) =
      .ok (.matched 3 (classifies "MULTI_APPLICATION")) := rfl
  obtain ⟨a, ha, hafter⟩ := hanswers (intake 2 true)
  obtain rfl := Except.ok.inj (hbefore.symm.trans ha)
  exact ⟨rfl, rfl, hv', hbefore, hafter⟩

end Table

end Followup
