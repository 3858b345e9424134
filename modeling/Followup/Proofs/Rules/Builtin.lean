import Followup.Decision
import Followup.Proofs.Rules.Evaluation

/-! The two tables that are always there. They are laid out well, and what one of them finds wrong
with an intake is what the other one escalates. -/

namespace Followup

variable {count : Int} {present : Bool} {reason : String} {after : List Rule} {r : Rule}

namespace Table

theorem builtin_valid : ∀ t ∈ builtin, t.validate = .ok () := by
  intro t ht
  rcases List.mem_cons.1 ht with rfl | ht
  · rfl
  · obtain rfl := List.mem_singleton.1 ht
    rfl

def classification (count : Int) (present : Bool) : String :=
  if count = 1 then if present then "SUCCESS" else "INVALID_BAD_DATA"
  else if count = 0 then "INVALID_NO_APPLICATION"
  else if 1 < count then "MULTI_APPLICATION"
  else "INVALID_BAD_DATA"

theorem classification_eq_success :
    classification count present = "SUCCESS" ↔ count = 1 ∧ present = true := by
  rw [classification]
  split
  · next hone => cases present <;> simp [hone]
  · next hone =>
    have hnot : ¬ (count = 1 ∧ present = true) := fun h => hone h.1
    refine iff_of_false ?_ hnot
    split
    · decide
    · split <;> decide

theorem classification_escalates (h : classification count present ≠ "SUCCESS") :
    classification count present ∈ escalatingReasons := by
  rw [classification] at h ⊢
  split
  · next hone =>
    rw [if_pos hone] at h
    cases present with
    | true => exact absurd rfl h
    | false => decide
  · split
    · decide
    · split <;> decide

end Table

open Table

def intake (count : Int) (present : Bool) : Facts :=
  .ofList [(Field.loanApplicationCount, .int count), (Field.requirementsPresent, .bool present)]

theorem classify_of_first {name : String} (before : List Rule)
    (hrules : applicationValidation.rules = before ++ r :: after)
    (hbefore : ∀ b ∈ before, b.holds (intake count present) = false)
    (hr : r.holds (intake count present) = true) (hname : r.output = classifies name) :
    classify .applicationValidation count present = .ok (some name) := by
  have hv : applicationValidation.validate = .ok () := builtin_valid _ (.head _)
  have heval := evaluate_of_first hv hrules hbefore hr
  rw [intake] at heval
  rw [classify, heval, hname]
  cases r.isCatchAll <;> rfl

theorem classify_applicationValidation (count : Int) (present : Bool) :
    classify .applicationValidation count present = .ok (some (classification count present)) := by
  rw [classification]
  by_cases hone : count = 1
  · subst hone
    cases present <;> rfl
  by_cases hzero : count = 0
  · subst hzero
    cases present <;> rfl
  have named (n : Int) (hn : count ≠ n) :
      (Predicate.equals (.int n)).test (some (.int count)) = false := by
    simpa [Predicate.test] using hn
  have greater :
      (Predicate.greaterThan (.int 1)).test (some (.int count)) = decide (1 < count) := by
    rw [Bool.eq_iff_iff, decide_eq_true_iff, Predicate.test, Fact.compare?, beq_iff_eq,
      Option.some_inj, Int.compare_eq_gt]
  rw [if_neg hone, if_neg hzero]
  by_cases hmany : 1 < count
  · rw [if_pos hmany]
    refine classify_of_first (applicationValidation.rules.take 2) rfl ?_ ?_ rfl
    · refine List.forall_mem_cons.2 ⟨?_, List.forall_mem_singleton.2 ?_⟩
      · exact Rule.holds_eq_false (.head _) (named 1 hone)
      · exact Rule.holds_eq_false (.head _) (named 0 hzero)
    · refine List.all_eq_true.2 (List.forall_mem_singleton.2 ?_)
      exact greater.trans (decide_eq_true hmany)
  · rw [if_neg hmany]
    refine classify_of_first (applicationValidation.rules.take 4) rfl ?_ rfl rfl
    refine List.forall_mem_cons.2 ⟨?_, List.forall_mem_cons.2 ⟨?_, List.forall_mem_cons.2
      ⟨?_, List.forall_mem_singleton.2 ?_⟩⟩⟩
    · exact Rule.holds_eq_false (.head _) (named 1 hone)
    · exact Rule.holds_eq_false (.head _) (named 0 hzero)
    · exact Rule.holds_eq_false (.head _) (greater.trans (decide_eq_false hmany))
    · exact Rule.holds_eq_false (.head _) (named 1 hone)

theorem decide_other (h : reason ∉ escalatingReasons) (stage : Stage) (inHours : Bool) :
    Decision.decide .notificationAction (Decision.facts reason stage inHours) =
      .ok (some ⟨.closeWorkflow, none, some 0⟩) := by
  have hv : notificationAction.validate = .ok () := builtin_valid _ (.tail _ (.head _))
  have hnot : (escalatingReasons.map Fact.text).contains (.text reason) = false := by
    simpa using h
  have hrules : notificationAction.rules =
      [] ++ notificationAction.rules.head (by decide) :: notificationAction.rules.tail := rfl
  have hholds : (notificationAction.rules.head (by decide)).holds
      (Decision.facts reason stage inHours) = true := by
    change (!(escalatingReasons.map Fact.text).contains (.text reason) && true) = true
    rw [hnot]
    rfl
  rw [Decision.decide, evaluate_of_first hv hrules (List.forall_mem_nil _) hholds]
  rfl

end Followup
