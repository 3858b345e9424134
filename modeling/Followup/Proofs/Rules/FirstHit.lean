import Followup.Proofs.Calendar.LocalTime
import Followup.Proofs.Rules.Builtin
import Mathlib.Data.Nat.Find
import Mathlib.Order.Bounds.Basic

/-! What the evaluation of a table means. A rule applies to the facts that all its conditions
accept, and a table that is laid out well answers with the first rule that applies. Only its last
rule can be without a condition, and where it is, there is always an answer. -/

namespace Followup

variable {t : Table} {facts : Facts} {r : Rule} {p : Predicate} {a b v : Fact} {i : Nat}

namespace Fact

/-- Numbers and times come one after another among their own kind; no other facts have an order. -/
inductive Precedes : Fact → Fact → Prop
  | int {m n : Int} (h : m < n) : Precedes (.int m) (.int n)
  | stamp {t u : Instant} (h : t < u) : Precedes (.stamp t) (.stamp u)

theorem precedes_int {m n : Int} : (int m).Precedes (int n) ↔ m < n := by
  constructor
  · intro h
    cases h with
    | int h => exact h
  · exact .int

theorem precedes_stamp {t u : Instant} : (stamp t).Precedes (stamp u) ↔ t < u := by
  constructor
  · intro h
    cases h with
    | stamp h => exact h
  · exact .stamp

theorem compare?_iff : (a.compare? b = some .lt ↔ a.Precedes b) ∧
    (a.compare? b = some .gt ↔ b.Precedes a) := by
  have unordered (hnone : a.compare? b = none) (hab : ¬ a.Precedes b) (hba : ¬ b.Precedes a) :
      (a.compare? b = some .lt ↔ a.Precedes b) ∧ (a.compare? b = some .gt ↔ b.Precedes a) := by
    rw [hnone]
    exact ⟨iff_of_false (by decide) hab, iff_of_false (by decide) hba⟩
  cases a with
  | int m =>
    cases b with
    | int n =>
      rw [precedes_int, precedes_int, compare?, Option.some_inj, Option.some_inj]
      exact ⟨Int.compare_eq_lt, Int.compare_eq_gt⟩
    | bool | stamp | text => exact unordered rfl (by rintro ⟨⟩) (by rintro ⟨⟩)
  | stamp t =>
    cases b with
    | stamp u =>
      rw [precedes_stamp, precedes_stamp, compare?, Option.some_inj, Option.some_inj]
      by_cases hlt : t < u
      · rw [if_pos hlt]
        exact ⟨iff_of_true rfl hlt, iff_of_false (by decide) (not_lt_of_gt hlt)⟩
      · have hle : u ≤ t := Reading.not_lt.1 hlt
        rw [if_neg hlt]
        by_cases heq : t = u
        · rw [if_pos heq]
          exact ⟨iff_of_false (by decide) hlt, iff_of_false (by decide) (heq ▸ lt_irrefl t)⟩
        · rw [if_neg heq]
          exact ⟨iff_of_false (by decide) hlt, iff_of_true rfl (lt_of_le_of_ne hle (Ne.symm heq))⟩
    | bool | int | text => exact unordered rfl (by rintro ⟨⟩) (by rintro ⟨⟩)
  | bool | text => exact unordered rfl (by rintro ⟨⟩) (by rintro ⟨⟩)

end Fact

/-- What a condition accepts under its field. A fact that is missing is accepted by the wildcard
alone. -/
inductive Predicate.Accepts : Predicate → Option Fact → Prop
  | any (f? : Option Fact) : Accepts .any f?
  | equals (f : Fact) : Accepts (.equals f) (some f)
  | notIn {vs : List Fact} {f : Fact} (h : f ∉ vs) : Accepts (.notIn vs) (some f)
  | greaterThan {v f : Fact} (h : v.Precedes f) : Accepts (.greaterThan v) (some f)
  | lessThan {v f : Fact} (h : f.Precedes v) : Accepts (.lessThan v) (some f)

theorem Predicate.accepts_none : p.Accepts none ↔ p = .any := by
  constructor
  · intro h
    cases h with
    | any => rfl
  · rintro rfl
    exact .any none

theorem Predicate.test_iff_accepts {f? : Option Fact} : p.test f? = true ↔ p.Accepts f? := by
  cases f? with
  | none =>
    rw [test_none, accepts_none]
    cases p <;> simp [isAny]
  | some f =>
    cases p with
    | any => exact iff_of_true rfl (.any _)
    | equals v =>
      rw [test, beq_iff_eq]
      constructor
      · rintro rfl
        exact .equals f
      · intro h
        cases h with
        | equals => rfl
    | notIn vs =>
      rw [test, Bool.not_eq_true', List.contains_eq_mem, decide_eq_false_iff_not]
      constructor
      · exact .notIn
      · intro h
        cases h with
        | notIn h => exact h
    | greaterThan v =>
      rw [test, beq_iff_eq, Fact.compare?_iff.2]
      constructor
      · exact .greaterThan
      · intro h
        cases h with
        | greaterThan h => exact h
    | lessThan v =>
      rw [test, beq_iff_eq, Fact.compare?_iff.1]
      constructor
      · exact .lessThan
      · intro h
        cases h with
        | lessThan h => exact h

namespace Rule

def Applies (r : Rule) (facts : Facts) : Prop :=
  ∀ field p, (field, p) ∈ r.conditions.entries → p.Accepts (facts.get? field)

def Unconditional (r : Rule) : Prop :=
  ∀ field p, (field, p) ∈ r.conditions.entries → p = .any

theorem holds_iff_applies : r.holds facts = true ↔ r.Applies facts := by
  unfold holds Applies
  rw [List.all_eq_true, Prod.forall]
  simp only [Predicate.test_iff_accepts]

theorem isCatchAll_iff_unconditional : r.isCatchAll = true ↔ r.Unconditional := by
  have hany (p : Predicate) : p.isAny = true ↔ p = .any := by cases p <;> simp [Predicate.isAny]
  unfold isCatchAll Unconditional
  rw [List.all_eq_true, Prod.forall]
  simp only [hany]

theorem not_applies : ¬ r.Applies facts ↔ r.holds facts = false := by
  rw [← holds_iff_applies, Bool.not_eq_true]

end Rule

namespace Table

def hits (t : Table) (facts : Facts) : Set Nat :=
  {i | ∃ r : Rule, t.rules[i]? = some r ∧ r.Applies facts}

theorem exists_catchAll? (hi : t.rules[i]? = some r) (hr : r.isCatchAll = true) :
    ∃ place, t.catchAll? = some place ∧ place ≤ i := by
  obtain ⟨hlt, hget⟩ := List.getElem?_eq_some_iff.1 hi
  obtain ⟨place, hplace⟩ : ∃ place, t.catchAll? = some place := by
    rw [← Option.isSome_iff_exists, catchAll?, List.findIdx?_isSome, List.any_eq_true]
    exact ⟨r, List.mem_of_getElem? hi, hr⟩
  refine ⟨place, hplace, ?_⟩
  obtain ⟨_, -, hbefore⟩ := List.findIdx?_eq_some_iff_getElem.1 hplace
  by_contra hcon
  exact hbefore i (Nat.lt_of_not_le hcon) (hget ▸ hr)

theorem inspect_misplaced {place : Nat} (hne : t.rules ≠ []) (hplace : t.catchAll? = some place)
    (hlast : place + 1 ≠ t.rules.length) : t.inspect = ([], .error (.catchAllNotLast place)) := by
  have hempty : t.rules.isEmpty = false := List.isEmpty_eq_false_iff.2 hne
  have hlength := List.length_pos_iff.2 hne
  have hpast : place ≠ t.rules.length - 1 := by omega
  simp only [inspect, hempty, hplace, hpast, ne_eq, not_false_eq_true, if_true,
    Bool.false_eq_true, if_false]

theorem last_of_isCatchAll (hv : t.validate = .ok ()) (hi : t.rules[i]? = some r)
    (hr : r.isCatchAll = true) : i + 1 = t.rules.length := by
  obtain ⟨hlt, -⟩ := List.getElem?_eq_some_iff.1 hi
  obtain ⟨place, hplace, hle⟩ := exists_catchAll? hi hr
  have hlast : place + 1 = t.rules.length := by
    by_contra hpast
    have hne : t.rules ≠ [] := List.ne_nil_of_length_pos (Nat.zero_lt_of_lt hlt)
    rw [validate, inspect_misplaced hne hplace hpast] at hv
    cases hv
  omega

theorem evaluate_of_isLeast (hv : t.validate = .ok ()) (hi : t.rules[i]? = some r)
    (hleast : IsLeast (t.hits facts) i) :
    t.evaluate facts = .ok (if r.isCatchAll then .catchAll r.output else .matched i r.output) := by
  obtain ⟨hlt, hget⟩ := List.getElem?_eq_some_iff.1 hi
  obtain ⟨⟨q, hq, happlies⟩, hbefore⟩ := hleast
  obtain rfl : r = q := Option.some.inj (hi.symm.trans hq)
  have hsplit : t.rules = t.rules.take i ++ r :: t.rules.drop (i + 1) := by
    rw [← hget, ← List.drop_eq_getElem_cons hlt, List.take_append_drop]
  have hnone (b : Rule) (hb : b ∈ t.rules.take i) : b.holds facts = false := by
    obtain ⟨j, hj, rfl⟩ := List.mem_take_iff_getElem.1 hb
    rw [← Rule.not_applies]
    intro hcon
    have hle : i ≤ j := hbefore ⟨_, List.getElem?_eq_getElem (by omega), hcon⟩
    omega
  have hlength : (t.rules.take i).length = i := List.length_take_of_le (Nat.le_of_lt hlt)
  rw [evaluate_of_first hv hsplit hnone (Rule.holds_iff_applies.2 happlies), hlength]

theorem evaluate_eq_error {facts : Facts} {err : RuleError} :
    t.evaluate facts = .error err ↔ t.validate = .error err := by
  cases hv : t.validate with
  | error err' =>
    rw [evaluate, hv, error_bind, Except.error.injEq, Except.error.injEq]
  | ok u =>
    obtain ⟨answer, hanswer⟩ := exists_evaluate hv facts
    rw [hanswer]
    constructor
    · intro h
      cases h
    · intro h
      cases h

theorem exists_isLeast (t : Table) (facts : Facts) :
    (∃ i r, t.rules[i]? = some r ∧ IsLeast (t.hits facts) i) ∨
      ∀ r ∈ t.rules, ¬ r.Applies facts := by
  classical
  by_cases hsome : ∃ i, i ∈ t.hits facts
  · left
    obtain ⟨r, hr, happlies⟩ := Nat.find_spec hsome
    refine ⟨Nat.find hsome, r, hr, ⟨r, hr, happlies⟩, ?_⟩
    intro j hj
    exact Nat.find_min' hsome hj
  · right
    intro r hr happlies
    obtain ⟨j, hj⟩ := List.mem_iff_getElem?.1 hr
    exact hsome ⟨j, r, hj, happlies⟩

theorem evaluate_of_none (hv : t.validate = .ok ()) (hnone : ∀ r ∈ t.rules, ¬ r.Applies facts) :
    t.evaluate facts = .ok .noMatch := by
  have hpassed : ∀ r ∈ t.rules, r.holds facts = false := fun r hr => Rule.not_applies.1 (hnone r hr)
  have hfirst := firstHit_append hpassed [] 0
  rw [List.append_nil, firstHit] at hfirst
  rw [evaluate, hv, ok_bind, hfirst]
  rfl

theorem isLeast_of_matched {o : Columns Fact} (h : t.evaluate facts = .ok (.matched i o)) :
    IsLeast (t.hits facts) i := by
  cases hv : t.validate with
  | error err =>
    rw [evaluate_eq_error.2 hv] at h
    cases h
  | ok _ =>
    rcases exists_isLeast t facts with ⟨j, r, hj, hleast⟩ | hnone
    · rw [evaluate_of_isLeast hv hj hleast] at h
      split at h
      · cases h
      · cases h
        exact hleast
    · rw [evaluate_of_none hv hnone] at h
      cases h

theorem evaluate_eq_noMatch (hv : t.validate = .ok ()) :
    t.evaluate facts = .ok .noMatch ↔ ∀ r ∈ t.rules, ¬ r.Applies facts := by
  constructor
  · intro heval
    rcases exists_isLeast t facts with ⟨i, r, hi, hleast⟩ | hnone
    · rw [evaluate_of_isLeast hv hi hleast] at heval
      split at heval <;> cases heval
    · exact hnone
  · exact evaluate_of_none hv

/-- A table fails to be evaluated just where its layout is wrong, and in the same way. Otherwise the
first rule that applies to the facts decides: by its place if it has a condition, and as the one for
all other facts if it has none, which only the last rule can do. Without an answer are the facts
that no rule applies to, and there are none of these if the last rule is without a condition. -/
theorem evaluate_first_hit (t : Table) (facts : Facts) :
    (∀ err, t.evaluate facts = .error err ↔ t.validate = .error err) ∧
    (t.validate = .ok () →
      (∀ i r, t.rules[i]? = some r → IsLeast (t.hits facts) i →
        (r.Unconditional →
          t.evaluate facts = .ok (.catchAll r.output) ∧ i + 1 = t.rules.length) ∧
        (¬ r.Unconditional → t.evaluate facts = .ok (.matched i r.output))) ∧
      (t.evaluate facts = .ok .noMatch ↔ ∀ r ∈ t.rules, ¬ r.Applies facts) ∧
      (∀ r, t.rules.getLast? = some r → r.Unconditional →
        t.evaluate facts ≠ .ok .noMatch)) := by
  refine ⟨fun err => evaluate_eq_error, fun hv => ⟨?_, evaluate_eq_noMatch hv, ?_⟩⟩
  · intro i r hi hleast
    have heval := evaluate_of_isLeast hv hi hleast
    rw [← Rule.isCatchAll_iff_unconditional]
    constructor
    · intro hall
      rw [if_pos hall] at heval
      exact ⟨heval, last_of_isCatchAll hv hi hall⟩
    · intro hnot
      rwa [if_neg hnot] at heval
  · intro r hr hall heval
    have happlies : r.Applies facts := by
      intro field p hmem
      rw [hall field p hmem]
      exact .any _
    have hnone := (evaluate_eq_noMatch hv).1 heval
    exact hnone r (List.mem_of_getLast? hr) happlies

theorem evaluate_first_hit_intake :
    applicationValidation.validate = .ok () ∧
      IsLeast (applicationValidation.hits (intake 0 false)) 1 ∧
      applicationValidation.evaluate (intake 0 false) =
        .ok (.matched 1 (classifies "INVALID_NO_APPLICATION")) := by
  have hv : applicationValidation.validate = .ok () := builtin_valid _ (.head _)
  have hfirst : applicationValidation.rules[0].holds (intake 0 false) = false := rfl
  have hsecond : applicationValidation.rules[1].holds (intake 0 false) = true := rfl
  have hleast : IsLeast (applicationValidation.hits (intake 0 false)) 1 := by
    refine ⟨⟨_, rfl, Rule.holds_iff_applies.1 hsecond⟩, ?_⟩
    rintro j ⟨q, hq, happlies⟩
    by_contra hcon
    obtain rfl : j = 0 := by omega
    obtain rfl := Option.some.inj hq
    exact Rule.not_applies.2 hfirst happlies
  have hcondition : ¬ applicationValidation.rules[1].Unconditional := by
    rw [← Rule.isCatchAll_iff_unconditional]
    exact Bool.false_ne_true
  have hdecides := (evaluate_first_hit applicationValidation (intake 0 false)).2 hv
  exact ⟨hv, hleast, (hdecides.1 1 _ rfl hleast).2 hcondition⟩

end Table

end Followup
