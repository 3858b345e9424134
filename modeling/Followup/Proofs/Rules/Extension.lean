import Followup.Proofs.Rules.FirstHit
import Followup.Proofs.Rules.Columns

/-! What more facts change. No condition but the wildcard is content with a missing fact, so a rule
that applies to some facts applies to all records that have these facts. The rule that decides after
facts have been added stands where the old one stood, or before it, and it is the old one if nothing
was added that the rules up to there ask for. -/

namespace Followup

variable {α : Type} {t : Table} {facts more : Facts} {r : Rule} {p : Predicate} {i : Nat}
  {a b : Evaluation}

namespace Columns

def Within (c d : Columns α) : Prop :=
  ∀ name value, c.get? name = some value → d.get? name = some value

def Adds (c d : Columns α) (name : String) : Prop := c.get? name = none ∧ d.get? name ≠ none

instance [DecidableEq α] (c d : Columns α) (name : String) : Decidable (c.Adds d name) :=
  inferInstanceAs (Decidable (_ ∧ _))

theorem within_of_entries {c d : Columns α} (h : ∀ e ∈ c.entries, d.get? e.1 = some e.2) :
    c.Within d :=
  fun name value hc => h (name, value) (mem_of_get? hc)

theorem Within.get?_eq {c d : Columns α} {name : String} (h : c.Within d) (hold : ¬ c.Adds d name) :
    d.get? name = c.get? name := by
  cases hc : c.get? name with
  | some value => exact h name value hc
  | none => exact not_not.1 fun hd => hold ⟨hc, hd⟩

end Columns

theorem Predicate.Accepts.of_within {field : String} (h : facts.Within more)
    (hp : p.Accepts (facts.get? field)) : p.Accepts (more.get? field) := by
  cases hf : facts.get? field with
  | some value =>
    rw [hf] at hp
    rwa [h field value hf]
  | none =>
    rw [hf] at hp
    rw [Predicate.accepts_none.1 hp]
    exact .any _

theorem Rule.Applies.of_within (h : facts.Within more) (hr : r.Applies facts) : r.Applies more :=
  fun field p hp => (hr field p hp).of_within h

theorem Rule.applies_congr (h : facts.Within more)
    (hasked : ∀ field ∈ r.conditions.names, ¬ facts.Adds more field) :
    r.Applies more ↔ r.Applies facts := by
  refine ⟨fun hr field p hp => ?_, Rule.Applies.of_within h⟩
  have hfield : field ∈ r.conditions.names := List.mem_map_of_mem hp
  rw [← h.get?_eq (hasked field hfield)]
  exact hr field p hp

namespace Table

/-- The place of the rule that an answer comes from. An answer from none counts as one from behind
the last rule. -/
def placeOf (t : Table) : Evaluation → Nat
  | .matched i _ => i
  | .catchAll _ => t.catchAll?.getD t.rules.length
  | .noMatch => t.rules.length

theorem hits_within (h : facts.Within more) : t.hits facts ⊆ t.hits more := by
  rintro i ⟨r, hi, hr⟩
  exact ⟨r, hi, hr.of_within h⟩

theorem lt_of_mem_hits (hi : i ∈ t.hits facts) : i < t.rules.length := by
  obtain ⟨r, hr, -⟩ := hi
  exact (List.getElem?_eq_some_iff.1 hr).1

theorem catchAll?_of_last (hv : t.validate = .ok ()) (hi : t.rules[i]? = some r)
    (hr : r.isCatchAll = true) : t.catchAll? = some i := by
  obtain ⟨place, hplace, -⟩ := exists_catchAll? hi hr
  obtain ⟨hlt, hall, -⟩ := List.findIdx?_eq_some_iff_getElem.1 hplace
  -- Both of them are the last rule.
  have hlast := last_of_isCatchAll hv hi hr
  have hlast' := last_of_isCatchAll hv (List.getElem?_eq_getElem hlt) hall
  rw [hplace, Option.some_inj]
  omega

theorem placeOf_of_isLeast (hv : t.validate = .ok ()) (hleast : IsLeast (t.hits facts) i)
    (ha : t.evaluate facts = .ok a) : t.placeOf a = i := by
  obtain ⟨r, hi, -⟩ := hleast.1
  rw [evaluate_of_isLeast hv hi hleast] at ha
  obtain rfl := Except.ok.inj ha
  split
  · next hr => rw [placeOf, catchAll?_of_last hv hi hr, Option.getD_some]
  · rfl

theorem placeOf_of_none (hv : t.validate = .ok ()) (hnone : ∀ r ∈ t.rules, ¬ r.Applies facts)
    (ha : t.evaluate facts = .ok a) : t.placeOf a = t.rules.length := by
  rw [evaluate_of_none hv hnone] at ha
  obtain rfl := Except.ok.inj ha
  rfl

theorem placeOf_le_length (hv : t.validate = .ok ()) (ha : t.evaluate facts = .ok a) :
    t.placeOf a ≤ t.rules.length := by
  rcases exists_isLeast t facts with ⟨i, r, -, hleast⟩ | hnone
  · rw [placeOf_of_isLeast hv hleast ha]
    exact (lt_of_mem_hits hleast.1).le
  · exact (placeOf_of_none hv hnone ha).le

theorem placeOf_le_of_mem (hv : t.validate = .ok ()) (ha : t.evaluate facts = .ok a)
    (hi : i ∈ t.hits facts) : t.placeOf a ≤ i := by
  rcases exists_isLeast t facts with ⟨j, r, -, hleast⟩ | hnone
  · rw [placeOf_of_isLeast hv hleast ha]
    exact hleast.2 hi
  · obtain ⟨r, hr, happlies⟩ := hi
    exact absurd happlies (hnone r (List.mem_of_getElem? hr))

theorem placeOf_within (hv : t.validate = .ok ()) (h : facts.Within more)
    (ha : t.evaluate facts = .ok a) (hb : t.evaluate more = .ok b) :
    t.placeOf b ≤ t.placeOf a := by
  rcases exists_isLeast t facts with ⟨i, r, -, hleast⟩ | hnone
  · rw [placeOf_of_isLeast hv hleast ha]
    exact placeOf_le_of_mem hv hb (hits_within h hleast.1)
  · rw [placeOf_of_none hv hnone ha]
    exact placeOf_le_length hv hb

/-- The rules up to the one that decides ask for nothing that has been added. -/
def Unasked (t : Table) (facts more : Facts) (a : Evaluation) : Prop :=
  ∀ i r, i ≤ t.placeOf a → t.rules[i]? = some r →
    ∀ field ∈ r.conditions.names, ¬ facts.Adds more field

theorem evaluate_of_unasked (hv : t.validate = .ok ()) (h : facts.Within more)
    (ha : t.evaluate facts = .ok a) (hnew : t.Unasked facts more a) : t.evaluate more = .ok a := by
  rcases exists_isLeast t facts with ⟨i, r, hi, hleast⟩ | hnone
  · have hplace := placeOf_of_isLeast hv hleast ha
    have hleast' : IsLeast (t.hits more) i := by
      refine ⟨hits_within h hleast.1, ?_⟩
      rintro j ⟨s, hj, hs⟩
      by_contra hcon
      have hji : j ≤ t.placeOf a := by omega
      exact hcon (hleast.2 ⟨s, hj, (Rule.applies_congr h (hnew j s hji hj)).1 hs⟩)
    rw [evaluate_of_isLeast hv hi hleast', ← evaluate_of_isLeast hv hi hleast, ha]
  · have hnone' : ∀ r ∈ t.rules, ¬ r.Applies more := by
      intro r hr happlies
      obtain ⟨i, hi⟩ := List.mem_iff_getElem?.1 hr
      have hlt := (List.getElem?_eq_some_iff.1 hi).1
      have hle : i ≤ t.placeOf a := by
        rw [placeOf_of_none hv hnone ha]
        exact hlt.le
      exact hnone r hr ((Rule.applies_congr h (hnew i r hle hi)).1 happlies)
    rw [evaluate_of_none hv hnone', ← evaluate_of_none hv hnone, ha]

/-- Facts that are added to others never lose a hit. An accepted table answers both records, the
larger one by the rule that answers the smaller one or by one before it, and in the same way if no
rule up to that one asks for anything that has been added. -/
theorem answer_no_later (hv : t.validate = .ok ()) (h : facts.Within more) :
    ∃ a b, t.evaluate facts = .ok a ∧ t.evaluate more = .ok b ∧ t.placeOf b ≤ t.placeOf a ∧
      (t.Unasked facts more a → b = a) := by
  obtain ⟨a, ha⟩ := exists_evaluate hv facts
  obtain ⟨b, hb⟩ := exists_evaluate hv more
  refine ⟨a, b, ha, hb, placeOf_within hv h ha hb, fun hnew => ?_⟩
  have hsame := evaluate_of_unasked hv h ha hnew
  exact Except.ok.inj (hb.symm.trans hsame)

def uncounted : Facts := .ofList [(Field.loanApplicationCount, .int 0)]

def faxed : Facts := .ofList [(Field.loanApplicationCount, .int 0), ("channel", .text "fax")]

theorem answer_no_later_faxed :
    applicationValidation.validate = .ok () ∧ uncounted.Within faxed ∧
      applicationValidation.evaluate uncounted =
        .ok (.matched 1 (classifies "INVALID_NO_APPLICATION")) ∧
      applicationValidation.Unasked uncounted faxed
        (.matched 1 (classifies "INVALID_NO_APPLICATION")) ∧
      applicationValidation.evaluate faxed =
        .ok (.matched 1 (classifies "INVALID_NO_APPLICATION")) := by
  have hv : applicationValidation.validate = .ok () := builtin_valid _ (.head _)
  have hwithin : uncounted.Within faxed := Columns.within_of_entries (by decide)
  have heval : applicationValidation.evaluate uncounted =
      .ok (.matched 1 (classifies "INVALID_NO_APPLICATION")) := rfl
  have hnew : applicationValidation.Unasked uncounted faxed
      (.matched 1 (classifies "INVALID_NO_APPLICATION")) := by
    intro i r hi hr
    obtain rfl | rfl := Nat.le_one_iff_eq_zero_or_eq_one.1 hi
    · obtain rfl := Option.some.inj hr
      decide
    · obtain rfl := Option.some.inj hr
      decide
  obtain ⟨a, b, ha, hb, -, hsame⟩ := answer_no_later hv hwithin
  obtain rfl := Except.ok.inj (heval.symm.trans ha)
  obtain rfl := hsame hnew
  exact ⟨hv, hwithin, heval, hnew, hb⟩

end Table

end Followup
