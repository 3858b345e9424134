import Followup.Proofs.Rules.Likeness

/-! The order in which fields are written means nothing. A table and another one with the fields of
its rules, of what they put out and of its declarations in other places are accepted or refused
together, with the same reports, and give the same answers. -/

namespace Followup

variable {t u : Table} {r s : Rule} {before before' rs ss : List Rule} {found : List Duplicate}

namespace Rule

/-- The rules are the same but for the order of the fields. -/
structure Reordered (r s : Rule) : Prop where
  description : r.description = s.description
  conditions : r.conditions.entries.Perm s.conditions.entries
  output : r.output.entries.Perm s.output.entries

theorem Reordered.conditions_agree (h : r.Reordered s) : r.conditions.Agree s.conditions :=
  Columns.agree_iff_perm.2 h.conditions

theorem Reordered.output_agree (h : r.Reordered s) : r.output.Agree s.output :=
  Columns.agree_iff_perm.2 h.output

theorem Reordered.alike (h : r.Reordered s) : r.Alike s := alike_of_agree h.conditions_agree

end Rule

namespace Table

/-- The tables are the same but for the order of the fields, in their rules and as declared. -/
structure Reordered (t u : Table) : Prop where
  eq_with : u = { t with inputs := u.inputs, rules := u.rules }
  inputs : t.inputs.entries.Perm u.inputs.entries
  rules : List.Forall₂ Rule.Reordered t.rules u.rules

theorem Reordered.alike (h : t.Reordered u) : t.Alike Columns.Agree u where
  id_eq := by rw [h.eq_with]
  inputs := Columns.agree_iff_perm.2 h.inputs
  rules := h.rules.imp fun _ _ hrs => ⟨hrs.alike, hrs.output_agree⟩

theorem compareWith_reordered (hrs : r.Reordered s)
    (h : List.Forall₂ Rule.Reordered before before') (index place : Nat) (found : List Duplicate) :
    compareWith index r place before found = compareWith index s place before' found := by
  induction h generalizing place found with
  | nil => rfl
  | cons hef _ ih =>
    have hsame := Columns.same_congr hef.conditions_agree hrs.conditions_agree
    have hout := Columns.same_congr hef.output_agree hrs.output_agree
    rw [compareWith, compareWith, hsame, hout, ih, ih]

def SamePass (x y : List Duplicate × Except Malformation Unit) : Prop :=
  x.1 = y.1 ∧ (x.2 = .ok () ↔ y.2 = .ok ())

theorem checkRules_reordered (h : t.Reordered u) (hrs : List.Forall₂ Rule.Reordered rs ss)
    (hbefore : List.Forall₂ Rule.Reordered before before') :
    SamePass (t.checkRules before rs found) (u.checkRules before' ss found) := by
  -- Both passes are at the same place, with the same report so far. Which condition is found wrong
  -- first may depend on the order, but not whether one is.
  induction hrs generalizing before before' found with
  | nil => exact ⟨rfl, Iff.rfl⟩
  | @cons r s rs ss hrs _ ih =>
    have hadmits : t.AdmitsAll r ↔ u.AdmitsAll s :=
      ⟨h.alike.admitsAll hrs.alike, h.alike.flip.admitsAll hrs.alike.symm⟩
    by_cases hr : t.AdmitsAll r
    · have hcompare := compareWith_reordered hrs hbefore before'.length 0 found
      cases hresult : compareWith before'.length s 0 before' found with
      | mk found' result =>
        rw [hresult, ← hbefore.length_eq] at hcompare
        cases result with
        | error err =>
          rw [checkRules_of_conflict rs hr hcompare,
            checkRules_of_conflict ss (hadmits.1 hr) hresult]
          exact ⟨rfl, Iff.rfl⟩
        | ok _ =>
          rw [checkRules_of_compared rs hr hcompare,
            checkRules_of_compared ss (hadmits.1 hr) hresult]
          exact ih (List.rel_append hbefore (.cons hrs .nil))
    · obtain ⟨err, herr⟩ := checkRules_of_not_admits before rs found hr
      obtain ⟨err', herr'⟩ := checkRules_of_not_admits before' ss found (mt hadmits.2 hr)
      rw [herr, herr']
      exact ⟨rfl, iff_of_false nofun nofun⟩

theorem inspect_reordered (h : t.Reordered u) : SamePass t.inspect u.inspect := by
  have hlength : t.rules.length = u.rules.length := h.rules.length_eq
  have hempty : t.rules.isEmpty = u.rules.isEmpty := by
    rw [Bool.eq_iff_iff, List.isEmpty_iff_length_eq_zero, List.isEmpty_iff_length_eq_zero, hlength]
  rw [inspect, inspect, h.alike.catchAll?_eq, hlength, hempty]
  have hpass : SamePass (t.checkRules [] t.rules []) (u.checkRules [] u.rules []) :=
    checkRules_reordered h h.rules .nil
  split
  · exact ⟨rfl, Iff.rfl⟩
  split
  · split
    · exact ⟨rfl, Iff.rfl⟩
    · exact hpass
  · exact hpass

/-- Whatever the order of its fields, a table is accepted or refused alike, with the same repeated
rules reported, and gives the same answers. -/
theorem order_of_fields (h : t.Reordered u) :
    (t.validate = .ok () ↔ u.validate = .ok ()) ∧ t.duplicates = u.duplicates ∧
      ∀ facts, SameAnswer Columns.Agree (t.evaluate facts) (u.evaluate facts) := by
  obtain ⟨hreport, hend⟩ := inspect_reordered h
  have hv : t.validate = .ok () ↔ u.validate = .ok () := by
    rw [validate_eq_ok_iff, validate_eq_ok_iff, hend]
  exact ⟨hv, hreport, h.alike.evaluate hv⟩

end Table

def Columns.reversed {α : Type} (c : Columns α) : Columns α where
  entries := c.entries.reverse
  distinct := by
    rw [List.map_reverse]
    exact List.nodup_reverse.2 c.distinct

def Rule.reversed (r : Rule) : Rule :=
  { r with conditions := r.conditions.reversed, output := r.output.reversed }

namespace Table

def reversed (t : Table) : Table :=
  { t with inputs := t.inputs.reversed, rules := t.rules.map Rule.reversed }

theorem reordered_reversed (t : Table) : t.Reordered t.reversed where
  eq_with := rfl
  inputs := (List.reverse_perm _).symm
  rules := by
    refine List.forall₂_map_right_iff.2 (List.forall₂_same.2 fun r _ => ?_)
    exact ⟨rfl, (List.reverse_perm _).symm, (List.reverse_perm _).symm⟩

theorem order_of_fields_echoing :
    echoing.Reordered echoing.reversed ∧ echoing ≠ echoing.reversed ∧
      echoing.reversed.validate = .ok () ∧ echoing.reversed.duplicates = [⟨1, 0⟩] ∧
      SameAnswer Columns.Agree (echoing.evaluate (intake 2 true))
        (echoing.reversed.evaluate (intake 2 true)) := by
  have h := reordered_reversed echoing
  obtain ⟨hv, hreport, hanswers⟩ := order_of_fields h
  have hne : echoing ≠ echoing.reversed := by
    intro heq
    have hnames := congrArg (fun t : Table => t.inputs.names) heq
    exact absurd hnames (by decide)
  exact ⟨h, hne, hv.1 rfl, hreport.symm.trans rfl, hanswers _⟩

end Table

end Followup
