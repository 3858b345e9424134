import Followup.Proofs.Rules.Columns
import Followup.Proofs.Rules.FirstHit
import Mathlib.Data.List.Pairwise

/-! What a table has to look like to be accepted. The check goes through the rules once, each with
its conditions first and then against the rules before it, and stops at the first thing wrong. It
accepts just the tables that are laid out well, and of these it reports every rule that repeats the
conditions of an earlier one. -/

namespace Followup

variable {t : Table} {field : String} {p : Predicate} {v : Fact} {r s e : Rule}
  {before es rs : List Rule} {found found' : List Duplicate} {d : Duplicate} {index place : Nat}

theorem bind_const_eq_ok {ε β : Type} {x : Except ε Unit} {y : Except ε β} {b : β} :
    (x >>= fun _ => y) = .ok b ↔ x = .ok () ∧ y = .ok b :=
  bind_eq_ok.trans ⟨fun ⟨(), h⟩ => h, fun h => ⟨(), h⟩⟩

theorem forM_eq_ok {ε α : Type} {l : List α} {f : α → Except ε Unit} :
    l.forM f = .ok () ↔ ∀ a ∈ l, f a = .ok () := by
  induction l with
  | nil => exact iff_of_true rfl (List.forall_mem_nil _)
  | cons a l ih =>
    rw [List.forall_mem_cons, ← ih]
    exact bind_const_eq_ok

theorem Fact.isOrdered_iff : v.isOrdered = true ↔ v.type = .integer ∨ v.type = .timestamp := by
  cases v <;> simp [isOrdered, type]

namespace Predicate

inductive Mentions : Predicate → Fact → Prop
  | equals (v : Fact) : Mentions (.equals v) v
  | notIn {vs : List Fact} {v : Fact} (h : v ∈ vs) : Mentions (.notIn vs) v
  | greaterThan (v : Fact) : Mentions (.greaterThan v) v
  | lessThan (v : Fact) : Mentions (.lessThan v) v

theorem mem_literals : v ∈ p.literals ↔ p.Mentions v := by
  constructor
  · intro h
    cases p with
    | any => cases h
    | equals w => exact List.mem_singleton.1 h ▸ .equals v
    | notIn vs => exact .notIn h
    | greaterThan w => exact List.mem_singleton.1 h ▸ .greaterThan v
    | lessThan w => exact List.mem_singleton.1 h ▸ .lessThan v
  · intro h
    cases h with
    | equals | greaterThan | lessThan => exact .head _
    | notIn h => exact h

inductive WellMade : Predicate → Prop
  | any : WellMade .any
  | equals (v : Fact) : WellMade (.equals v)
  | notIn {vs : List Fact} (h : vs ≠ []) : WellMade (.notIn vs)
  | greaterThan {v : Fact} (h : v.type = .integer ∨ v.type = .timestamp) : WellMade (.greaterThan v)
  | lessThan {v : Fact} (h : v.type = .integer ∨ v.type = .timestamp) : WellMade (.lessThan v)

def checkOperator (index : Nat) (field : String) : Predicate → Except Malformation Unit
  | .notIn [] => .error (.emptySet index field)
  | .greaterThan v | .lessThan v =>
    if v.isOrdered then .ok () else .error (.unordered index field v.type)
  | _ => .ok ()

theorem checkOperator_eq_ok : p.checkOperator index field = .ok () ↔ p.WellMade := by
  have ordered (v : Fact) (err : Malformation) :
      (if v.isOrdered then (.ok () : Except Malformation Unit) else .error err) = .ok () ↔
        v.type = .integer ∨ v.type = .timestamp := by
    rw [← Fact.isOrdered_iff]
    cases v.isOrdered with
    | true => exact iff_of_true rfl rfl
    | false => exact iff_of_false nofun nofun
  cases p with
  | any => exact iff_of_true rfl .any
  | equals v => exact iff_of_true rfl (.equals v)
  | notIn vs =>
    cases vs with
    | nil => exact iff_of_false nofun fun | .notIn h => h rfl
    | cons v vs => exact iff_of_true rfl (.notIn (List.cons_ne_nil v vs))
  | greaterThan v => exact (ordered v _).trans ⟨.greaterThan, fun | .greaterThan h => h⟩
  | lessThan v => exact (ordered v _).trans ⟨.lessThan, fun | .lessThan h => h⟩

end Predicate

namespace Table

/-- If the table declares fields, then this one, with the type of all that the condition compares
with. -/
def Declares (t : Table) (field : String) (p : Predicate) : Prop :=
  t.inputs.entries ≠ [] →
    ∃ type, t.inputs.get? field = some type ∧ ∀ v, p.Mentions v → v.type = type

def checkField (t : Table) (index : Nat) (field : String) (p : Predicate) :
    Except Malformation Unit :=
  if t.inputs.isEmpty then .ok ()
  else match t.inputs.get? field with
    | none => .error (.undeclared index field)
    | some type =>
      match p.literals.find? fun v => v.type ≠ type with
      | some v => .error (.wrongType index field type v)
      | none => .ok ()

theorem checkField_eq_ok : t.checkField index field p = .ok () ↔ t.Declares field p := by
  unfold checkField Declares
  by_cases hnone : t.inputs.entries = []
  · rw [if_pos (Columns.isEmpty_iff.2 hnone)]
    exact iff_of_true rfl (absurd hnone)
  rw [if_neg (mt Columns.isEmpty_iff.1 hnone), forall_prop_of_true hnone]
  cases t.inputs.get? field with
  | none => exact iff_of_false nofun nofun
  | some type =>
    have hright : (p.literals.find? fun v => decide (v.type ≠ type)) = none ↔
        ∀ v, p.Mentions v → v.type = type := by
      simp only [List.find?_eq_none, Predicate.mem_literals, decide_eq_true_eq, not_not]
    simp only [Option.some_inj, exists_eq_left', ← hright]
    cases p.literals.find? fun v => decide (v.type ≠ type) with
    | none => exact iff_of_true rfl rfl
    | some v => exact iff_of_false nofun nofun

theorem checkCondition_eq : t.checkCondition index field p =
    p.checkOperator index field >>= fun _ => t.checkField index field p := by
  cases p with
  | any | equals => rfl
  | notIn vs => cases vs <;> rfl
  | greaterThan v | lessThan v =>
    simp only [checkCondition, Predicate.checkOperator]
    cases v.isOrdered <;> rfl

def Admits (t : Table) (field : String) (p : Predicate) : Prop :=
  p.WellMade ∧ t.Declares field p

theorem checkCondition_eq_ok : t.checkCondition index field p = .ok () ↔ t.Admits field p := by
  rw [checkCondition_eq, bind_const_eq_ok]
  exact and_congr Predicate.checkOperator_eq_ok checkField_eq_ok

def AdmitsAll (t : Table) (r : Rule) : Prop :=
  ∀ field p, (field, p) ∈ r.conditions.entries → t.Admits field p

theorem checkConditions_eq_ok :
    (r.conditions.entries.forM fun e => t.checkCondition index e.1 e.2) = .ok () ↔
      t.AdmitsAll r := by
  rw [forM_eq_ok, AdmitsAll, Prod.forall]
  simp only [checkCondition_eq_ok]

end Table

def Rule.Consistent (r s : Rule) : Prop :=
  r.conditions.Agree s.conditions → r.output.Agree s.output

namespace Table

def copies (index : Nat) (r : Rule) (place : Nat) (es : List Rule) : List Duplicate :=
  ((es.zipIdx place).filter fun e => e.1.conditions.same r.conditions).map fun e => ⟨index, e.2⟩

theorem copies_cons (index : Nat) (r : Rule) (place : Nat) (e : Rule) (es : List Rule) :
    copies index r place (e :: es) =
      (if e.conditions.same r.conditions then [⟨index, place⟩] else []) ++
        copies index r (place + 1) es := by
  rw [copies, List.zipIdx_cons, List.filter_cons]
  split <;> rfl

theorem mem_copies : d ∈ copies index r place es ↔
    d.rule = index ∧ place ≤ d.of ∧
      ∃ e, es[d.of - place]? = some e ∧ e.conditions.Agree r.conditions := by
  simp only [copies, List.mem_map, List.mem_filter, Prod.exists,
    List.mk_mem_zipIdx_iff_le_and_getElem?_sub, Columns.same_iff_agree]
  constructor
  · rintro ⟨e, n, ⟨⟨hle, he⟩, hagree⟩, rfl⟩
    exact ⟨rfl, hle, e, he, hagree⟩
  · rintro ⟨rfl, hle, e, he, hagree⟩
    exact ⟨e, d.of, ⟨⟨hle, he⟩, hagree⟩, rfl⟩

theorem compareWith_of_consistent (h : ∀ e ∈ es, e.Consistent r) :
    compareWith index r place es found = (found ++ copies index r place es, .ok ()) := by
  induction es generalizing place found with
  | nil => rw [compareWith, copies, List.zipIdx_nil, List.filter_nil, List.map_nil, List.append_nil]
  | cons e es ih =>
    obtain ⟨he, hes⟩ := List.forall_mem_cons.1 h
    rw [compareWith, ih hes, ih hes, copies_cons]
    by_cases hsame : e.conditions.same r.conditions = true
    · have hout : e.output.same r.output = true :=
        Columns.same_iff_agree.2 (he (Columns.same_iff_agree.1 hsame))
      rw [if_pos hsame, if_pos hout, if_pos hsame, List.append_assoc]
    · rw [if_neg hsame, if_neg hsame, List.nil_append]

theorem compareWith_of_inconsistent (index place : Nat) (found : List Duplicate)
    (h : ¬ ∀ e ∈ es, e.Consistent r) :
    ∃ found' i, compareWith index r place es found = (found', .error (.conflict i index)) := by
  induction es generalizing place found with
  | nil => exact absurd (List.forall_mem_nil _) h
  | cons e es ih =>
    rw [List.forall_mem_cons, not_and] at h
    rw [compareWith]
    split
    · split
      · next hout => exact ih _ _ (h fun _ => Columns.same_iff_agree.1 hout)
      · exact ⟨_, _, rfl⟩
    · next hsame => exact ih _ _ (h fun hagree => absurd (Columns.same_iff_agree.2 hagree) hsame)

end Table

instance : Std.Symm Rule.Consistent := ⟨fun _ _ h hagree => (h hagree.symm).symm⟩

theorem Rule.pairwise_consistent :
    rs.Pairwise Rule.Consistent ↔ ∀ r ∈ rs, ∀ s ∈ rs, r.Consistent s :=
  ⟨fun h _ hr _ hs => h.forall_of_forall (fun r _ _ => Columns.Agree.refl r.output) hr hs,
    List.pairwise_of_forall_mem_list⟩

namespace Table

theorem checkRules_of_not_admits (before rs : List Rule) (found : List Duplicate)
    (hr : ¬ t.AdmitsAll r) : ∃ err, t.checkRules before (r :: rs) found = (found, .error err) := by
  rw [checkRules]
  split
  · next err _ => exact ⟨err, rfl⟩
  · next hadmits => exact absurd (checkConditions_eq_ok.1 hadmits) hr

theorem checkRules_of_compared (rs : List Rule) (hr : t.AdmitsAll r)
    (h : compareWith before.length r 0 before found = (found', .ok ())) :
    t.checkRules before (r :: rs) found = t.checkRules (before ++ [r]) rs found' := by
  simp only [checkRules, checkConditions_eq_ok.2 hr, h]

theorem checkRules_of_conflict {err : Malformation} (rs : List Rule) (hr : t.AdmitsAll r)
    (h : compareWith before.length r 0 before found = (found', .error err)) :
    t.checkRules before (r :: rs) found = (found', .error err) := by
  simp only [checkRules, checkConditions_eq_ok.2 hr, h]

theorem checkRules_of_consistent (hr : t.AdmitsAll r) (h : ∀ e ∈ before, e.Consistent r) :
    t.checkRules before (r :: rs) found =
      t.checkRules (before ++ [r]) rs (found ++ copies before.length r 0 before) :=
  checkRules_of_compared rs hr (compareWith_of_consistent h)

theorem checkRules_of_inconsistent (rs : List Rule) (found : List Duplicate) (hr : t.AdmitsAll r)
    (h : ¬ ∀ e ∈ before, e.Consistent r) :
    ∃ i j, (t.checkRules before (r :: rs) found).2 = .error (.conflict i j) := by
  obtain ⟨found', i, hi⟩ := compareWith_of_inconsistent before.length 0 found h
  exact ⟨i, before.length, congrArg Prod.snd (checkRules_of_conflict rs hr hi)⟩

theorem checkRules_ne_ok (h : ¬ (t.AdmitsAll r ∧ ∀ e ∈ before, e.Consistent r)) :
    (t.checkRules before (r :: rs) found).2 ≠ .ok () := by
  by_cases hr : t.AdmitsAll r
  · obtain ⟨i, j, hij⟩ := checkRules_of_inconsistent rs found hr fun hall => h ⟨hr, hall⟩
    rw [hij]
    exact nofun
  · obtain ⟨err, herr⟩ := checkRules_of_not_admits before rs found hr
    rw [herr]
    exact nofun

theorem checkRules_eq_ok (h : before.Pairwise Rule.Consistent) :
    (t.checkRules before rs found).2 = .ok () ↔
      (∀ r ∈ rs, t.AdmitsAll r) ∧ (before ++ rs).Pairwise Rule.Consistent := by
  -- The rules gone through already agree with each other; the step puts one more among them.
  induction rs generalizing before found with
  | nil => exact iff_of_true rfl ⟨List.forall_mem_nil _, (List.append_nil before).symm ▸ h⟩
  | cons r rs ih =>
    by_cases hr : t.AdmitsAll r ∧ ∀ e ∈ before, e.Consistent r
    · have hnext : (before ++ [r]).Pairwise Rule.Consistent := by
        simpa only [List.pairwise_append, List.pairwise_singleton, List.mem_singleton, forall_eq,
          true_and] using ⟨h, hr.2⟩
      rw [checkRules_of_consistent hr.1 hr.2, ih hnext, List.append_assoc, List.singleton_append,
        List.forall_mem_cons, and_iff_right hr.1]
    · refine iff_of_false (checkRules_ne_ok hr) ?_
      rintro ⟨hadmits, hpair⟩
      have hbefore := (List.pairwise_append.1 hpair).2.2
      exact hr ⟨hadmits r (.head _), fun e he => hbefore e he r (.head _)⟩

theorem checkRules_found (h : (t.checkRules before rs found).2 = .ok ()) :
    (t.checkRules before rs found).1 = found ++
      (rs.zipIdx before.length).flatMap fun e => copies e.2 e.1 0 ((before ++ rs).take e.2) := by
  induction rs generalizing before found with
  | nil => exact (List.append_nil found).symm
  | cons r rs ih =>
    by_cases hr : t.AdmitsAll r ∧ ∀ e ∈ before, e.Consistent r
    · rw [checkRules_of_consistent hr.1 hr.2] at h ⊢
      rw [ih h, List.zipIdx_cons, List.flatMap_cons, List.take_left, List.append_assoc,
        List.append_assoc, List.length_append, List.length_singleton, List.singleton_append]
    · exact absurd h (checkRules_ne_ok hr)

theorem checkRules_conflict (hadmits : ∀ r ∈ rs, t.AdmitsAll r)
    (h : (t.checkRules before rs found).2 ≠ .ok ()) :
    ∃ i j, (t.checkRules before rs found).2 = .error (.conflict i j) := by
  induction rs generalizing before found with
  | nil => exact absurd rfl h
  | cons r rs ih =>
    obtain ⟨hr, hrs⟩ := List.forall_mem_cons.1 hadmits
    by_cases hall : ∀ e ∈ before, e.Consistent r
    · rw [checkRules_of_consistent hr hall] at h ⊢
      exact ih hrs h
    · exact checkRules_of_inconsistent rs found hr hall

theorem catchAll?_last : (∀ place, t.catchAll? = some place → place + 1 = t.rules.length) ↔
    ∀ i r, t.rules[i]? = some r → r.Unconditional → i + 1 = t.rules.length := by
  constructor
  · intro h i r hi hr
    obtain ⟨place, hplace, hle⟩ := exists_catchAll? hi (Rule.isCatchAll_iff_unconditional.2 hr)
    have hlt := (List.getElem?_eq_some_iff.1 hi).1
    have hlast := h place hplace
    omega
  · intro h place hplace
    obtain ⟨hlt, hall, -⟩ := List.findIdx?_eq_some_iff_getElem.1 hplace
    exact h place _ (List.getElem?_eq_getElem hlt) (Rule.isCatchAll_iff_unconditional.1 hall)

theorem inspect_eq (hne : t.rules ≠ [])
    (hlast : ∀ place, t.catchAll? = some place → place + 1 = t.rules.length) :
    t.inspect = t.checkRules [] t.rules [] := by
  rw [inspect, if_neg (mt List.isEmpty_iff.1 hne)]
  cases hplace : t.catchAll? with
  | none => rfl
  | some place =>
    have hplaced := hlast place hplace
    exact if_neg (not_not.2 (by omega))

theorem inspect_eq_ok : t.inspect.2 = .ok () ↔
    t.rules ≠ [] ∧ (∀ place, t.catchAll? = some place → place + 1 = t.rules.length) ∧
      (t.checkRules [] t.rules []).2 = .ok () := by
  by_cases hne : t.rules = []
  · rw [inspect, if_pos (List.isEmpty_iff.2 hne)]
    exact iff_of_false (fun h => by cases h) fun h => h.1 hne
  by_cases hlast : ∀ place, t.catchAll? = some place → place + 1 = t.rules.length
  · rw [inspect_eq hne hlast]
    exact ⟨fun h => ⟨hne, hlast, h⟩, fun h => h.2.2⟩
  · obtain ⟨place, hplace⟩ := not_forall.1 hlast
    obtain ⟨hplace, hpast⟩ := Classical.not_imp.1 hplace
    rw [inspect_misplaced hne hplace hpast]
    exact iff_of_false (fun h => by cases h) fun h => hlast h.2.1

theorem validate_eq_ok_iff : t.validate = .ok () ↔ t.inspect.2 = .ok () := by
  rw [validate]
  cases t.inspect.2 with
  | ok _ => exact iff_of_true rfl rfl
  | error err => exact iff_of_false (fun h => by cases h) fun h => by cases h

/-- What a table needs whatever its rules put out. -/
structure Sound (t : Table) : Prop where
  rules_ne_nil : t.rules ≠ []
  unconditional_last : ∀ i r, t.rules[i]? = some r → r.Unconditional → i + 1 = t.rules.length
  admits : ∀ r ∈ t.rules, t.AdmitsAll r

/-- What a table needs to be accepted. -/
structure LaidOut (t : Table) : Prop extends t.Sound where
  consistent : ∀ r ∈ t.rules, ∀ s ∈ t.rules, r.Consistent s

theorem Sound.inspect_eq (h : t.Sound) : t.inspect = t.checkRules [] t.rules [] :=
  Table.inspect_eq h.rules_ne_nil (catchAll?_last.2 h.unconditional_last)

theorem validate_eq_ok : t.validate = .ok () ↔ t.LaidOut := by
  rw [validate_eq_ok_iff, inspect_eq_ok, catchAll?_last, checkRules_eq_ok .nil, List.nil_append,
    Rule.pairwise_consistent]
  constructor
  · rintro ⟨hne, hlast, hadmits, hconsistent⟩
    exact ⟨⟨hne, hlast, hadmits⟩, hconsistent⟩
  · rintro ⟨⟨hne, hlast, hadmits⟩, hconsistent⟩
    exact ⟨hne, hlast, hadmits, hconsistent⟩

theorem Sound.conflict (h : t.Sound) (hv : t.validate ≠ .ok ()) :
    ∃ i j, t.validate = .error (.malformed t.id (.conflict i j)) := by
  rw [ne_eq, validate_eq_ok_iff, h.inspect_eq] at hv
  obtain ⟨i, j, hij⟩ := checkRules_conflict h.admits hv
  exact ⟨i, j, by simp only [validate, h.inspect_eq, hij]⟩

theorem duplicates_eq (hv : t.validate = .ok ()) :
    t.duplicates = t.rules.zipIdx.flatMap fun e => copies e.2 e.1 0 (t.rules.take e.2) := by
  have hlaid := validate_eq_ok.1 hv
  rw [validate_eq_ok_iff] at hv
  rw [duplicates]
  rw [hlaid.inspect_eq] at hv ⊢
  exact checkRules_found hv

def Repeats (t : Table) (d : Duplicate) : Prop :=
  d.of < d.rule ∧ ∃ r s, t.rules[d.of]? = some r ∧ t.rules[d.rule]? = some s ∧
    r.conditions.Agree s.conditions

theorem mem_duplicates (hv : t.validate = .ok ()) : d ∈ t.duplicates ↔ t.Repeats d := by
  simp only [duplicates_eq hv, List.mem_flatMap, Prod.exists, List.mk_mem_zipIdx_iff_getElem?,
    mem_copies, Repeats]
  constructor
  · rintro ⟨s, j, hs, rfl, -, r, hr, hagree⟩
    rw [Nat.sub_zero, List.getElem?_take, Option.ite_none_right_eq_some] at hr
    exact ⟨hr.1, r, s, hr.2, hs, hagree⟩
  · rintro ⟨hlt, r, s, hr, hs, hagree⟩
    refine ⟨s, d.rule, hs, rfl, Nat.zero_le _, r, ?_, hagree⟩
    rwa [Nat.sub_zero, List.getElem?_take_of_lt hlt]

end Table

def Duplicate.Before (d d' : Duplicate) : Prop :=
  d.rule < d'.rule ∨ d.rule = d'.rule ∧ d.of < d'.of

theorem pairwise_zipIdx {α : Type} (l : List α) (n : Nat) :
    (l.zipIdx n).Pairwise fun a b => a.2 < b.2 := by
  have hplaces : ((l.zipIdx n).map Prod.snd).Pairwise (· < ·) := by
    rw [List.zipIdx_map_snd]
    exact List.pairwise_lt_range' 1
  exact List.pairwise_map.1 hplaces

namespace Table

theorem pairwise_copies (index : Nat) (r : Rule) (place : Nat) (es : List Rule) :
    (copies index r place es).Pairwise Duplicate.Before := by
  refine List.pairwise_map.2 (List.Pairwise.filter _ ?_)
  exact (pairwise_zipIdx es place).imp fun hlt => .inr ⟨rfl, hlt⟩

theorem pairwise_duplicates (hv : t.validate = .ok ()) :
    t.duplicates.Pairwise Duplicate.Before := by
  rw [duplicates_eq hv, List.pairwise_flatMap]
  refine ⟨fun _ _ => pairwise_copies _ _ _ _, ?_⟩
  refine (pairwise_zipIdx t.rules 0).imp fun hlt d hd d' hd' => .inl ?_
  rwa [(mem_copies.1 hd).1, (mem_copies.1 hd').1]

/-- A table is accepted just where it is laid out well: it has rules, only the last of them can be
without a condition, rules with equal conditions have equal outputs, and each condition is well made
and on a field declared for it. The report on an accepted table has each rule that repeats an
earlier one, as often as it does, in the order of the rules. -/
theorem validate_exact (t : Table) :
    (t.validate = .ok () ↔ t.LaidOut) ∧
    (t.validate = .ok () →
      (∀ d, d ∈ t.duplicates ↔ t.Repeats d) ∧ t.duplicates.Pairwise Duplicate.Before) :=
  ⟨validate_eq_ok, fun hv => ⟨fun _ => mem_duplicates hv, pairwise_duplicates hv⟩⟩

def echoing : Table :=
  { applicationValidation with
    rules := applicationValidation.rules.take 1 ++
      { description := none
        conditions := .ofList [(Field.requirementsPresent, .equals (.bool true)),
          (Field.loanApplicationCount, .equals (.int 1))]
        output := classifies "SUCCESS" } :: applicationValidation.rules.drop 1 }

theorem validate_exact_echoing :
    echoing.validate = .ok () ∧ echoing.LaidOut ∧ echoing.duplicates = [⟨1, 0⟩] ∧
      echoing.Repeats ⟨1, 0⟩ ∧ ¬ echoing.Repeats ⟨4, 0⟩ := by
  have hv : echoing.validate = .ok () := rfl
  have hreport : echoing.duplicates = [⟨1, 0⟩] := rfl
  obtain ⟨hlaid, hduplicates⟩ := validate_exact echoing
  have hrepeats := (hduplicates hv).1
  rw [hreport] at hrepeats
  exact ⟨hv, hlaid.1 hv, hreport, (hrepeats _).1 (.head _), fun h => nomatch (hrepeats _).2 h⟩

end Table

end Followup
