import Followup.Proofs.Rules.Likeness

/-! What a condition excludes is a set, written as a list. How it is listed makes no difference to
the rules that apply, and none to whether a table is accepted as long as rules that ask for the same
and put out different things are written alike. Rules that are not are taken for different ones: the
check lets both pass, though the later one is never reached. -/

namespace Followup

variable {t u : Table} {r s : Rule}

theorem lookup_rel {α : Type} {S : α → α → Prop} {l l' : List (String × α)}
    (h : List.Forall₂ (fun e f => e.1 = f.1 ∧ S e.2 f.2) l l') (name : String) :
    Option.Rel S (l.lookup name) (l'.lookup name) := by
  induction h with
  | nil => exact .none
  | @cons e f _ _ hef _ ih =>
    obtain ⟨n, a⟩ := e
    obtain ⟨m, b⟩ := f
    obtain ⟨rfl, hab⟩ := hef
    rw [List.lookup_cons, List.lookup_cons]
    cases name == n with
    | true => exact .some hab
    | false => exact ih

namespace Rule

/-- The rules are the same but for the order and the repeats of what their conditions exclude. -/
structure Relisted (r s : Rule) : Prop where
  description : r.description = s.description
  conditions : List.Forall₂ (fun e f => e.1 = f.1 ∧ e.2.Alike f.2)
    r.conditions.entries s.conditions.entries
  output : r.output = s.output

theorem Relisted.symm (h : r.Relisted s) : s.Relisted r where
  description := h.description.symm
  conditions := h.conditions.flip.imp fun _ _ hef => ⟨hef.1.symm, hef.2.symm⟩
  output := h.output.symm

theorem Relisted.alike (h : r.Relisted s) : r.Alike s := lookup_rel h.conditions

def Clashes (r s : Rule) : Prop := r.Alike s ∧ ¬ r.output.Agree s.output

end Rule

namespace Table

/-- The tables are the same but for the order and the repeats of what their conditions exclude. -/
structure Relisted (t u : Table) : Prop where
  eq_with : u = { t with rules := u.rules }
  rules : List.Forall₂ Rule.Relisted t.rules u.rules

theorem Relisted.symm (h : t.Relisted u) : u.Relisted t where
  eq_with := by rw [h.eq_with]
  rules := h.rules.flip.imp fun _ _ hrs => hrs.symm

theorem Relisted.alike (h : t.Relisted u) : t.Alike Eq u where
  id_eq := by rw [h.eq_with]
  inputs := by rw [h.eq_with]; exact Columns.Agree.refl _
  rules := h.rules.imp fun _ _ hrs => ⟨hrs.alike, hrs.output⟩

def Clashing (t : Table) : Prop := ∃ r ∈ t.rules, ∃ s ∈ t.rules, r.Clashes s

/-- Two rules with equal conditions, in which all is listed alike, put out different things. -/
def Conflicting (t : Table) : Prop := ∃ r ∈ t.rules, ∃ s ∈ t.rules, ¬ r.Consistent s

theorem laidOut_iff : t.LaidOut ↔ t.Sound ∧ ¬ t.Conflicting := by
  constructor
  · rintro h
    exact ⟨h.toSound, fun ⟨r, hr, s, hs, hrs⟩ => hrs (h.consistent r hr s hs)⟩
  · rintro ⟨hsound, hnone⟩
    exact ⟨hsound, fun r hr s hs => by_contra fun hrs => hnone ⟨r, hr, s, hs, hrs⟩⟩

theorem refused_of_conflicting (h : t.Conflicting) : t.validate ≠ .ok () :=
  fun hv => (laidOut_iff.1 (validate_eq_ok.1 hv)).2 h

theorem Conflicting.clashing (h : t.Conflicting) : t.Clashing := by
  obtain ⟨r, hr, s, hs, hrs⟩ := h
  obtain ⟨hagree, hdiffer⟩ := Classical.not_imp.1 hrs
  exact ⟨r, hr, s, hs, Rule.alike_of_agree hagree, hdiffer⟩

theorem Clashing.of_alike (h : t.Alike Eq u) (ht : t.Clashing) : u.Clashing := by
  obtain ⟨r, hr, s, hs, halike, hdiffer⟩ := ht
  obtain ⟨i, hi⟩ := List.mem_iff_getElem?.1 hr
  obtain ⟨j, hj⟩ := List.mem_iff_getElem?.1 hs
  obtain ⟨r', hr', hrr', hout⟩ := h.exists_rule hi
  obtain ⟨s', hs', hss', hout'⟩ := h.exists_rule hj
  refine ⟨r', List.mem_of_getElem? hr', s', List.mem_of_getElem? hs', ?_, hout ▸ hout' ▸ hdiffer⟩
  exact hrr'.symm.trans (halike.trans hss')

theorem Relisted.accepted (h : t.Relisted u) (ht : t.Clashing → t.Conflicting)
    (hv : t.validate = .ok ()) : u.validate = .ok () := by
  obtain ⟨hsound, hnone⟩ := laidOut_iff.1 (validate_eq_ok.1 hv)
  have hnone' : ¬ u.Conflicting := fun hu => hnone (ht (hu.clashing.of_alike h.symm.alike))
  exact validate_eq_ok.2 (laidOut_iff.2 ⟨h.alike.sound hsound, hnone'⟩)

/-- However what is excluded is listed, a table is accepted or refused alike and gives the same
answers, and rules that clash have both tables refused, if such rules in either table are found to
be in conflict: two of them list what they exclude in the same way. -/
theorem lists_as_sets (h : t.Relisted u) (ht : t.Clashing → t.Conflicting)
    (hu : u.Clashing → u.Conflicting) :
    (t.validate = .ok () ↔ u.validate = .ok ()) ∧
      (t.Clashing → t.validate ≠ .ok () ∧ u.validate ≠ .ok ()) ∧
      (t.Clashing → t.Sound →
        (∃ i j, t.validate = .error (.malformed t.id (.conflict i j))) ∧
        ∃ i j, u.validate = .error (.malformed u.id (.conflict i j))) ∧
      ∀ facts, SameAnswer Eq (t.evaluate facts) (u.evaluate facts) := by
  have hv : t.validate = .ok () ↔ u.validate = .ok () := ⟨h.accepted ht, h.symm.accepted hu⟩
  have hrefused (hclash : t.Clashing) : t.validate ≠ .ok () ∧ u.validate ≠ .ok () := by
    have hconflict := refused_of_conflicting (ht hclash)
    exact ⟨hconflict, mt hv.2 hconflict⟩
  refine ⟨hv, hrefused, ?_, h.alike.evaluate hv⟩
  intro hclash hsound
  obtain ⟨hne, hne'⟩ := hrefused hclash
  exact ⟨hsound.conflict hne, (h.alike.sound hsound).conflict hne'⟩

def excluding (first second : List String) (escalate escalate' : Bool) : Table where
  apiVersion := "v1"
  kind := RuleError.tableKind
  id := "exclusions"
  name := "Exclusions"
  description := none
  inputs := .empty
  rules := [
    { description := none
      conditions := .ofList [(Field.triggerReason, .notIn (first.map .text))]
      output := .ofList [("escalate", .bool escalate)] },
    { description := none
      conditions := .ofList [(Field.triggerReason, .notIn (second.map .text))]
      output := .ofList [("escalate", .bool escalate')] }]

variable {first first' second second' : List String} {a b : Bool}

theorem alike_texts : (Predicate.notIn (first.map .text)).Alike (.notIn (second.map .text)) ↔
    ∀ v, v ∈ first ↔ v ∈ second := by
  have htext : Function.Injective Fact.text := fun _ _ h => Fact.text.inj h
  constructor
  · intro h v
    rw [← List.mem_map_of_injective htext, ← List.mem_map_of_injective htext]
    generalize hvs : first.map Fact.text = vs at h
    generalize hws : second.map Fact.text = ws at h
    cases h with
    | refl => exact Iff.rfl
    | notIn h => exact h _
  · intro h
    refine .notIn fun v => ?_
    simp only [List.mem_map, h]

theorem relisted_excluding (h : ∀ v, v ∈ first ↔ v ∈ first') (h' : ∀ v, v ∈ second ↔ v ∈ second') :
    (excluding first second a b).Relisted (excluding first' second' a b) where
  eq_with := rfl
  rules := .cons ⟨rfl, .cons ⟨rfl, alike_texts.2 h⟩ .nil, rfl⟩
    (.cons ⟨rfl, .cons ⟨rfl, alike_texts.2 h'⟩ .nil, rfl⟩ .nil)

theorem not_clashing_excluding (h : ¬ ∀ v, v ∈ first ↔ v ∈ second) :
    ¬ (excluding first second a b).Clashing := by
  rintro ⟨r, hr, s, hs, halike, hdiffer⟩
  have hlisted := halike Field.triggerReason
  simp only [excluding, List.mem_cons, List.not_mem_nil, or_false] at hr hs
  rcases hr with rfl | rfl
  · rcases hs with rfl | rfl
    · exact hdiffer (Columns.Agree.refl _)
    · cases hlisted with
      | some hlisted => exact h (alike_texts.1 hlisted)
  · rcases hs with rfl | rfl
    · cases hlisted with
      | some hlisted => exact h (alike_texts.1 hlisted.symm)
    · exact hdiffer (Columns.Agree.refl _)

def once : Table := excluding ["SUCCESS", "DUPLICATE"] ["SUCCESS"] true false

def twice : Table :=
  excluding ["DUPLICATE", "SUCCESS", "DUPLICATE"] ["SUCCESS", "SUCCESS"] true false

def even : Table := excluding ["SUCCESS", "DUPLICATE"] ["SUCCESS", "DUPLICATE"] true false

def swapped : Table := excluding ["DUPLICATE", "SUCCESS"] ["DUPLICATE", "SUCCESS"] true false

def crossed : Table := excluding ["SUCCESS", "DUPLICATE"] ["DUPLICATE", "SUCCESS"] true false

theorem conflicting_excluding : (excluding first first true false).Conflicting := by
  refine ⟨_, .head _, _, .tail _ (.head _), fun hconsistent => ?_⟩
  have hescalate := hconsistent (Columns.Agree.refl _) "escalate"
  exact absurd (Fact.bool.inj (Option.some.inj hescalate)) (by decide)

theorem lists_as_sets_sampled :
    (once.Relisted twice ∧ ¬ once.Clashing ∧ ¬ twice.Clashing ∧ twice.validate = .ok () ∧
      SameAnswer Eq (.ok (.matched 1 (.ofList [("escalate", .bool false)])))
        (twice.evaluate (.ofList [(Field.triggerReason, .text "DUPLICATE")]))) ∧
    even.Relisted swapped ∧ even.Clashing ∧ even.Sound ∧
      ∃ i j, swapped.validate = .error (.malformed "exclusions" (.conflict i j)) := by
  constructor
  · have h : once.Relisted twice := relisted_excluding (by simp [or_comm]) (by simp)
    have ht : ¬ once.Clashing :=
      not_clashing_excluding fun h => absurd ((h "DUPLICATE").1 (by decide)) (by decide)
    have hu : ¬ twice.Clashing :=
      not_clashing_excluding fun h => absurd ((h "DUPLICATE").1 (by decide)) (by decide)
    obtain ⟨hv, -, -, hanswers⟩ := lists_as_sets h (absurd · ht) (absurd · hu)
    exact ⟨h, ht, hu, hv.1 rfl, hanswers (.ofList [(Field.triggerReason, .text "DUPLICATE")])⟩
  · have h : even.Relisted swapped :=
      relisted_excluding (by simp [or_comm]) (by simp [or_comm])
    have hlike : crossed.Relisted even := relisted_excluding (fun _ => Iff.rfl) (by simp [or_comm])
    have hclash : even.Clashing := conflicting_excluding.clashing
    -- Nothing but the conflict is wrong with it: the same lists in other orders are accepted.
    have hsound : even.Sound := hlike.alike.sound (validate_eq_ok.1 rfl).toSound
    obtain ⟨-, -, hconflict, -⟩ :=
      lists_as_sets h (fun _ => conflicting_excluding) (fun _ => conflicting_excluding)
    exact ⟨h, hclash, hsound, (hconflict hclash hsound).2⟩

theorem crossed_accepted :
    even.Relisted crossed ∧ even.validate = .error (.malformed "exclusions" (.conflict 0 1)) ∧
      crossed.validate = .ok () ∧
      ∀ facts o, crossed.evaluate facts ≠ .ok (.matched 1 o) := by
  have h : even.Relisted crossed := relisted_excluding (fun _ => Iff.rfl) (by simp [or_comm])
  refine ⟨h, rfl, rfl, fun facts o heval => ?_⟩
  have halike : (crossed.rules[0]).Alike (crossed.rules[1]) :=
    lookup_rel (.cons ⟨rfl, alike_texts.2 (by simp [or_comm])⟩ .nil)
  exact not_isLeast_of_alike Nat.zero_lt_one rfl rfl halike (isLeast_of_matched heval)

end Table

end Followup
