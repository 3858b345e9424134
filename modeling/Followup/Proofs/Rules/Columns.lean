import Followup.Rules.Columns
import Mathlib.Data.List.Nodup
import Mathlib.Data.List.Perm.Subperm

/-! Columns as finite maps. Two of them are equal as maps if the same value is found under every
name, which is so just where one lists the entries of the other in some order, and just where the
comparison says so. -/

namespace Followup

section Lookup

variable {κ α : Type} [BEq κ] [LawfulBEq κ] {l l' : List (κ × α)} {key : κ} {value : α}

theorem mem_of_lookup (h : l.lookup key = some value) : (key, value) ∈ l := by
  obtain ⟨before, after, hl, -⟩ := List.lookup_eq_some_iff.1 h
  exact hl ▸ List.mem_append_right _ (.head _)

theorem lookup_of_mem (hkeys : (l.map Prod.fst).Nodup) (h : (key, value) ∈ l) :
    l.lookup key = some value := by
  obtain ⟨before, after, hl⟩ := List.append_of_mem h
  rw [hl, List.map_append, List.map_cons] at hkeys
  refine List.lookup_eq_some_iff.2 ⟨before, after, hl, ?_⟩
  intro f hf
  have hne := (List.nodup_append.1 hkeys).2.2 f.1 (List.mem_map_of_mem hf) key (.head _)
  exact bne_iff_ne.2 hne.symm

theorem mem_iff_lookup (hkeys : (l.map Prod.fst).Nodup) :
    (key, value) ∈ l ↔ l.lookup key = some value :=
  ⟨lookup_of_mem hkeys, mem_of_lookup⟩

theorem perm_iff_lookup (hl : (l.map Prod.fst).Nodup) (hl' : (l'.map Prod.fst).Nodup) :
    l.Perm l' ↔ ∀ key, l.lookup key = l'.lookup key := by
  rw [List.perm_ext_iff_of_nodup (hl.of_map _) (hl'.of_map _)]
  constructor
  · intro h key
    refine Option.ext fun value => ?_
    rw [← mem_iff_lookup hl, ← mem_iff_lookup hl', h]
  · rintro h ⟨key, value⟩
    rw [mem_iff_lookup hl, mem_iff_lookup hl', h]

end Lookup

namespace Columns

variable {α : Type} {a a' b b' c : Columns α} {name : String} {value : α} {e : String × α}

theorem isEmpty_iff : c.isEmpty = true ↔ c.entries = [] := List.isEmpty_iff

theorem mem_putIn {l : List (String × α)} (he : e ∈ putIn name value l) :
    e = (name, value) ∨ e ∈ l := by
  induction l with
  | nil => exact .inl (List.mem_singleton.1 he)
  | cons f rest ih =>
    obtain ⟨n, v⟩ := f
    rw [putIn] at he
    split at he
    · exact (List.mem_cons.1 he).imp_right (.tail _)
    · rcases List.mem_cons.1 he with rfl | he
      · exact .inr (.head _)
      · exact (ih he).imp_right (.tail _)

theorem lookup_cons_eq (n : String) (v : α) (l : List (String × α)) (other : String) :
    ((n, v) :: l).lookup other = if other = n then some v else l.lookup other := by
  rw [List.lookup_cons]
  by_cases h : other = n
  · rw [beq_iff_eq.2 h, if_pos h]
  · rw [beq_eq_false_iff_ne.2 h, if_neg h]

theorem lookup_putIn (name : String) (value : α) (l : List (String × α)) (other : String) :
    (putIn name value l).lookup other = if other = name then some value else l.lookup other := by
  induction l with
  | nil => exact lookup_cons_eq name value [] other
  | cons f rest ih =>
    obtain ⟨n, v⟩ := f
    rw [putIn, lookup_cons_eq]
    split
    · next hn =>
      subst hn
      rw [lookup_cons_eq]
      by_cases h : other = n
      · rw [if_pos h, if_pos h]
      · rw [if_neg h, if_neg h, if_neg h]
    · next hn =>
      rw [lookup_cons_eq, ih]
      by_cases h : other = name
      · have hne : other ≠ n := fun heq => hn (heq.symm.trans h)
        rw [if_neg hne, if_pos h, if_pos h]
      · rw [if_neg h, if_neg h]

theorem get?_put (c : Columns α) (name : String) (value : α) (other : String) :
    (c.put name value).get? other = if other = name then some value else c.get? other :=
  lookup_putIn name value c.entries other

theorem mem_of_get? (h : c.get? name = some value) : (name, value) ∈ c.entries := mem_of_lookup h

theorem get?_of_mem (h : (name, value) ∈ c.entries) : c.get? name = some value :=
  lookup_of_mem c.distinct h

theorem mem_names : name ∈ c.names ↔ ∃ value, c.get? name = some value := by
  constructor
  · intro hname
    obtain ⟨⟨n, value⟩, he, rfl⟩ := List.mem_map.1 hname
    exact ⟨value, get?_of_mem he⟩
  · rintro ⟨value, h⟩
    exact List.mem_map_of_mem (mem_of_get? h)

theorem nodup_entries (c : Columns α) : c.entries.Nodup := c.distinct.of_map _

/-- Equal as maps: under every name both have the same value, or both have none. -/
def Agree (a b : Columns α) : Prop := ∀ name, a.get? name = b.get? name

theorem Agree.refl (a : Columns α) : a.Agree a := fun _ => rfl

theorem Agree.symm (h : a.Agree b) : b.Agree a := fun name => (h name).symm

theorem Agree.trans (hab : a.Agree b) (hbc : b.Agree c) : a.Agree c :=
  fun name => (hab name).trans (hbc name)

theorem Agree.congr (ha : a.Agree a') (hb : b.Agree b') : a.Agree b ↔ a'.Agree b' :=
  ⟨fun h => ha.symm.trans (h.trans hb), fun h => ha.trans (h.trans hb.symm)⟩

theorem agree_iff_perm : a.Agree b ↔ a.entries.Perm b.entries :=
  (perm_iff_lookup a.distinct b.distinct).symm

theorem Agree.entries_eq_nil (h : a.Agree b) : a.entries = [] ↔ b.entries = [] := by
  have hlength := (agree_iff_perm.1 h).length_eq
  rw [← List.length_eq_zero_iff, ← List.length_eq_zero_iff, hlength]

variable [DecidableEq α]

theorem same_iff_agree : a.same b = true ↔ a.Agree b := by
  rw [same, Bool.and_eq_true, beq_iff_eq, List.all_eq_true, agree_iff_perm]
  constructor
  · rintro ⟨hsize, hall⟩
    have hsubset : a.entries ⊆ b.entries :=
      fun e he => mem_of_get? (of_decide_eq_true (hall e he))
    -- As many entries, and all of them among the others: it is a rearrangement.
    have hsubperm := List.subperm_of_subset a.nodup_entries hsubset
    exact hsubperm.perm_of_length_le (Nat.le_of_eq hsize.symm)
  · intro hperm
    refine ⟨hperm.length_eq, fun e he => decide_eq_true ?_⟩
    exact get?_of_mem (hperm.subset he)

theorem same_congr (ha : a.Agree a') (hb : b.Agree b') : a.same b = a'.same b' := by
  rw [Bool.eq_iff_iff, same_iff_agree, same_iff_agree, ha.congr hb]

end Columns

end Followup
