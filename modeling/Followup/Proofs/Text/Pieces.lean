import Followup.Text.Blank
import Followup.Text.Split
import Mathlib.Data.List.DropRight

/-! The parts of a text: what is left of it without the blanks at its ends, and the pieces between
its separators. Blanks around a text are never seen by those who trim it, and pieces without the
separator are the ones that a text is made of. -/

namespace Followup

namespace Text

variable {cs blanks : List Char} {c sep : Char}

def AreBlank (cs : List Char) : Prop := ∀ c ∈ cs, isBlank c = true

instance (cs : List Char) : Decidable (AreBlank cs) :=
  List.decidableBAll (fun c => isBlank c = true) cs

theorem trim_blank_append (h : AreBlank blanks) (cs : List Char) : trim (blanks ++ cs) = trim cs := by
  rw [trim, trimLeft, List.dropWhile_append_of_pos h]
  rfl

theorem trim_append_blank (h : AreBlank blanks) (cs : List Char) : trim (cs ++ blanks) = trim cs := by
  rw [trim, trimLeft, List.dropWhile_append]
  split
  · next hnil =>
    rw [List.isEmpty_iff] at hnil
    rw [List.dropWhile_eq_nil_iff.2 h, trim, trimLeft, hnil]
  · have hback : AreBlank blanks.reverse := fun c hc => h c (List.mem_reverse.1 hc)
    rw [trimRight, List.reverse_append, List.dropWhile_append_of_pos hback]
    rfl

theorem exists_trim (cs : List Char) :
    ∃ before after, AreBlank before ∧ AreBlank after ∧ cs = before ++ (trim cs ++ after) := by
  refine ⟨cs.takeWhile isBlank, (trimLeft cs).rtakeWhile isBlank, fun c hc => ?_, fun c hc => ?_, ?_⟩
  · exact List.mem_takeWhile_imp hc
  · exact List.mem_rtakeWhile_imp hc
  · change cs = _ ++ (List.rdropWhile isBlank (trimLeft cs) ++ _)
    rw [List.rdropWhile_append_rtakeWhile, trimLeft, List.takeWhile_append_dropWhile]

theorem trim_trim (cs : List Char) : trim (trim cs) = trim cs := by
  obtain ⟨before, after, hbefore, hafter, hcs⟩ := exists_trim cs
  have hsame := congrArg trim hcs
  rw [trim_blank_append hbefore, trim_append_blank hafter] at hsame
  exact hsame.symm

theorem mem_trim (hmem : c ∈ cs) (hc : isBlank c = false) : c ∈ trim cs := by
  obtain ⟨before, after, hbefore, hafter, hcs⟩ := exists_trim cs
  have hno {blanks : List Char} (h : AreBlank blanks) : c ∉ blanks := fun hin => by
    cases (h c hin).symm.trans hc
  rw [hcs, List.mem_append, List.mem_append] at hmem
  exact (hmem.resolve_left (hno hbefore)).resolve_right (hno hafter)

theorem trim_eq_nil : trim cs = [] ↔ AreBlank cs := by
  constructor
  · intro h c hc
    by_contra hno
    exact List.ne_nil_of_mem (mem_trim hc (Bool.eq_false_iff.2 hno)) h
  · intro h
    have hnil := trim_blank_append h []
    rwa [List.append_nil] at hnil

theorem split_eq_splitOn (sep : Char) (cs : List Char) : split sep cs = cs.splitOn sep := by
  induction cs with
  | nil => rfl
  | cons c cs ih =>
    rw [split, ih, List.splitOn_eq_splitOnP, List.splitOn_eq_splitOnP,
      List.splitOnP_cons_eq_if_modifyHead]
    simp only [beq_iff_eq]
    split
    · rfl
    · cases hpieces : cs.splitOnP (· == sep) with
      | nil => exact absurd hpieces (List.splitOnP_ne_nil _ _)
      | cons piece pieces => rfl

theorem split_intercalate {pieces : List (List Char)} (hne : pieces ≠ [])
    (h : ∀ piece ∈ pieces, sep ∉ piece) : split sep ([sep].intercalate pieces) = pieces := by
  rw [split_eq_splitOn]
  exact List.splitOn_intercalate sep h hne

theorem intercalate_split (sep : Char) (cs : List Char) : [sep].intercalate (split sep cs) = cs := by
  rw [split_eq_splitOn]
  exact List.intercalate_splitOn sep

end Text

end Followup
