import Followup.Text.Words
import Mathlib.Data.List.TakeWhile

/-! Lower case, told without a way to compute it: each character has its own one, but a capital
sigma has another one at the end of a word. What a humanized text is then follows, and for plain
texts it is what everybody expects. -/

namespace Followup.Text

namespace CaseRun

variable {r : CaseRun} {rs : List CaseRun} {n : Nat}

def Ordered (rs : List CaseRun) : Prop :=
  rs.Pairwise fun r s => r.first ≤ s.first ∧ r.last < s.first

instance (rs : List CaseRun) : Decidable (Ordered rs) :=
  inferInstanceAs (Decidable (rs.Pairwise _))

theorem ordered_toLower : Ordered toLower := by decide +kernel

theorem bounds_of_has (h : r.has n = true) : r.first ≤ n ∧ n ≤ r.last := by
  rw [has, Bool.and_eq_true, Bool.and_eq_true, decide_eq_true_iff, decide_eq_true_iff] at h
  exact h.1

theorem apply_of_has (hs : Ordered rs) (hr : r ∈ rs) (h : r.has n = true) :
    apply rs n = (n + r.delta).toNat := by
  obtain ⟨hfirst, -⟩ := bounds_of_has h
  induction rs with
  | nil => cases hr
  | cons s rs ih =>
    obtain ⟨hahead, hs⟩ := List.pairwise_cons.1 hs
    rw [apply]
    rcases List.mem_cons.1 hr with rfl | hr
    · rw [if_neg (Nat.not_lt.2 hfirst), if_pos h]
    · obtain ⟨hle, hlast⟩ := hahead r hr
      have hnot : ¬ s.has n = true := fun hn =>
        absurd (bounds_of_has hn).2 (Nat.not_le.2 (hlast.trans_le hfirst))
      rw [if_neg (Nat.not_lt.2 (hle.trans hfirst)), if_neg hnot, ih hs hr]

theorem apply_of_none (h : ∀ r ∈ rs, r.has n = false) : apply rs n = n := by
  induction rs with
  | nil => rfl
  | cons s rs ih =>
    obtain ⟨hs, h⟩ := List.forall_mem_cons.1 h
    rw [apply, hs, if_neg Bool.false_ne_true, ih h, ite_self]

end CaseRun

variable {before cs out low : List Char} {c : Char}

inductive LowerOf : Char → List Char → Prop
  | dotted : LowerOf 'İ' ['i', Char.ofNat 0x307]
  | moved {c : Char} {r : CaseRun} (hr : r ∈ CaseRun.toLower) (h : r.has c.toNat = true) :
    LowerOf c [Char.ofNat (c.toNat + r.delta).toNat]
  | same {c : Char} (hc : c ≠ 'İ') (h : ∀ r ∈ CaseRun.toLower, r.has c.toNat = false) :
    LowerOf c [c]

theorem lowerOf_iff : LowerOf c low ↔ low = lowerChar c := by
  have hdotted : ∀ r ∈ CaseRun.toLower, r.has 'İ'.toNat = false := by decide +kernel
  constructor
  · rintro (_ | ⟨hr, h⟩ | ⟨hc, h⟩)
    · rfl
    · have hc : c ≠ 'İ' := by
        rintro rfl
        exact Bool.false_ne_true ((hdotted _ hr).symm.trans h)
      rw [lowerChar, if_neg hc, CaseRun.apply_of_has CaseRun.ordered_toLower hr h]
    · rw [lowerChar, if_neg hc, CaseRun.apply_of_none h, Char.ofNat_toNat]
  · rintro rfl
    rw [lowerChar]
    split
    · next hc =>
      subst hc
      exact .dotted
    · next hc =>
      by_cases h : ∃ r ∈ CaseRun.toLower, r.has c.toNat = true
      · obtain ⟨r, hr, h⟩ := h
        rw [CaseRun.apply_of_has CaseRun.ordered_toLower hr h]
        exact .moved hr h
      · have hnone : ∀ r ∈ CaseRun.toLower, r.has c.toNat = false := fun r hr =>
          Bool.eq_false_iff.2 fun hn => h ⟨r, hr, hn⟩
        rw [CaseRun.apply_of_none hnone, Char.ofNat_toNat]
        exact .same hc hnone

/-- Of the characters that count, the first one is a letter with a case. -/
def LetterFirst (cs : List Char) : Prop :=
  ∃ marks c rest, cs = marks ++ c :: rest ∧ (∀ d ∈ marks, isIgnorable d = true) ∧
    isIgnorable c = false ∧ isCased c = true

def LetterLast (cs : List Char) : Prop :=
  ∃ front c marks, cs = front ++ c :: marks ∧ (∀ d ∈ marks, isIgnorable d = true) ∧
    isIgnorable c = false ∧ isCased c = true

/-- The lower case of what follows on some characters. -/
inductive Lowers : List Char → List Char → List Char → Prop
  | nil (before : List Char) : Lowers before [] []
  | final {before cs out : List Char} (hbefore : LetterLast before) (hafter : ¬ LetterFirst cs)
    (h : Lowers (before ++ ['Σ']) cs out) : Lowers before ('Σ' :: cs) ('ς' :: out)
  | char {before cs out low : List Char} {c : Char}
    (hc : ¬ (c = 'Σ' ∧ LetterLast before ∧ ¬ LetterFirst cs)) (hlow : LowerOf c low)
    (h : Lowers (before ++ [c]) cs out) : Lowers before (c :: cs) (low ++ out)

def Humanizes (cs out : List Char) : Prop :=
  Lowers [] (cs.map fun c => if c = '_' then ' ' else c) out

theorem letterFirst_iff : LetterFirst cs ↔ reachesCased cs = true := by
  constructor
  · rintro ⟨marks, c, rest, rfl, hmarks, hc, hcased⟩
    rw [reachesCased, List.dropWhile_append_of_pos hmarks,
      List.dropWhile_cons_of_neg (Bool.eq_false_iff.1 hc)]
    exact hcased
  · intro h
    rw [reachesCased] at h
    split at h
    · cases h
    · next c rest hdrop =>
      refine ⟨cs.takeWhile isIgnorable, c, rest, ?_, fun d => List.mem_takeWhile_imp, ?_, h⟩
      · rw [← hdrop, List.takeWhile_append_dropWhile]
      · have hhead := List.head_dropWhile_not isIgnorable (l := cs) (by simp [hdrop])
        simpa only [hdrop, List.head_cons] using hhead

theorem letterLast_iff : LetterLast before ↔ LetterFirst before.reverse := by
  constructor
  · rintro ⟨front, c, marks, rfl, hmarks, hc⟩
    refine ⟨marks.reverse, c, front.reverse, by simp, fun d hd => ?_, hc⟩
    exact hmarks d (List.mem_reverse.1 hd)
  · rintro ⟨marks, c, rest, hbefore, hmarks, hc⟩
    refine ⟨rest.reverse, c, marks.reverse, ?_, fun d hd => hmarks d (List.mem_reverse.1 hd), hc⟩
    rw [← List.reverse_reverse before, hbefore]
    simp

theorem final_iff : (c = 'Σ' ∧ LetterLast before ∧ ¬ LetterFirst cs) ↔
    c = 'Σ' ∧ reachesCased before.reverse = true ∧ ¬ reachesCased cs = true := by
  rw [letterLast_iff, letterFirst_iff, letterFirst_iff]

theorem lowers_iff : Lowers before cs out ↔ out = lowerAfter before.reverse cs := by
  constructor
  · intro h
    induction h with
    | nil => rfl
    | final hbefore hafter _ ih =>
      rw [lowerAfter, if_pos (final_iff.1 ⟨rfl, hbefore, hafter⟩), ih]
      simp
    | char hc hlow _ ih =>
      rw [lowerAfter, if_neg (mt final_iff.2 hc), ih, lowerOf_iff.1 hlow]
      simp
  · rintro rfl
    induction cs generalizing before with
    | nil => exact .nil before
    | cons c cs ih =>
      have hrest : Lowers (before ++ [c]) cs (lowerAfter (c :: before.reverse) cs) := by
        simpa using @ih (before ++ [c])
      rw [lowerAfter]
      split
      · next hfinal =>
        obtain ⟨rfl, hbefore, hafter⟩ := final_iff.2 hfinal
        exact .final hbefore hafter hrest
      · next hc => exact .char (mt final_iff.1 hc) (lowerOf_iff.2 rfl) hrest

theorem humanizes_iff {s : String} : Humanizes s.toList out ↔ out = (humanized s).toList := by
  rw [Humanizes, lowers_iff, humanized, lowered, String.toList_ofList, String.toList_ofList]
  rfl

theorem lowerChar_plain (h : c.toNat < 128) : lowerChar c = [c.toLower] := by
  have hall : ∀ n < 128, lowerChar (Char.ofNat n) = [(Char.ofNat n).toLower] := by decide +kernel
  have hc := hall c.toNat h
  rwa [Char.ofNat_toNat] at hc

theorem lowerAfter_plain (h : ∀ c ∈ cs, c.toNat < 128) (before : List Char) :
    lowerAfter before cs = cs.map Char.toLower := by
  induction cs generalizing before with
  | nil => rfl
  | cons c cs ih =>
    obtain ⟨hc, h⟩ := List.forall_mem_cons.1 h
    have hsigma : c ≠ 'Σ' := by
      rintro rfl
      exact absurd hc (by decide)
    rw [lowerAfter, if_neg fun hfinal => hsigma hfinal.1, lowerChar_plain hc, ih h]
    rfl

theorem humanizes_plain (h : ∀ c ∈ cs, c.toNat < 128) :
    Humanizes cs out ↔ out = cs.map fun c => if c = '_' then ' ' else c.toLower := by
  have hblanked : ∀ c ∈ cs.map fun c => if c = '_' then ' ' else c, c.toNat < 128 := by
    intro c hc
    obtain ⟨d, hd, rfl⟩ := List.mem_map.1 hc
    split
    · decide
    · exact h d hd
  rw [Humanizes, lowers_iff, lowerAfter_plain hblanked, List.map_map]
  have hlower (c : Char) : (if c = '_' then ' ' else c).toLower =
      if c = '_' then ' ' else c.toLower := apply_ite Char.toLower _ _ _
  simp only [Function.comp_def, hlower]

end Followup.Text
