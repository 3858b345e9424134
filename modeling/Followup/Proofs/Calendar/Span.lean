import Followup.Proofs.Settings.Lengths
import Mathlib.Data.List.Basic

/-! Which texts are read as lengths of time, and as which. A text that writes one is read as the
total, if that is in range. No other text is read: it is malformed, or a number, a product or a sum
in it does not fit a word. -/

namespace Followup.Span

open Text Numeral

variable {text : String} {cs digits : List Char} {n m total : Nat}

inductive Computed : Nat → List Char → Nat → Prop
  | here {total seconds n : Nat} {digits cs : List Char} {unit : Char} (hne : digits ≠ [])
    (hdigits : AreDigits digits) (hunit : unit? unit = some (seconds : Int))
    (hn : n ∈ [valueOf digits, valueOf digits * seconds, total + valueOf digits * seconds]) :
    Computed total (digits ++ unit :: cs) n
  | later {total seconds n : Nat} {digits cs : List Char} {unit : Char} (hne : digits ≠ [])
    (hdigits : AreDigits digits) (hunit : unit? unit = some (seconds : Int))
    (h : Computed (total + valueOf digits * seconds) cs n) :
    Computed total (digits ++ unit :: cs) n

/-- The numbers, products and sums of a text that writes a length of time. -/
inductive Counts (text : String) : Nat → Prop
  | bare (h : AreDigits (trim text.toList)) : Counts text (valueOf (trim text.toList))
  | parts {n : Nat} (h : Computed 0 (trim text.toList) n) : Counts text n

/-- What keeps a text from writing a length of time. -/
inductive Malformed (cs : List Char) : Prop
  | empty (h : cs = [])
  /-- A character that is neither a digit nor a unit, such as a blank or a sign. -/
  | stray {c : Char} (hmem : c ∈ cs) (hdigit : isDigit c = false) (hunit : unit? c = none)
  | bareUnit {before after : List Char} {unit : Char} (h : cs = before ++ unit :: after)
    (hunit : isDigit unit = false) (hbefore : ∀ c ∈ before.getLast?, isDigit c = false)
  | bareNumber {before digits : List Char} {unit : Char} (h : cs = before ++ unit :: digits)
    (hunit : isDigit unit = false) (hne : digits ≠ []) (hdigits : AreDigits digits)

/-! ## Numbers that are too large -/

theorem Parts.split {unit : Char} {seconds : Nat} (h : Parts (digits ++ unit :: cs) m)
    (hdigits : AreDigits digits) (hunit : unit? unit = some (seconds : Int)) :
    ∃ rest, Parts cs rest ∧ m = valueOf digits * seconds + rest := by
  obtain ⟨hno, -⟩ := unit?_cases hunit
  obtain ⟨-, seconds', rest, hunit', hrest, rfl⟩ := (parts_cons hdigits hno).1 h
  obtain rfl := Int.ofNat_inj.1 (Option.some.inj (hunit.symm.trans hunit'))
  exact ⟨rest, hrest, rfl⟩

theorem Computed.le (h : Computed total cs n) (hparts : Parts cs m) : n ≤ total + m := by
  induction h generalizing m with
  | @here total seconds n digits cs unit _ hdigits hunit hn =>
    obtain ⟨rest, -, rfl⟩ := hparts.split hdigits hunit
    obtain ⟨-, _, hs, hpos⟩ := unit?_cases hunit
    obtain rfl := Int.ofNat_inj.1 hs
    have hle : valueOf digits ≤ valueOf digits * seconds := Nat.le_mul_of_pos_right _ hpos
    simp only [List.mem_cons, List.not_mem_nil, or_false] at hn
    omega
  | later _ hdigits hunit _ ih =>
    obtain ⟨rest, hrest, rfl⟩ := hparts.split hdigits hunit
    rw [← Nat.add_assoc]
    exact ih hrest

theorem computed_total (h : Parts cs m) (total : Nat) (hne : cs ≠ []) :
    Computed total cs (total + m) := by
  induction h generalizing total with
  | nil => exact absurd rfl hne
  | @cons digits unit seconds cs m hdigitsne hdigits hunit hcs ih =>
    rw [← Nat.add_assoc]
    by_cases hend : cs = []
    · subst hend
      obtain rfl := rest_nil.1 (rest_true.2 hcs)
      exact .here hdigitsne hdigits hunit (by simp)
    · exact .later hdigitsne hdigits hunit (ih _ hend)

theorem Computed.exists_unit (h : Computed total cs n) : ∃ c ∈ cs, isDigit c = false := by
  cases h with
  | here _ _ hunit => exact ⟨_, List.mem_append_right _ (.head _), (unit?_cases hunit).1⟩
  | later _ _ hunit => exact ⟨_, List.mem_append_right _ (.head _), (unit?_cases hunit).1⟩

theorem Counts.le (h : Counts text n) (hm : Writes text m) : n ≤ m := by
  cases h with
  | bare h =>
    obtain ⟨hne, -⟩ := writes_iff.1 hm
    exact (hm.unique (.bare hne h)).ge
  | parts h =>
    cases hm with
    | bare _ hdigits =>
      obtain ⟨c, hc, hno⟩ := h.exists_unit
      cases (hdigits c hc).symm.trans hno
    | parts _ hparts => exact (h.le hparts).trans (Nat.zero_add _).le

theorem counts_total (h : Writes text m) : Counts text m := by
  cases h with
  | bare _ hdigits => exact .bare hdigits
  | parts hne hparts =>
    have htotal := computed_total hparts 0 hne
    rw [Nat.zero_add] at htotal
    exact .parts htotal

theorem exists_counts_iff (h : Writes text m) :
    (∃ n, Counts text n ∧ wordEnd ≤ n) ↔ wordEnd ≤ m :=
  ⟨fun ⟨_, hn, hle⟩ => hle.trans (hn.le h), fun hle => ⟨m, counts_total h, hle⟩⟩

/-! ## Malformed texts -/

theorem Malformed.ne_nil_of_digits (h : Malformed cs) (hdigits : AreDigits cs) : cs = [] := by
  have hno {c : Char} (hmem : c ∈ cs) (hc : isDigit c = false) : cs = [] := by
    cases (hdigits c hmem).symm.trans hc
  cases h with
  | empty h => exact h
  | stray hmem hdigit => exact hno hmem hdigit
  | bareUnit h hunit => exact hno (h ▸ List.mem_append_right _ (.head _)) hunit
  | bareNumber h hunit => exact hno (h ▸ List.mem_append_right _ (.head _)) hunit

theorem Malformed.behind {unit : Char} (h : Malformed cs) (hne : cs ≠ [])
    (hunit : isDigit unit = false) (digits : List Char) : Malformed (digits ++ unit :: cs) := by
  have hsplit (before after : List Char) (u : Char) :
      digits ++ unit :: (before ++ u :: after) = (digits ++ unit :: before) ++ u :: after := by simp
  cases h with
  | empty h => exact absurd h hne
  | stray hmem hdigit hstray =>
    exact .stray (List.mem_append_right _ (.tail _ hmem)) hdigit hstray
  | @bareUnit before after u h hu hbefore =>
    subst h
    refine .bareUnit (hsplit before after u) hu fun c hc => ?_
    rw [List.getLast?_append_cons] at hc
    rcases before.eq_nil_or_concat with rfl | ⟨front, d, rfl⟩
    · cases hc
      exact hunit
    · rw [List.concat_eq_append, List.getLast?_cons, List.getLast?_concat] at hc
      cases hc
      exact hbefore d (by rw [List.concat_eq_append, List.getLast?_concat]; rfl)
  | @bareNumber before number u h hu hnumber hdigits =>
    subst h
    exact .bareNumber (hsplit before number u) hu hnumber hdigits

theorem split_behind_digits {before after : List Char} {unit u : Char} (hdigits : AreDigits digits)
    (hu : isDigit u = false) (h : digits ++ unit :: cs = before ++ u :: after) :
    (before = digits ∧ u = unit ∧ after = cs) ∨
      ∃ between, before = digits ++ unit :: between ∧ cs = between ++ u :: after := by
  rcases List.append_eq_append_iff.1 h with ⟨between, rfl, hback⟩ | ⟨rest, rfl, hback⟩
  · cases between with
    | nil =>
      obtain ⟨rfl, rfl⟩ := List.cons.inj hback
      exact .inl ⟨List.append_nil _, rfl, rfl⟩
    | cons d between =>
      obtain ⟨rfl, rfl⟩ := List.cons.inj hback
      exact .inr ⟨between, rfl, rfl⟩
  · cases rest with
    | nil =>
      obtain ⟨rfl, rfl⟩ := List.cons.inj hback
      exact .inl ⟨(List.append_nil _).symm, rfl, rfl⟩
    | cons d rest =>
      obtain ⟨rfl, -⟩ := List.cons.inj hback
      cases (hdigits u (List.mem_append_right _ (.head _))).symm.trans hu

theorem Parts.not_malformed (h : Parts cs m) (hne : cs ≠ []) : ¬ Malformed cs := by
  induction h with
  | nil => exact absurd rfl hne
  | @cons digits unit seconds cs m hdigitsne hdigits hunit hcs ih =>
    have hmore {before after : List Char} {u : Char} (hrest : cs = before ++ u :: after) : cs ≠ [] := by
      rw [hrest]
      exact List.append_ne_nil_of_right_ne_nil _ (List.cons_ne_nil _ _)
    rintro (h | ⟨hmem, hdigit, hstray⟩ | ⟨h, hu, hbefore⟩ | ⟨h, hu, hnumber, hare⟩)
    · exact hne h
    · rcases List.mem_append.1 hmem with hmem | hmem
      · cases (hdigits _ hmem).symm.trans hdigit
      · rcases List.mem_cons.1 hmem with rfl | hmem
        · cases hunit.symm.trans hstray
        · exact ih (List.ne_nil_of_mem hmem) (.stray hmem hdigit hstray)
    -- The first unit stands behind digits, so what is wrong can only be wrong further behind.
    · rcases split_behind_digits hdigits hu h with ⟨rfl, -, -⟩ | ⟨between, rfl, hrest⟩
      · have hlast := List.getLast_mem hdigitsne
        cases (hdigits _ hlast).symm.trans (hbefore _ (List.getLast?_eq_some_getLast hdigitsne))
      · refine ih (hmore hrest) (.bareUnit hrest hu fun c hc => hbefore c ?_)
        exact List.mem_getLast?_append_of_mem_getLast? (List.mem_getLast?_cons hc)
    · rcases split_behind_digits hdigits hu h with ⟨-, -, rfl⟩ | ⟨between, -, hrest⟩
      · exact not_parts_of_digits hnumber hare hcs
      · exact ih (hmore hrest) (.bareNumber hrest hu hnumber hare)

theorem parts_or_malformed (hdigits : AreDigits digits) (cs : List Char) :
    (∃ m, Parts (digits ++ cs) m) ∨ (digits ++ cs ≠ [] ∧ AreDigits (digits ++ cs)) ∨
      Malformed (digits ++ cs) := by
  -- The digits are those of the number that is being read. Behind its unit a new one begins.
  induction cs generalizing digits with
  | nil =>
    rw [List.append_nil]
    by_cases hne : digits = []
    · exact .inl ⟨0, hne ▸ .nil⟩
    · exact .inr (.inl ⟨hne, hdigits⟩)
  | cons c cs ih =>
    cases hc : isDigit c with
    | true =>
      have hmore : AreDigits (digits ++ [c]) := List.forall_mem_append.2 ⟨hdigits, by simpa using hc⟩
      simpa using ih hmore
    | false =>
      by_cases hne : digits = []
      · subst hne
        exact .inr (.inr (.bareUnit rfl hc nofun))
      · cases hunit : unit? c with
        | none => exact .inr (.inr (.stray (List.mem_append_right _ (.head _)) hc hunit))
        | some s =>
          obtain ⟨-, seconds, rfl, -⟩ := unit?_cases hunit
          rcases ih (List.forall_mem_nil _) with ⟨m, hm⟩ | ⟨hne', hnumber⟩ | hmalformed
          · exact .inl ⟨_, .cons hne hdigits hunit hm⟩
          · exact .inr (.inr (.bareNumber rfl hc hne' hnumber))
          · by_cases hend : cs = []
            · subst hend
              exact .inl ⟨_, .cons hne hdigits hunit .nil⟩
            · exact .inr (.inr (hmalformed.behind hend hc digits))

theorem exists_writes_iff : (∃ m, Writes text m) ↔ ¬ Malformed (trim text.toList) := by
  constructor
  · rintro ⟨m, ⟨hne, hdigits⟩ | ⟨hne, hparts⟩⟩ hmalformed
    · exact hne (hmalformed.ne_nil_of_digits hdigits)
    · exact hparts.not_malformed hne hmalformed
  · intro h
    have hne : trim text.toList ≠ [] := fun hnil => h (.empty hnil)
    rcases parts_or_malformed (List.forall_mem_nil _) (trim text.toList) with
      ⟨m, hparts⟩ | ⟨-, hdigits⟩ | hmalformed
    · exact ⟨m, .parts hne hparts⟩
    · exact ⟨_, .bare hne hdigits⟩
    · exact absurd hmalformed h

/-- A text that writes a length of time is read as its total, where that is in range. Nothing is read
from a text that is malformed, and these are all that write none, and nothing either where a number,
a product or a sum does not fit a word. -/
theorem duration_forms (text : String) :
    (∀ d, read? text = .ok (some d) ↔ ∃ m, Writes text m ∧ m ≤ longest ∧ d = ofSeconds m) ∧
      (read? text = .ok none ↔
        (∀ m, ¬ Writes text m) ∨ ∃ n, Counts text n ∧ wordEnd ≤ n) ∧
      ((∀ m, ¬ Writes text m) ↔ Malformed (trim text.toList)) := by
  refine ⟨fun d => read?_eq_some, ?_, ?_⟩
  · by_cases hwrites : ∃ m, Writes text m
    · obtain ⟨m, hm⟩ := hwrites
      have hlongest : longest < wordEnd := by decide
      rw [or_iff_right fun hnone => hnone m hm, exists_counts_iff hm, read?_of_writes hm]
      split
      · exact iff_of_false nofun (by omega)
      · split
        · exact iff_of_false nofun (by omega)
        · exact iff_of_true rfl (by omega)
    · have hnone := not_exists.1 hwrites
      exact iff_of_true (read?_of_not_writes hnone) (.inl hnone)
  · rw [← not_exists, exists_writes_iff, not_not]

theorem writes_mixed : Writes "\t30m2h " 9000 := by
  have htext : trim "\t30m2h ".toList = "30".toList ++ 'm' :: ("2".toList ++ 'h' :: []) := by
    decide +kernel
  have hthirty : "30".toList.all isDigit = true := by decide +kernel
  have htwo : "2".toList.all isDigit = true := by decide +kernel
  have hhours : Parts ("2".toList ++ 'h' :: []) (valueOf "2".toList * 3600 + 0) :=
    .cons (by decide) (List.all_eq_true.1 htwo) rfl .nil
  have hparts : Parts (trim "\t30m2h ".toList)
      (valueOf "30".toList * 60 + (valueOf "2".toList * 3600 + 0)) :=
    htext ▸ .cons (by decide) (List.all_eq_true.1 hthirty) rfl hhours
  have htotal : valueOf "30".toList * 60 + (valueOf "2".toList * 3600 + 0) = 9000 := by
    decide +kernel
  exact htotal ▸ .parts (by rw [htext]; simp) hparts

theorem duration_forms_mixed :
    read? "\t30m2h " = .ok (some (ofMinutes 150)) ∧ read? "2h-30m" = .ok none := by
  have hsign : Malformed (trim "2h-30m".toList) :=
    .stray (c := '-') (by decide +kernel) (by decide) (by decide)
  exact ⟨((duration_forms _).1 _).2 ⟨9000, writes_mixed, by decide, rfl⟩,
    (duration_forms _).2.1.2 (.inl ((duration_forms _).2.2.2 hsign))⟩

end Followup.Span
