import Followup.Calendar.Span.Reader
import Mathlib.Data.List.TakeWhile

/-! What a length of time in text says: a number of seconds, or a sum of numbers with units. The
reader works in words of 64 bits. It misses no text, and it refuses those whose total does not fit a
word. A total that fits a word and still is too long for a span is the one that it does not get
over. -/

namespace Followup

namespace Text.Numeral

variable {digits : List Char} {n : Int} {bits acc : Nat}

def wordEnd : Nat := 9223372036854775808

def valueOf (digits : List Char) : Nat := digits.foldl (fun n c => n * 10 + (c.toNat - 48)) 0

def AreDigits (cs : List Char) : Prop := ∀ c ∈ cs, isDigit c = true

theorem AreDigits.reverse (h : AreDigits digits) : AreDigits digits.reverse :=
  fun c hc => h c (List.mem_reverse.1 hc)

theorem digit?_of_isDigit {c : Char} (h : isDigit c = true) : digit? 10 c = some (c.toNat - 48) := by
  simp only [isDigit, Bool.and_eq_true, decide_eq_true_eq] at h
  have hlt : c.toNat - 48 < 10 := by omega
  simp [digit?, h, hlt]

theorem natFrom?_of_digits (h : AreDigits digits) :
    natFrom? 10 acc digits = some (digits.foldl (fun n c => n * 10 + (c.toNat - 48)) acc) := by
  induction digits generalizing acc with
  | nil => rfl
  | cons c cs ih =>
    obtain ⟨hc, hcs⟩ := List.forall_mem_cons.1 h
    rw [natFrom?, digit?_of_isDigit hc, Option.bind_some, ih hcs, List.foldl_cons]

theorem int?_of_digits (h : AreDigits digits) (hne : digits ≠ []) :
    int? digits = some (valueOf digits : Int) := by
  have hnat : nat? 10 digits = some (valueOf digits) := by
    rw [nat?, if_neg (by simpa using hne), natFrom?_of_digits h, valueOf]
  unfold int?
  split
  · exact absurd (h '+' (.head _)) (by decide)
  · exact absurd (h '-' (.head _)) (by decide)
  · rw [hnat]
    rfl

theorem fits_natCast {m : Nat} : fits 64 (m : Int) = true ↔ m < wordEnd := by
  rw [fits, Bool.and_eq_true, decide_eq_true_iff, decide_eq_true_iff, wordEnd]
  change -9223372036854775808 ≤ (m : Int) ∧ (m : Int) < 9223372036854775808 ↔ _
  omega

theorem word?_of_digits (h : AreDigits digits) :
    word? 64 digits = some n ↔ digits ≠ [] ∧ n = valueOf digits ∧ valueOf digits < wordEnd := by
  by_cases hne : digits = []
  · subst hne
    exact iff_of_false nofun fun h => h.1 rfl
  · rw [word?, int?_of_digits h hne, Option.filter_eq_some_iff, Option.some_inj]
    constructor
    · rintro ⟨rfl, hfits⟩
      exact ⟨hne, rfl, fits_natCast.1 hfits⟩
    · rintro ⟨-, rfl, hlt⟩
      exact ⟨rfl, fits_natCast.2 hlt⟩

inductive Signed : List Char → Int → Prop
  | bare {digits : List Char} (hne : digits ≠ []) (h : AreDigits digits) :
    Signed digits (valueOf digits)
  | plus {digits : List Char} (hne : digits ≠ []) (h : AreDigits digits) :
    Signed ('+' :: digits) (valueOf digits)
  | minus {digits : List Char} (hne : digits ≠ []) (h : AreDigits digits) :
    Signed ('-' :: digits) (-(valueOf digits : Int))

theorem signed_of_digits (h : AreDigits digits) :
    Signed digits n ↔ digits ≠ [] ∧ n = valueOf digits := by
  constructor
  · rintro (⟨hne, -⟩ | _ | _)
    · exact ⟨hne, rfl⟩
    · exact absurd (h '+' (.head _)) (by decide)
    · exact absurd (h '-' (.head _)) (by decide)
  · rintro ⟨hne, rfl⟩
    exact .bare hne h

theorem Signed.notMem {cs : List Char} {c : Char} (h : Signed cs n) (hc : isDigit c = false)
    (hplus : c ≠ '+') (hminus : c ≠ '-') : c ∉ cs := by
  have hnot {digits : List Char} (hdigits : AreDigits digits) : c ∉ digits := fun hmem => by
    rw [hdigits c hmem] at hc
    cases hc
  cases h with
  | bare _ hdigits => exact hnot hdigits
  | plus _ hdigits => exact List.not_mem_cons_of_ne_of_not_mem hplus (hnot hdigits)
  | minus _ hdigits => exact List.not_mem_cons_of_ne_of_not_mem hminus (hnot hdigits)

theorem isDigit_of_digit? {c : Char} {d : Nat} (h : digit? 10 c = some d) : isDigit c = true := by
  obtain ⟨hd, hlt⟩ := Option.filter_eq_some_iff.1 h
  rw [decide_eq_true_iff] at hlt
  rw [isDigit, Bool.and_eq_true, decide_eq_true_iff, decide_eq_true_iff]
  split at hd
  · assumption
  · split at hd
    · cases hd
      omega
    · split at hd
      · cases hd
        omega
      · cases hd

theorem areDigits_of_natFrom? {m : Nat} (h : natFrom? 10 acc digits = some m) :
    AreDigits digits := by
  induction digits generalizing acc with
  | nil => exact List.forall_mem_nil _
  | cons c cs ih =>
    obtain ⟨d, hd, h⟩ := Option.bind_eq_some_iff.1 h
    exact List.forall_mem_cons.2 ⟨isDigit_of_digit? hd, ih h⟩

theorem nat?_eq_some {m : Nat} :
    nat? 10 digits = some m ↔ digits ≠ [] ∧ AreDigits digits ∧ m = valueOf digits := by
  rw [nat?]
  by_cases hne : digits = []
  · subst hne
    exact iff_of_false nofun fun h => h.1 rfl
  · rw [if_neg (by simpa using hne)]
    constructor
    · intro h
      have hdigits := areDigits_of_natFrom? h
      rw [natFrom?_of_digits hdigits] at h
      exact ⟨hne, hdigits, (Option.some.inj h).symm⟩
    · rintro ⟨-, hdigits, rfl⟩
      exact natFrom?_of_digits hdigits

theorem int?_eq_some {cs : List Char} : int? cs = some n ↔ Signed cs n := by
  constructor
  · intro h
    unfold int? at h
    split at h
    · obtain ⟨m, hm, rfl⟩ := Option.map_eq_some_iff.1 h
      obtain ⟨hne, hdigits, rfl⟩ := nat?_eq_some.1 hm
      exact .plus hne hdigits
    · obtain ⟨m, hm, rfl⟩ := Option.map_eq_some_iff.1 h
      obtain ⟨hne, hdigits, rfl⟩ := nat?_eq_some.1 hm
      exact .minus hne hdigits
    · obtain ⟨m, hm, rfl⟩ := Option.map_eq_some_iff.1 h
      obtain ⟨hne, hdigits, rfl⟩ := nat?_eq_some.1 hm
      exact .bare hne hdigits
  · intro h
    cases h with
    | bare hne hdigits => exact int?_of_digits hdigits hne
    | plus hne hdigits => rw [int?, nat?_eq_some.2 ⟨hne, hdigits, rfl⟩]; rfl
    | minus hne hdigits => rw [int?, nat?_eq_some.2 ⟨hne, hdigits, rfl⟩]; rfl

theorem word?_eq_some {cs : List Char} :
    word? bits cs = some n ↔ Signed cs n ∧ fits bits n = true := by
  rw [word?, Option.filter_eq_some_iff, int?_eq_some]

end Text.Numeral

namespace Span

open Text Numeral

variable {text : String} {cs digits : List Char} {n : Int} {total m : Nat} {seen : Bool}

/-- Numbers with units behind them, and the sum of what they stand for in seconds. -/
inductive Parts : List Char → Nat → Prop
  | nil : Parts [] 0
  | cons {digits : List Char} {unit : Char} {seconds : Nat} {cs : List Char} {total : Nat}
    (hne : digits ≠ []) (hdigits : AreDigits digits) (hunit : unit? unit = some (seconds : Int))
    (hcs : Parts cs total) : Parts (digits ++ unit :: cs) (valueOf digits * seconds + total)

inductive Writes (text : String) : Nat → Prop
  | bare (hne : trim text.toList ≠ []) (h : AreDigits (trim text.toList)) :
    Writes text (valueOf (trim text.toList))
  | parts {total : Nat} (hne : trim text.toList ≠ []) (h : Parts (trim text.toList) total) :
    Writes text total

theorem unit?_cases {c : Char} {seconds : Int} (h : unit? c = some seconds) :
    isDigit c = false ∧ ∃ s : Nat, seconds = s ∧ 0 < s := by
  unfold unit? at h
  split at h
  · cases h
    exact ⟨by decide, 86400, rfl, by decide⟩
  · cases h
    exact ⟨by decide, 3600, rfl, by decide⟩
  · cases h
    exact ⟨by decide, 60, rfl, by decide⟩
  · cases h
    exact ⟨by decide, 1, rfl, by decide⟩
  · cases h

/-- What is left of a text behind the digits of a number: parts, or, where no unit has been seen, no
more than the end of a bare number. -/
def Rest (seen : Bool) (cs : List Char) (m : Nat) : Prop :=
  Parts cs m ∨ seen = false ∧ cs ≠ [] ∧ AreDigits cs ∧ m = valueOf cs

theorem not_parts_of_digits (hne : digits ≠ []) (h : AreDigits digits) : ¬ Parts digits m := by
  intro hparts
  cases hparts with
  | nil => exact hne rfl
  | cons _ _ hunit =>
    have hno := (unit?_cases hunit).1
    rw [h _ (List.mem_append_right _ (.head _))] at hno
    cases hno

theorem parts_cons {c : Char} (hdigits : AreDigits digits) (hc : isDigit c = false) :
    Parts (digits ++ c :: cs) m ↔ digits ≠ [] ∧ ∃ seconds total : Nat,
      unit? c = some (seconds : Int) ∧ Parts cs total ∧ m = valueOf digits * seconds + total := by
  constructor
  · generalize hall : digits ++ c :: cs = all
    intro h
    cases h with
    | nil => simp at hall
    | @cons digits' c' seconds cs' total hne hdigits' hunit hcs =>
      -- Both numbers end where the first character stands that is no digit.
      have hsame := congrArg (List.takeWhile isDigit) hall
      rw [List.takeWhile_append_of_pos hdigits, List.takeWhile_append_of_pos hdigits',
        List.takeWhile_cons_of_neg (by simp [hc]),
        List.takeWhile_cons_of_neg (by simp [(unit?_cases hunit).1]), List.append_nil,
        List.append_nil] at hsame
      subst hsame
      obtain ⟨rfl, rfl⟩ := List.cons.inj (List.append_cancel_left hall)
      exact ⟨hne, seconds, total, hunit, hcs, rfl⟩
  · rintro ⟨hne, seconds, total, hunit, hcs, rfl⟩
    exact .cons hne hdigits hunit hcs

theorem rest_cons {c : Char} (hdigits : AreDigits digits) (hc : isDigit c = false) :
    Rest seen (digits ++ c :: cs) m ↔ digits ≠ [] ∧ ∃ seconds total : Nat,
      unit? c = some (seconds : Int) ∧ Parts cs total ∧ m = valueOf digits * seconds + total := by
  rw [Rest, parts_cons hdigits hc, or_iff_left]
  rintro ⟨-, -, h, -⟩
  rw [h c (List.mem_append_right _ (.head _))] at hc
  cases hc

theorem rest_true : Rest true cs m ↔ Parts cs m := or_iff_left fun h => nomatch h.1

theorem rest_nil : Rest seen [] m ↔ m = 0 := by
  constructor
  · rintro (h | ⟨-, h, -⟩)
    · generalize hcs : [] = cs at h
      cases h with
      | nil => rfl
      | cons => simp at hcs
    · exact absurd rfl h
  · rintro rfl
    exact .inl .nil

theorem rest_digits (hne : digits ≠ []) (h : AreDigits digits) :
    Rest seen digits m ↔ seen = false ∧ m = valueOf digits := by
  rw [Rest, or_iff_right (not_parts_of_digits hne h)]
  exact ⟨fun ⟨hseen, _, _, hm⟩ => ⟨hseen, hm⟩, fun ⟨hseen, hm⟩ => ⟨hseen, hne, h, hm⟩⟩

theorem word?_eq_some {i : Int} : word? i = some n ↔ n = i ∧ fits 64 i = true := by
  rw [word?]
  split
  · next h => exact ⟨fun heq => ⟨(Option.some.inj heq).symm, h⟩, fun ⟨heq, _⟩ => heq ▸ rfl⟩
  · next h => exact iff_of_false nofun fun ⟨_, hfits⟩ => h hfits

theorem secondsFrom?_eq_some (htotal : total < wordEnd) (hseen : seen = false → total = 0)
    (hdigits : AreDigits digits) :
    secondsFrom? total digits seen cs = some n ↔
      ∃ m : Nat, Rest seen (digits.reverse ++ cs) m ∧ n = (total + m : Nat) ∧ total + m < wordEnd := by
  -- The reader keeps its digits in reverse. What is described is the text with them in front again.
  induction cs generalizing total digits seen with
  | nil =>
    rw [secondsFrom?, List.append_nil]
    by_cases hne : digits = []
    · subst hne
      simp only [List.isEmpty_nil, if_true, List.reverse_nil, rest_nil, exists_eq_left,
        Nat.add_zero, htotal, and_true, Option.some_inj, eq_comm]
    · have hne' : digits.reverse ≠ [] := mt List.reverse_eq_nil_iff.1 hne
      have hback := hdigits.reverse
      simp only [rest_digits hne' hback]
      rw [if_neg (by simpa using hne)]
      cases seen with
      | true => exact iff_of_false nofun fun ⟨_, ⟨h, _⟩, _⟩ => nomatch h
      | false =>
        rw [if_neg Bool.false_ne_true, word?_of_digits hback, hseen rfl]
        simp [hne]
  | cons c cs ih =>
    rw [secondsFrom?]
    split
    · next hc =>
      have hmore : AreDigits (c :: digits) := List.forall_mem_cons.2 ⟨hc, hdigits⟩
      rw [ih htotal hseen hmore, List.reverse_cons, List.append_assoc, List.singleton_append]
    · next hc =>
      have hno : isDigit c = false := Bool.eq_false_iff.2 hc
      have hsum (seconds : Nat) : (total : Int) + valueOf digits.reverse * (seconds : Int) =
          (total + valueOf digits.reverse * seconds : Nat) := by push_cast; rfl
      simp only [rest_cons hdigits.reverse hno, Option.bind_eq_bind, Option.bind_eq_some_iff,
        word?_of_digits hdigits.reverse, word?_eq_some]
      have hseen' : true = false → ∀ k : Nat, k = 0 := nofun
      constructor
      · rintro ⟨_, ⟨hne, rfl, -⟩, _, hunit, _, ⟨rfl, -⟩, _, ⟨rfl, hfits⟩, h⟩
        obtain ⟨-, seconds, rfl, -⟩ := unit?_cases hunit
        rw [hsum] at hfits h
        obtain ⟨m, hm, rfl, hlt⟩ := (ih (fits_natCast.1 hfits) (hseen' · _) (List.forall_mem_nil _)).1 h
        refine ⟨_, ⟨hne, seconds, m, hunit, rest_true.1 hm, rfl⟩, ?_, ?_⟩
        · rw [Nat.add_assoc]
        · rwa [← Nat.add_assoc]
      · rintro ⟨_, ⟨hne, seconds, m, hunit, hm, rfl⟩, rfl, hlt⟩
        obtain ⟨-, _, hs, hpos⟩ := unit?_cases hunit
        obtain rfl := Int.ofNat_inj.1 hs
        have hle : valueOf digits.reverse ≤ valueOf digits.reverse * seconds :=
          Nat.le_mul_of_pos_right _ hpos
        have hpart : ((valueOf digits.reverse : Int) * (seconds : Int)) =
          (valueOf digits.reverse * seconds : Nat) := (Int.natCast_mul ..).symm
        refine ⟨_, ⟨hne, rfl, by omega⟩, _, hunit, _, ⟨rfl, ?_⟩, _, ⟨rfl, ?_⟩, ?_⟩
        · rw [hpart, fits_natCast]
          omega
        · rw [hsum, fits_natCast]
          omega
        · rw [hsum]
          refine (ih (by omega) (hseen' · _) (List.forall_mem_nil _)).2 ⟨m, rest_true.2 hm, ?_, ?_⟩
          · rw [Nat.add_assoc]
          · rwa [Nat.add_assoc]

theorem writes_iff : Writes text m ↔ trim text.toList ≠ [] ∧ Rest false (trim text.toList) m := by
  constructor
  · rintro (⟨hne, h⟩ | ⟨hne, h⟩)
    · exact ⟨hne, .inr ⟨rfl, hne, h, rfl⟩⟩
    · exact ⟨hne, .inl h⟩
  · rintro ⟨hne, h | ⟨-, -, h, rfl⟩⟩
    · exact .parts hne h
    · exact .bare hne h

theorem seconds?_eq_some :
    seconds? text = some n ↔ ∃ m, Writes text m ∧ n = (m : Int) ∧ m < wordEnd := by
  have hread := @secondsFrom?_eq_some (trim text.toList) [] n 0 false (by decide) (fun _ => rfl)
    (List.forall_mem_nil _)
  simp only [writes_iff, seconds?, List.isEmpty_iff]
  by_cases hne : trim text.toList = []
  · rw [if_pos hne]
    exact iff_of_false nofun fun ⟨_, ⟨h, _⟩, _⟩ => h hne
  · rw [if_neg hne]
    simpa [hne] using hread

theorem Parts.unique {m' : Nat} (h : Parts cs m) (h' : Parts cs m') : m = m' := by
  induction h generalizing m' with
  | nil => exact (rest_nil.1 (rest_true.2 h')).symm
  | cons hne hdigits hunit hcs ih =>
    obtain ⟨-, seconds, total, hunit', hcs', rfl⟩ :=
      (parts_cons hdigits (unit?_cases hunit).1).1 h'
    obtain rfl := Int.ofNat_inj.1 (Option.some.inj (hunit.symm.trans hunit'))
    rw [ih hcs']

theorem Writes.unique {m' : Nat} (h : Writes text m) (h' : Writes text m') : m = m' := by
  cases h with
  | bare hne h =>
    cases h' with
    | bare => rfl
    | parts _ h' => exact absurd h' (not_parts_of_digits hne h)
  | parts hne h =>
    cases h' with
    | bare _ h' => exact absurd h (not_parts_of_digits hne h')
    | parts _ h' => exact h.unique h'

def longest : Nat := 9223372036854775

def Overflows (text : String) : Prop := ∃ m, Writes text m ∧ longest < m ∧ m < wordEnd

theorem inRange_ofSeconds (m : Nat) : (ofSeconds m).InRange ↔ m ≤ longest := by
  simp only [InRange, ofSeconds, limit, longest]
  omega

theorem checked_ofSeconds (m : Nat) :
    (ofSeconds m).checked = if m ≤ longest then .ok (ofSeconds m) else .error .outOfRange := by
  rw [checked]
  simp only [inRange_ofSeconds]

theorem read?_of_writes (h : Writes text m) :
    read? text = if m ≤ longest then .ok (some (ofSeconds m))
      else if m < wordEnd then .error .outOfRange else .ok none := by
  have hlongest : longest < wordEnd := by decide
  by_cases hfits : m < wordEnd
  · rw [read?, seconds?_eq_some.2 ⟨m, h, rfl, hfits⟩]
    dsimp only
    rw [checked_ofSeconds, if_pos hfits]
    split <;> rfl
  · have hnone : seconds? text = none := by
      refine Option.eq_none_iff_forall_ne_some.2 fun n hn => ?_
      obtain ⟨m', h', -, hlt⟩ := seconds?_eq_some.1 hn
      exact hfits (h.unique h' ▸ hlt)
    rw [read?, hnone, if_neg (by omega), if_neg hfits]

theorem read?_of_not_writes (h : ∀ m, ¬ Writes text m) : read? text = .ok none := by
  have hnone : seconds? text = none := by
    refine Option.eq_none_iff_forall_ne_some.2 fun n hn => ?_
    obtain ⟨m, hm, -⟩ := seconds?_eq_some.1 hn
    exact h m hm
  rw [read?, hnone]

theorem read?_eq_some {d : Span} :
    read? text = .ok (some d) ↔ ∃ m, Writes text m ∧ m ≤ longest ∧ d = ofSeconds m := by
  constructor
  · intro hd
    by_cases hwrites : ∃ m, Writes text m
    · obtain ⟨m, hm⟩ := hwrites
      rw [read?_of_writes hm] at hd
      split at hd
      · next hle =>
        cases hd
        exact ⟨m, hm, hle, rfl⟩
      · split at hd <;> cases hd
    · rw [read?_of_not_writes (not_exists.1 hwrites)] at hd
      cases hd
  · rintro ⟨m, hm, hle, rfl⟩
    rw [read?_of_writes hm, if_pos hle]

theorem exists_read? (h : ¬ Overflows text) : ∃ d?, read? text = .ok d? := by
  by_cases hwrites : ∃ m, Writes text m
  · obtain ⟨m, hm⟩ := hwrites
    rw [read?_of_writes hm]
    split
    · exact ⟨_, rfl⟩
    · next hlong =>
      rw [if_neg fun hlt => h ⟨m, hm, Nat.lt_of_not_le hlong, hlt⟩]
      exact ⟨_, rfl⟩
  · exact ⟨none, read?_of_not_writes (not_exists.1 hwrites)⟩

theorem not_overflows {d? : Option Span} (h : read? text = .ok d?) : ¬ Overflows text := by
  rintro ⟨m, hm, hlong, hlt⟩
  rw [read?_of_writes hm, if_neg (Nat.not_le.2 hlong), if_pos hlt] at h
  cases h

theorem nonneg_of_read? {d : Span} (h : read? text = .ok (some d)) : .zero ≤ d := by
  obtain ⟨m, -, -, rfl⟩ := read?_eq_some.1 h
  exact Int.mul_nonneg (Int.natCast_nonneg m) (by decide)

end Span

end Followup
