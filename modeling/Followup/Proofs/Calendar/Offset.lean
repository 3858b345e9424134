import Followup.Proofs.Settings.Range

/-! Which texts are read as offsets: UTC in any case, `Z`, and hours and minutes in digits behind a
sign. The numbers may have signs of their own, and such texts are read although nobody writes an
offset so; there are no others. -/

namespace Followup.Offset

open Text Numeral

variable {text : String} {cs hours minutes : List Char} {h m n : Int} {sign : Char} {o : Offset}

def directed (sign : Char) (n : Int) : Int := if sign = '-' then -n else n

/-- The text writes an offset of so many seconds. -/
inductive Written (text : String) : Int → Prop
  | utc (h : (trim text.toList).map Char.toLower = ['u', 't', 'c']) : Written text 0
  | zulu (h : trim text.toList = ['Z']) : Written text 0
  | clock {sign : Char} {hours minutes : List Char}
    (htext : trim text.toList = sign :: (hours ++ ':' :: minutes)) (hsign : sign = '+' ∨ sign = '-')
    (hhours : hours ≠ [] ∧ AreDigits hours) (hminutes : minutes ≠ [] ∧ AreDigits minutes)
    (hhour : valueOf minutes < 60) (hday : valueOf hours * 3600 + valueOf minutes * 60 < 86400) :
    Written text (directed sign (valueOf hours * 3600 + valueOf minutes * 60 : Nat))

/-- Hours and minutes around a colon, each with a sign of its own or without, are so many seconds. -/
def Clock (hours minutes : List Char) (n : Int) : Prop :=
  ∃ h m, Signed hours h ∧ Signed minutes m ∧ (0 ≤ m ∧ m < 60) ∧ n = h * 3600 + m * 60

/-- The text would write an offset, if there were not a second sign in front of the hours or one in
front of the minutes. -/
inductive Stray (text : String) : Int → Prop
  | mk {sign : Char} {hours minutes : List Char} {n : Int}
    (htext : trim text.toList = sign :: (hours ++ ':' :: minutes)) (hsign : sign = '+' ∨ sign = '-')
    (hclock : Clock hours minutes n) (hday : -86400 < n ∧ n < 86400)
    (hsecond : ¬ (AreDigits hours ∧ AreDigits minutes)) : Stray text (directed sign n)

theorem ofSeconds?_eq_some : ofSeconds? n = some o ↔ o.seconds = n := by
  rw [ofSeconds?]
  constructor
  · intro h
    split at h
    · cases h
      rfl
    · cases h
  · rintro rfl
    exact dif_pos ⟨o.west, o.east⟩

theorem Clock.notMem (hc : Clock hours minutes n) : ':' ∉ hours := by
  obtain ⟨h, m, hhours, -⟩ := hc
  exact hhours.notMem (by decide) (by decide) (by decide)

theorem Clock.of_digits (hhours : AreDigits hours) (hminutes : AreDigits minutes) :
    Clock hours minutes n ↔ hours ≠ [] ∧ minutes ≠ [] ∧ valueOf minutes < 60 ∧
      n = (valueOf hours * 3600 + valueOf minutes * 60 : Nat) := by
  simp only [Clock, signed_of_digits hhours, signed_of_digits hminutes]
  constructor
  · rintro ⟨_, _, ⟨hh, rfl⟩, ⟨hm, rfl⟩, ⟨-, hlt⟩, rfl⟩
    exact ⟨hh, hm, by omega, by omega⟩
  · rintro ⟨hh, hm, hlt, rfl⟩
    exact ⟨_, _, ⟨hh, rfl⟩, ⟨hm, rfl⟩, ⟨by omega, by omega⟩, by omega⟩

theorem of_readParts? (h : readParts? cs = .ok (some n)) :
    ∃ hours minutes, cs = hours ++ ':' :: minutes ∧ Clock hours minutes n := by
  rw [readParts?] at h
  split at h
  · cases h
  · next hours minutes hcut =>
    split at h
    · next a b ha hb =>
      split at h
      · next hm =>
        rw [secondsOf] at h
        split at h
        · cases h
          exact ⟨hours, minutes, (cut?_eq_some hcut).1, a, b, (word?_eq_some.1 ha).1,
            (word?_eq_some.1 hb).1, hm, rfl⟩
        · cases h
      · cases h
    · cases h

theorem readParts?_of_clock (hc : Clock hours minutes n) (hday : -86400 < n ∧ n < 86400) :
    readParts? (hours ++ ':' :: minutes) = .ok (some n) := by
  have hcut := cut?_append hc.notMem minutes
  obtain ⟨a, b, ha, hb, hm, rfl⟩ := hc
  have hfits {i : Int} (hlow : -2000000 < i) (hhigh : i < 2000000) : fits 32 i = true := by
    rw [fits, Bool.and_eq_true, decide_eq_true_iff, decide_eq_true_iff]
    change -2147483648 ≤ i ∧ i < 2147483648
    omega
  have ha' : word? 32 hours = some a := word?_eq_some.2 ⟨ha, hfits (by omega) (by omega)⟩
  have hb' : word? 32 minutes = some b := word?_eq_some.2 ⟨hb, hfits (by omega) (by omega)⟩
  have hseconds : fits 32 (a * 3600) = true ∧ fits 32 (a * 3600 + b * 60) = true :=
    ⟨hfits (by omega) (by omega), hfits (by omega) (by omega)⟩
  simp only [readParts?, hcut, ha', hb', secondsOf]
  rw [if_pos hm, if_pos hseconds]
  rfl

def Named (text : String) : Prop :=
  (trim text.toList).map Char.toLower = ['u', 't', 'c'] ∨ trim text.toList = ['Z']

theorem named_iff : Named text ↔ sameLetters (trimmed text) "utc" = true ∨ trimmed text = "Z" := by
  rw [Named, sameLetters, toLower_beq, beq_iff_eq, trimmed, String.toList_ofList]
  refine or_congr Iff.rfl ⟨fun h => by rw [h], fun h => ?_⟩
  rw [← String.toList_ofList (l := trim text.toList), h]
  rfl

theorem read?_of_named (h : Named text) : read? text = .ok (some utc) :=
  if_pos (named_iff.1 h)

theorem not_named_of_sign (htext : trim text.toList = sign :: cs) (hsign : sign = '+' ∨ sign = '-') :
    ¬ Named text := by
  rw [Named, htext]
  rintro (h | h)
  · obtain ⟨hhead, -⟩ := List.cons.inj h
    rcases hsign with rfl | rfl <;> exact absurd hhead (by decide)
  · obtain ⟨rfl, -⟩ := List.cons.inj h
    exact absurd hsign (by decide)

theorem read?_of_sign (htext : trim text.toList = sign :: cs) (hsign : sign = '+' ∨ sign = '-') :
    read? text = (readParts? cs).map (·.bind fun n => ofSeconds? (directed sign n)) := by
  have hnot := not_named_of_sign htext hsign
  rw [named_iff] at hnot
  simp only [read?]
  rw [if_neg hnot, trimmed, String.toList_ofList, htext]
  rcases hsign with rfl | rfl
  · rfl
  · rfl

theorem read?_eq_none (hnamed : ¬ Named text)
    (hsign : ∀ sign cs, trim text.toList = sign :: cs → ¬ (sign = '+' ∨ sign = '-')) :
    read? text = .ok none := by
  rw [named_iff] at hnamed
  simp only [read?]
  rw [if_neg hnamed, trimmed, String.toList_ofList]
  split
  · next hcs => exact absurd (.inl rfl) (hsign _ _ hcs)
  · next hcs => exact absurd (.inr rfl) (hsign _ _ hcs)
  · rfl

theorem day_of_directed (ho : o.seconds = directed sign n) : -86400 < n ∧ n < 86400 := by
  have hwest := o.west
  have heast := o.east
  rw [directed] at ho
  split at ho
  · omega
  · omega

theorem written_or_stray (htext : trim text.toList = sign :: (hours ++ ':' :: minutes))
    (hsign : sign = '+' ∨ sign = '-') (hclock : Clock hours minutes n)
    (ho : o.seconds = directed sign n) : Written text o.seconds ∨ Stray text o.seconds := by
  have hday := day_of_directed ho
  rw [ho]
  by_cases hplain : AreDigits hours ∧ AreDigits minutes
  · obtain ⟨hh, hm, hhour, rfl⟩ := (Clock.of_digits hplain.1 hplain.2).1 hclock
    exact .inl (.clock htext hsign ⟨hh, hplain.1⟩ ⟨hm, hplain.2⟩ hhour (by omega))
  · exact .inr (.mk htext hsign hclock hday hplain)

theorem read?_of_clock (htext : trim text.toList = sign :: (hours ++ ':' :: minutes))
    (hsign : sign = '+' ∨ sign = '-') (hclock : Clock hours minutes n)
    (ho : o.seconds = directed sign n) : read? text = .ok (some o) := by
  rw [read?_of_sign htext hsign, readParts?_of_clock hclock (day_of_directed ho)]
  exact congrArg Except.ok (ofSeconds?_eq_some.2 ho)

theorem read?_eq_some :
    read? text = .ok (some o) ↔ Written text o.seconds ∨ Stray text o.seconds := by
  constructor
  · intro h
    by_cases hnamed : Named text
    · rw [read?_of_named hnamed] at h
      cases h
      exact .inl (hnamed.elim .utc .zulu)
    by_cases hsigned : ∃ sign cs, trim text.toList = sign :: cs ∧ (sign = '+' ∨ sign = '-')
    · obtain ⟨sign, cs, htext, hsign⟩ := hsigned
      rw [read?_of_sign htext hsign] at h
      obtain ⟨n?, hn, h⟩ := map_eq_ok.1 h
      obtain ⟨n, rfl, ho⟩ := Option.bind_eq_some_iff.1 h
      obtain ⟨hours, minutes, rfl, hclock⟩ := of_readParts? hn
      exact written_or_stray htext hsign hclock (ofSeconds?_eq_some.1 ho)
    · rw [read?_eq_none hnamed fun sign cs htext hsign => hsigned ⟨sign, cs, htext, hsign⟩] at h
      cases h
  · generalize hn : o.seconds = n
    have hzero (h : o.seconds = 0) : utc = o := by
      cases o
      cases h
      rfl
    rintro (h | h)
    · cases h with
      | utc h => exact hzero hn ▸ read?_of_named (.inl h)
      | zulu h => exact hzero hn ▸ read?_of_named (.inr h)
      | clock htext hsign hhours hminutes hhour hday =>
        have hclock := (Clock.of_digits hhours.2 hminutes.2).2 ⟨hhours.1, hminutes.1, hhour, rfl⟩
        exact read?_of_clock htext hsign hclock hn
    · cases h with
      | mk htext hsign hclock => exact read?_of_clock htext hsign hclock hn

theorem read?_of_overflows (h : Overflows text) : read? text = .error .outOfRange := by
  obtain ⟨sign, cs, hours, minutes, htext, hsign, ⟨before, after, hcut, hhours, hminutes⟩, hnonneg,
    hlt, hseconds⟩ := h
  rw [read?_of_sign htext hsign]
  simp only [readParts?, hcut, hhours, hminutes]
  rw [if_pos ⟨hnonneg, hlt⟩, secondsOf, if_neg hseconds]
  rfl

theorem Written.day (h : Written text n) : -86400 < n ∧ n < 86400 := by
  cases h with
  | utc | zulu => decide
  | clock htext hsign hhours hminutes hhour hday =>
    rw [directed]
    split
    · omega
    · omega

theorem read_eq_ok : (read text).run = .ok (.ok o) ↔ read? text = .ok (some o) := by
  rw [read, Fallible.bind_eq_ok]
  constructor
  · rintro ⟨o?, ho, h⟩
    rw [Fallible.lift_eq_ok.1 ho]
    cases o? with
    | none => cases h
    | some o' =>
      cases h
      rfl
  · intro h
    exact ⟨_, Fallible.lift_eq_ok.2 h, rfl⟩

theorem read_eq_error (h : read? text = .ok none) :
    (read text).run = .ok (.error (.badOffset (trimmed text))) := by
  rw [read, Fallible.bind_of_ok (Fallible.lift_eq_ok.2 h)]
  rfl

theorem Written.not_stray (h : Written text n) : ¬ Stray text m := by
  intro hstray
  obtain @⟨sign, hours, minutes, k, htext, hsign, hclock, -, hsecond⟩ := hstray
  cases h with
  | utc h => exact not_named_of_sign htext hsign (.inl h)
  | zulu h => exact not_named_of_sign htext hsign (.inr h)
  | @clock _ hours' minutes' htext' _ hhours hminutes hhour =>
    have hclock' : Clock hours' minutes' _ :=
      (Clock.of_digits hhours.2 hminutes.2).2 ⟨hhours.1, hminutes.1, hhour, rfl⟩
    have hcut := cut?_append hclock.notMem minutes
    rw [(List.cons.inj (htext.symm.trans htext')).2, cut?_append hclock'.notMem] at hcut
    obtain ⟨rfl, rfl⟩ := Prod.mk.inj (Option.some.inj hcut)
    exact hsecond ⟨hhours.2, hminutes.2⟩

theorem Written.not_overflows (h : Written text n) : ¬ Overflows text := by
  intro hover
  have hday := h.day
  have hread : read? text = .ok (some ⟨n, hday.1, hday.2⟩) := read?_eq_some.2 (.inl h)
  cases hread.symm.trans (read?_of_overflows hover)

/-- An offset is read from what is written as one, from a stray text, and from nothing else: any
other text is refused, as far as its numbers do not leave a word. So without a second sign a text is
read just if it is written as an offset. -/
theorem offset_forms (text : String) :
    (∀ o : Offset, (read text).run = .ok (.ok o) ↔ Written text o.seconds ∨ Stray text o.seconds) ∧
      (Overflows text → (read text).run = .error .outOfRange) ∧
      (¬ Overflows text → (∀ n, ¬ Stray text n) →
        (∀ n, Written text n ↔ ∃ o : Offset, o.seconds = n ∧ (read text).run = .ok (.ok o)) ∧
          ((∀ n, ¬ Written text n) →
            (read text).run = .ok (.error (.badOffset (trimmed text))))) := by
  refine ⟨fun o => read_eq_ok.trans read?_eq_some, fun h => ?_, fun hrange hstray => ⟨fun n => ?_,
    fun hnone => ?_⟩⟩
  · refine Fallible.bind_of_fault ?_
    rw [read?_of_overflows h]
    rfl
  · constructor
    · intro hn
      have hday := hn.day
      exact ⟨⟨n, hday.1, hday.2⟩, rfl, read_eq_ok.2 (read?_eq_some.2 (.inl hn))⟩
    · rintro ⟨o, rfl, ho⟩
      exact (read?_eq_some.1 (read_eq_ok.1 ho)).resolve_right (hstray _)
  · obtain ⟨o?, ho⟩ := exists_read? hrange
    cases o? with
    | none => exact read_eq_error ho
    | some o => exact ((read?_eq_some.1 ho).elim (hnone _) (hstray _)).elim

theorem written_halfPast : Written " -05:30" (-19800) := by
  have htext : trim " -05:30".toList = '-' :: ("05".toList ++ ':' :: "30".toList) := by
    decide +kernel
  have hhours : "05".toList.all isDigit = true := by decide +kernel
  have hminutes : "30".toList.all isDigit = true := by decide +kernel
  exact .clock htext (.inr rfl) ⟨by decide, List.all_eq_true.1 hhours⟩
    ⟨by decide, List.all_eq_true.1 hminutes⟩ (by decide) (by decide)

theorem offset_forms_halfPast :
    ¬ Overflows " -05:30" ∧ (∀ n, ¬ Stray " -05:30" n) ∧ Written " -05:30" (-19800) ∧
      ∃ o : Offset, o.seconds = -19800 ∧ (read " -05:30").run = .ok (.ok o) := by
  have hrange := written_halfPast.not_overflows
  have hstray := fun n => written_halfPast.not_stray (m := n)
  have hread := (offset_forms " -05:30").2.2 hrange hstray
  exact ⟨hrange, hstray, written_halfPast, (hread.1 _).1 written_halfPast⟩

theorem doubled_accepted :
    (read "+-5:30").run = .ok (.ok ⟨-16200, by decide, by decide⟩) ∧ ∀ n, ¬ Written "+-5:30" n := by
  have htext : trim "+-5:30".toList = '+' :: ("-5".toList ++ ':' :: "30".toList) := by
    decide +kernel
  have hhours : Signed "-5".toList (-5) := int?_eq_some.1 (by decide +kernel)
  have hminutes : Signed "30".toList 30 := int?_eq_some.1 (by decide +kernel)
  have hstray : Stray "+-5:30" (-16200) :=
    .mk htext (.inl rfl) ⟨-5, 30, hhours, hminutes, by decide, rfl⟩ (by decide)
      fun h => absurd (h.1 '-' (.head _)) (by decide)
  exact ⟨read_eq_ok.2 (read?_eq_some.2 (.inr hstray)), fun n h => h.not_stray hstray⟩

end Followup.Offset
