import Followup.Proofs.Settings.Lookup
import Followup.Proofs.Text.Pieces

/-! When settings can be read at all. Whatever the texts are, reading them comes to settings or to an
error, unless a number in them leaves its range on the way: the seconds of an offset, those of a
length of time that is no longer a span, the hours to the deadline, or the sum of the two waits. -/

namespace Followup

open Fallible

open Text

namespace Offset

variable {text : String}

structure Exceeds (cs : List Char) (hours minutes : Int) : Prop where
  cut : ∃ before after, cut? ':' cs = some (before, after) ∧
    Numeral.word? 32 before = some hours ∧ Numeral.word? 32 after = some minutes
  nonneg : 0 ≤ minutes
  lt_hour : minutes < 60
  seconds : ¬ (Numeral.fits 32 (hours * 3600) = true ∧
    Numeral.fits 32 (hours * 3600 + minutes * 60) = true)

def Overflows (text : String) : Prop :=
  ∃ sign cs hours minutes, trim text.toList = sign :: cs ∧ (sign = '+' ∨ sign = '-') ∧
    Exceeds cs hours minutes

theorem exists_readParts? {cs : List Char}
    (h : ∀ hours minutes, ¬ Exceeds cs hours minutes) : ∃ n?, readParts? cs = .ok n? := by
  rw [readParts?]
  split
  · exact ⟨_, rfl⟩
  · next hours minutes hcut =>
    split
    · next a b ha hb =>
      split
      · next hminutes =>
        have hfits := not_not.1 fun hno =>
          h a b ⟨⟨hours, minutes, hcut, ha, hb⟩, hminutes.1, hminutes.2, hno⟩
        rw [secondsOf, if_pos hfits]
        exact ⟨_, rfl⟩
      · exact ⟨_, rfl⟩
    · exact ⟨_, rfl⟩

theorem exists_read? (h : ¬ Overflows text) : ∃ o?, read? text = .ok o? := by
  have hparts {sign : Char} {cs : List Char} (hcs : trim text.toList = sign :: cs)
      (hsign : sign = '+' ∨ sign = '-') : ∃ n?, readParts? cs = .ok n? :=
    exists_readParts? fun hours minutes hexceeds =>
      h ⟨sign, cs, hours, minutes, hcs, hsign, hexceeds⟩
  simp only [read?, trimmed, String.toList_ofList]
  split
  · exact ⟨_, rfl⟩
  · split
    · next hcs =>
      obtain ⟨n?, hn⟩ := hparts hcs (.inl rfl)
      rw [hn]
      exact ⟨_, rfl⟩
    · next hcs =>
      obtain ⟨n?, hn⟩ := hparts hcs (.inr rfl)
      rw [hn]
      exact ⟨_, rfl⟩
    · exact ⟨_, rfl⟩

theorem returns_read (h : ¬ Overflows text) : (Offset.read text).Returns := by
  refine (returns_lift (exists_read? h)).bind fun o? _ => ?_
  cases o? with
  | none => exact returns_error _
  | some o => exact returns_ok o

end Offset

theorem Zone.returns_read {text : String} (h : ¬ Offset.Overflows text) :
    (Zone.read text).Returns := by
  have htrimmed : ¬ Offset.Overflows (trimmed text) := by
    rwa [Offset.Overflows, trimmed, String.toList_ofList, trim_trim]
  rw [Zone.read]
  split
  · exact (Offset.returns_read htrimmed).bind fun o _ => returns_ok _
  · split
    · exact returns_ok _
    · exact returns_error _

theorem BusinessHours.returns_read {days start finish zone : String}
    (h : ¬ Offset.Overflows zone) : (BusinessHours.read days start finish zone).Returns := by
  refine (returns_liftExcept _).bind fun days _ => ?_
  refine (returns_liftExcept _).bind fun start _ => ?_
  refine (returns_liftExcept _).bind fun finish _ => ?_
  exact (Zone.returns_read h).bind fun zone _ => returns_liftExcept _

namespace Settings

variable {s : Settings} {text : String} {lookup : String → Option String} {waits out : Waits}
  {stage : Stage} {stages : List Stage} {wait total : Span} {cs : List Char}

def Sets (cs : List Char) (stage : Stage) (wait : Span) : Prop :=
  ∃ name span, cut? '=' cs = some (name, span) ∧ Stage.ofName (String.ofList name) = .ok stage ∧
    Span.read? (String.ofList span) = .ok (some wait)

def WaitOverflows (cs : List Char) : Prop :=
  ∃ name span, cut? '=' cs = some (name, span) ∧ Span.Overflows (String.ofList span)

theorem returns_readWait (h : ¬ WaitOverflows cs) : (readWait cs).Returns := by
  rw [readWait]
  split
  · exact returns_error _
  · next name span hcut =>
    split
    · exact returns_error _
    · have hspan : ¬ Span.Overflows (String.ofList span) := fun hspan => h ⟨name, span, hcut, hspan⟩
      refine (returns_lift (Span.exists_read? hspan)).bind fun wait? _ => ?_
      cases wait? with
      | none => exact returns_error _
      | some wait => exact returns_ok _

theorem sets_of_readWait (h : (readWait cs).run = .ok (.ok (stage, wait))) :
    Sets cs stage wait := by
  rw [readWait] at h
  split at h
  · cases h
  · next name span hcut =>
    split at h
    · cases h
    · next stage' hstage =>
      obtain ⟨wait?, hwait, h⟩ := Fallible.bind_eq_ok.1 h
      cases wait? with
      | none => cases h
      | some wait' =>
        obtain ⟨rfl, rfl⟩ := Prod.mk.inj (Except.ok.inj (Except.ok.inj h))
        exact ⟨name, span, hcut, hstage, lift_eq_ok.1 hwait⟩

theorem returns_readWaitsFrom {css : List (List Char)} (h : ∀ cs ∈ css, ¬ WaitOverflows cs) :
    (readWaitsFrom waits css).Returns := by
  induction css generalizing waits with
  | nil => exact returns_ok _
  | cons cs css ih =>
    obtain ⟨hcs, hcss⟩ := List.forall_mem_cons.1 h
    rw [readWaitsFrom]
    refine (returns_readWait hcs).bind fun (stage, wait) _ => ?_
    dsimp only
    split
    · exact returns_error _
    · exact ih hcss

theorem sets_of_readWaitsFrom {css : List (List Char)}
    (h : (readWaitsFrom waits css).run = .ok (.ok out)) (hmem : (stage, wait) ∈ out) :
    (stage, wait) ∈ waits ∨ ∃ cs ∈ css, Sets cs stage wait := by
  induction css generalizing waits with
  | nil =>
    cases h
    exact .inl hmem
  | cons cs css ih =>
    rw [readWaitsFrom] at h
    obtain ⟨⟨stage', wait'⟩, hcs, h⟩ := Fallible.bind_eq_ok.1 h
    dsimp only at h
    split at h
    · cases h
    · rcases ih h with hmem | ⟨cs', hcs', hsets⟩
      · rcases List.mem_append.1 hmem with hmem | hmem
        · exact .inl hmem
        · obtain ⟨rfl, rfl⟩ := Prod.mk.inj (List.mem_singleton.1 hmem)
          exact .inr ⟨cs, .head _, sets_of_readWait hcs⟩
      · exact .inr ⟨cs', .tail _ hcs', hsets⟩

theorem Sets.inRange (h : Sets cs stage wait) : wait.InRange := by
  obtain ⟨name, span, -, -, h⟩ := h
  obtain ⟨m, -, hm, rfl⟩ := Span.read?_eq_some.1 h
  exact (Span.inRange_ofSeconds m).2 hm

theorem returns_checked {d : Span} (h : d.InRange) :
    Returns (liftM d.checked : Fallible SettingError Span) :=
  returns_lift ⟨d, if_pos h⟩

theorem returns_totalWait
    (h : ∀ wait, s.waitBefore stage = some wait →
      (total + wait).InRange ∧ (s.totalWait stages (total + wait)).Returns) :
    (s.totalWait (stage :: stages) total).Returns := by
  rw [totalWait]
  split
  · exact returns_error _
  · next wait hwait =>
    split
    · exact returns_error _
    · obtain ⟨hrange, hrest⟩ := h wait hwait
      refine (returns_checked hrange).bind fun sum hsum => ?_
      rwa [Span.checked_eq_ok (lift_eq_ok.1 hsum)]

theorem returns_validate
    (h₁ : ∀ wait, s.waitBefore .followUp1 = some wait → wait.InRange)
    (h₂ : ∀ wait₁ wait₂, s.waitBefore .followUp1 = some wait₁ →
      s.waitBefore .followUp2 = some wait₂ → (wait₁ + wait₂).InRange) : s.validate.Returns := by
  have hzero (d : Span) : Span.zero + d = d := congrArg Span.mk (Int.zero_add _)
  have htotal : (s.totalWait waitedStages .zero).Returns := by
    refine returns_totalWait fun wait₁ hwait₁ => ?_
    rw [hzero]
    refine ⟨h₁ wait₁ hwait₁, returns_totalWait fun wait₂ hwait₂ => ?_⟩
    exact ⟨h₂ wait₁ wait₂ hwait₁ hwait₂, returns_ok _⟩
  rw [validate]
  split
  · exact returns_error _
  · refine htotal.bind fun total _ => ?_
    split
    · exact returns_error _
    · split
      · exact returns_error _
      · exact returns_ok _

def zoneText (lookup : String → Option String) : String :=
  (lookup "BUSINESS_TIMEZONE").getD "UTC"

def waitsText (lookup : String → Option String) : String :=
  (lookup "STAGE_WAITS").getD "follow_up_1=1h,follow_up_2=3h"

def retentionText (lookup : String → Option String) : String :=
  (lookup "RESOLVED_RETENTION").getD "1h"

/-- No number leaves its range while the texts are read. -/
structure InRange (lookup : String → Option String) : Prop where
  zone : ¬ Offset.Overflows (zoneText lookup)
  waits : ∀ cs ∈ entries (waitsText lookup), ¬ WaitOverflows cs
  total : ∀ cs₁ ∈ entries (waitsText lookup), ∀ cs₂ ∈ entries (waitsText lookup),
    ∀ wait₁ wait₂, Sets cs₁ .followUp1 wait₁ → Sets cs₂ .followUp2 wait₂ →
      (wait₁ + wait₂).InRange
  deadline : ∀ n, readDeadline (lookup "DEADLINE_BUSINESS_HOURS") = .ok n → (Span.ofHours n).InRange
  retention : ¬ Span.Overflows (retentionText lookup)

theorem returns_readRetention (h : ¬ Span.Overflows text) : (readRetention text).Returns := by
  refine (returns_lift (Span.exists_read? h)).bind fun d? _ => ?_
  cases d? with
  | none => exact returns_error _
  | some d => exact returns_ok d

theorem sets_of_readWaits (hwaits : (readWaits text).run = .ok (.ok waits))
    (hwait : waits.lookup stage = some wait) : ∃ cs ∈ entries text, Sets cs stage wait := by
  obtain ⟨before, after, hmem, -⟩ := List.lookup_eq_some_iff.1 hwait
  refine (sets_of_readWaitsFrom hwaits ?_).resolve_left List.not_mem_nil
  rw [hmem]
  exact List.mem_append_right _ (.head _)

theorem returns_ofLookup (h : InRange lookup) : (ofLookup lookup).Returns := by
  rw [ofLookup]
  refine (BusinessHours.returns_read h.zone).bind fun hours _ => ?_
  refine (returns_readWaitsFrom h.waits).bind fun waits hwaits => ?_
  refine (returns_liftExcept _).bind fun n hn => ?_
  refine (returns_readRetention h.retention).bind fun retention _ => ?_
  refine (returns_checked (h.deadline n (liftExcept_eq_ok.1 hn))).bind fun deadline _ => ?_
  refine Returns.bind (returns_validate ?_ ?_) fun _ _ => returns_ok _
  · intro wait hwait
    obtain ⟨cs, -, hsets⟩ := sets_of_readWaits hwaits hwait
    exact hsets.inRange
  · intro wait₁ wait₂ hwait₁ hwait₂
    obtain ⟨cs₁, hcs₁, hsets₁⟩ := sets_of_readWaits hwaits hwait₁
    obtain ⟨cs₂, hcs₂, hsets₂⟩ := sets_of_readWaits hwaits hwait₂
    exact h.total cs₁ hcs₁ cs₂ hcs₂ wait₁ wait₂ hsets₁ hsets₂

/-- The settings are read, or refused with an error, as long as all numbers stay in range. A length
of time that no span can hold is none, if it does not fit a word of seconds either, and otherwise a
fault. -/
theorem reading_in_range (lookup : String → Option String) :
    (InRange lookup → ∃ answer, (ofLookup lookup).run = .ok answer) ∧
      ∀ text m, Span.Writes text m → Span.longest < m →
        Span.read? text = if m < Numeral.wordEnd then .error .outOfRange else .ok none := by
  refine ⟨returns_ofLookup, fun text m hm hlong => ?_⟩
  rw [Span.read?_of_writes hm, if_neg (Nat.not_le.2 hlong)]

def patient (key : String) : Option String :=
  if key = "RESOLVED_RETENTION" then some "106751991167301d" else none

theorem writes_patient : Span.Writes "106751991167301d" 9223372036854806400 := by
  have htrim : trim "106751991167301d".toList = "106751991167301".toList ++ ['d'] := by
    decide +kernel
  have hvalue : Numeral.valueOf "106751991167301".toList = 106751991167301 := by decide +kernel
  have hall : "106751991167301".toList.all Numeral.isDigit = true := by decide +kernel
  have hdigits : Numeral.AreDigits "106751991167301".toList := List.all_eq_true.1 hall
  have hunit : Span.unit? 'd' = some ((86400 : Nat) : Int) := rfl
  have hparts := Span.Parts.cons (by decide) hdigits hunit .nil
  rw [hvalue, ← htrim] at hparts
  exact .parts (by decide +kernel) hparts

theorem inRange_patient : InRange patient := by
  have hzone : trim (zoneText patient).toList = ['U', 'T', 'C'] := by decide +kernel
  have hentries : entries (waitsText patient) =
      ["follow_up_1=1h".toList, "follow_up_2=3h".toList] := by decide +kernel
  have hcut₁ : cut? '=' "follow_up_1=1h".toList = some ("follow_up_1".toList, "1h".toList) := by
    decide +kernel
  have hcut₂ : cut? '=' "follow_up_2=3h".toList = some ("follow_up_2".toList, "3h".toList) := by
    decide +kernel
  have hread₁ : Span.read? (String.ofList "1h".toList) = .ok (some (.ofHours 1)) := by
    decide +kernel
  have hread₂ : Span.read? (String.ofList "3h".toList) = .ok (some (.ofHours 3)) := by
    decide +kernel
  have hwaits : ∀ cs ∈ entries (waitsText patient), ¬ WaitOverflows cs := by
    rw [hentries]
    simp only [List.forall_mem_cons]
    refine ⟨?_, ?_, List.forall_mem_nil _⟩
    · rintro ⟨name, span, hcut, hspan⟩
      cases hcut₁.symm.trans hcut
      exact Span.not_overflows hread₁ hspan
    · rintro ⟨name, span, hcut, hspan⟩
      cases hcut₂.symm.trans hcut
      exact Span.not_overflows hread₂ hspan
  have hshort : ∀ cs ∈ entries (waitsText patient), ∀ stage wait, Sets cs stage wait →
      wait = .ofHours 1 ∨ wait = .ofHours 3 := by
    rw [hentries]
    simp only [List.forall_mem_cons]
    refine ⟨?_, ?_, List.forall_mem_nil _⟩
    · rintro stage wait ⟨name, span, hcut, -, hspan⟩
      cases hcut₁.symm.trans hcut
      cases hread₁.symm.trans hspan
      exact .inl rfl
    · rintro stage wait ⟨name, span, hcut, -, hspan⟩
      cases hcut₂.symm.trans hcut
      cases hread₂.symm.trans hspan
      exact .inr rfl
  refine ⟨?_, hwaits, ?_, ?_, ?_⟩
  · rintro ⟨sign, cs, hours, minutes, htrim, hsign, -⟩
    obtain ⟨rfl, -⟩ := List.cons.inj (hzone.symm.trans htrim)
    exact absurd hsign (by decide)
  · intro cs₁ hcs₁ cs₂ hcs₂ wait₁ wait₂ hsets₁ hsets₂
    rcases hshort cs₁ hcs₁ _ _ hsets₁ with rfl | rfl <;>
      rcases hshort cs₂ hcs₂ _ _ hsets₂ with rfl | rfl <;> decide
  · intro n hn
    cases hn
    decide
  · have hnone : Span.read? (retentionText patient) = .ok none := by decide +kernel
    exact Span.not_overflows hnone

theorem reading_in_range_patient :
    InRange patient ∧ (∃ answer, (ofLookup patient).run = .ok answer) ∧
      Span.Writes "106751991167301d" 9223372036854806400 ∧
      Span.read? "106751991167301d" = .ok none :=
  ⟨inRange_patient, (reading_in_range patient).1 inRange_patient, writes_patient,
    (reading_in_range patient).2 _ _ writes_patient (by decide)⟩

def everlasting (key : String) : Option String :=
  if key = "RESOLVED_RETENTION" then some "106751991167300d" else none

theorem everlasting_faults : (ofLookup everlasting).run = .error .outOfRange := by
  have hunset : ∀ key ≠ "RESOLVED_RETENTION", everlasting key = none := fun _ hkey => if_neg hkey
  have hretention : (readRetention "106751991167300d").run = .error .outOfRange := by decide +kernel
  rw [ofLookup_eq_retention hunset, ExceptT.run_bind]
  exact congrArg (· >>= _) hretention

end Settings

end Followup
