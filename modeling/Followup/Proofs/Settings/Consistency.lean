import Followup.Proofs.BusinessHours.Days
import Followup.Proofs.Rules.Columns
import Followup.Proofs.Settings.Range
import Mathlib.Data.List.Perm.Basic

/-! Which settings are accepted. The texts have to be readable one by one, and the waits and the
deadline have to go together; that is enough. What is read from the list of waits depends on what its
entries say and not on how they are written or in which order they stand. -/

namespace Followup

open Text Fallible

theorem Span.writes_congr {text text' : String} {m : Nat}
    (h : trim text.toList = trim text'.toList) : Writes text m ↔ Writes text' m := by
  rw [writes_iff, writes_iff, h]

def Stage.Spelled (name : List Char) (stage : Stage) : Prop :=
  (trim name).map Char.toLower = stage.name.toList.map Char.toLower

theorem Stage.ofName_iff {cs : List Char} {stage : Stage} :
    ofName (String.ofList cs) = .ok stage ↔ Spelled cs stage := by
  constructor
  · intro h
    simp only [ofName, sameLetters, toLower_beq, trimmed, String.toList_ofList] at h
    split at h
    · next found hfound =>
      cases h
      have hsame := List.find?_some hfound
      exact (beq_iff_eq.1 hsame).symm
    · cases h
  · intro h
    refine ofName_eq_ok ?_
    rw [h]
    cases stage <;> decide +kernel

theorem Weekday.sorted_ne_nil_of_readList {text : String} {days : List Weekday}
    (h : readList text = .ok days) : sorted days ≠ [] := by
  obtain ⟨found, -, h⟩ := Followup.bind_eq_ok.1 h
  split at h
  · cases h
  · next hne =>
    cases h
    obtain ⟨d, rest, hcons⟩ := List.exists_cons_of_ne_nil (mt List.isEmpty_iff.2 hne)
    exact List.ne_nil_of_mem (mem_sorted.2 (hcons ▸ List.mem_cons_self))

theorem BusinessHours.read_iff {days start finish zone : String} :
    (∃ hours, (read days start finish zone).run = .ok (.ok hours)) ↔
      (∃ ds, Weekday.readList days = .ok ds) ∧
        (∃ t u, TimeOfDay.read start = .ok t ∧ TimeOfDay.read finish = .ok u ∧ t < u) ∧
        ∃ z, (Zone.read zone).run = .ok (.ok z) := by
  constructor
  · rintro ⟨hours, h⟩
    obtain ⟨ds, hdays, h⟩ := Fallible.bind_eq_ok.1 h
    obtain ⟨t, hstart, h⟩ := Fallible.bind_eq_ok.1 h
    obtain ⟨u, hfinish, h⟩ := Fallible.bind_eq_ok.1 h
    obtain ⟨z, hzone, h⟩ := Fallible.bind_eq_ok.1 h
    obtain ⟨-, rfl, rfl, -⟩ := of_build (liftExcept_eq_ok.1 h)
    exact ⟨⟨ds, liftExcept_eq_ok.1 hdays⟩, ⟨_, _, liftExcept_eq_ok.1 hstart,
      liftExcept_eq_ok.1 hfinish, hours.start_lt_finish⟩, z, hzone⟩
  · rintro ⟨⟨ds, hdays⟩, ⟨t, u, hstart, hfinish, hlt⟩, z, hzone⟩
    have hne : Weekday.sorted ds ≠ [] := Weekday.sorted_ne_nil_of_readList hdays
    exact ⟨_, read_of_days hdays ⟨hstart, hfinish, hzone, hlt⟩ hne⟩

namespace Settings

variable {lookup lookup' : String → Option String} {s : Settings} {text text' : String}
  {waits out : Waits} {added : List (Stage × Nat)} {cs cs' : List Char} {css : List (List Char)}
  {stage : Stage} {wait wait₁ wait₂ d : Span} {m m₁ m₂ kept : Nat} {hours n : Int}

def Gives (cs : List Char) (stage : Stage) (m : Nat) : Prop :=
  ∃ name span, cs = name ++ '=' :: span ∧ '=' ∉ name ∧ Stage.Spelled name stage ∧
    Span.Writes (String.ofList span) m ∧ m < Numeral.wordEnd

def timed (e : Stage × Nat) : Stage × Span := (e.1, .ofSeconds e.2)

theorem readWait_of_gives (h : Gives cs stage m) :
    (readWait cs).run =
      if m ≤ Span.longest then .ok (.ok (timed (stage, m))) else .error .outOfRange := by
  obtain ⟨name, span, rfl, hname, hstage, hspan, hfits⟩ := h
  have hcut := cut?_append hname span
  have hread := Span.read?_of_writes hspan
  by_cases hle : m ≤ Span.longest
  · rw [if_pos hle] at hread ⊢
    exact readWait_eq_ok hcut (Stage.ofName_iff.2 hstage) hread
  · rw [if_neg hle, if_pos hfits] at hread
    rw [if_neg hle]
    simp only [readWait, hcut, Stage.ofName_iff.2 hstage, hread]
    rfl

theorem gives_of_readWait (h : (readWait cs).run = .ok (.ok (stage, wait))) :
    ∃ m, Gives cs stage m ∧ m ≤ Span.longest ∧ wait = .ofSeconds m := by
  obtain ⟨name, span, hcut, hstage, hspan⟩ := sets_of_readWait h
  obtain ⟨rfl, hname⟩ := cut?_eq_some hcut
  obtain ⟨m, hwrites, hle, rfl⟩ := Span.read?_eq_some.1 hspan
  have hlongest : Span.longest < Numeral.wordEnd := by decide
  exact ⟨m, ⟨name, span, rfl, hname, Stage.ofName_iff.1 hstage, hwrites, by omega⟩, hle, rfl⟩

def Entered (css : List (List Char)) (added : List (Stage × Nat)) : Prop :=
  List.Forall₂ (fun cs e => Gives cs e.1 e.2) css added

theorem Gives.unique {stage' : Stage} {m' : Nat} (h : Gives cs stage m) (h' : Gives cs stage' m') :
    stage = stage' ∧ m = m' := by
  obtain ⟨name, span, rfl, hname, hstage, hspan, -⟩ := h
  obtain ⟨name', span', hcs, hname', hstage', hspan', -⟩ := h'
  have hcut := cut?_append hname span
  rw [hcs, cut?_append hname'] at hcut
  obtain ⟨rfl, rfl⟩ := Prod.mk.inj (Option.some.inj hcut)
  have hsame := (Stage.ofName_iff.2 hstage).symm.trans (Stage.ofName_iff.2 hstage')
  exact ⟨Except.ok.inj hsame, hspan.unique hspan'⟩

theorem Entered.unique {added' : List (Stage × Nat)} (h : Entered css added)
    (h' : Entered css added') : added = added' := by
  induction h generalizing added' with
  | nil =>
    cases h'
    rfl
  | cons hcs _ ih =>
    obtain _ | ⟨hcs', hrest⟩ := h'
    obtain ⟨hstage, hm⟩ := hcs.unique hcs'
    rw [Prod.ext hstage hm, ih hrest]

theorem readWaitsFrom_cons (hread : (readWait cs).run = .ok (.ok (stage, wait)))
    (hnew : stage ∉ waits.map Prod.fst) :
    readWaitsFrom waits (cs :: css) = readWaitsFrom (waits ++ [(stage, wait)]) css := by
  have hnone : waits.lookup stage = none := by
    refine List.lookup_eq_none_iff.2 fun e he => bne_iff_ne.2 ?_
    rintro rfl
    exact hnew (List.mem_map_of_mem he)
  rw [readWaitsFrom, bind_of_ok hread]
  dsimp only
  rw [hnone]
  rfl

theorem readWaitsFrom_of_entered (h : Entered css added)
    (hkeys : (waits.map Prod.fst ++ added.map Prod.fst).Nodup)
    (hspans : ∀ e ∈ added, e.2 ≤ Span.longest) :
    (readWaitsFrom waits css).run = .ok (.ok (waits ++ added.map timed)) := by
  induction h generalizing waits with
  | nil =>
    rw [List.map_nil, List.append_nil]
    rfl
  | @cons cs e css added hcs hrest ih =>
    obtain ⟨hle, hspans⟩ := List.forall_mem_cons.1 hspans
    have hread := (readWait_of_gives hcs).trans (if_pos hle)
    have hnew : e.1 ∉ waits.map Prod.fst :=
      fun hmem => (List.nodup_append.1 hkeys).2.2 _ hmem _ (.head _) rfl
    rw [readWaitsFrom_cons hread hnew, ih (by simpa using hkeys) hspans]
    simp [timed]

theorem le_longest_of_returns (waits : Waits) (h : Entered css added)
    (hkeys : (waits.map Prod.fst ++ added.map Prod.fst).Nodup)
    (hreturns : (readWaitsFrom waits css).Returns) : ∀ e ∈ added, e.2 ≤ Span.longest := by
  induction h generalizing waits with
  | nil => exact List.forall_mem_nil _
  | @cons cs e css added hcs hrest ih =>
    have hrun := readWait_of_gives hcs
    by_cases hle : e.2 ≤ Span.longest
    · rw [if_pos hle] at hrun
      have hnew : e.1 ∉ waits.map Prod.fst :=
        fun hmem => (List.nodup_append.1 hkeys).2.2 _ hmem _ (.head _) rfl
      rw [readWaitsFrom_cons hrun hnew] at hreturns
      exact List.forall_mem_cons.2 ⟨hle, ih _ (by simpa using hkeys) hreturns⟩
    · rw [if_neg hle] at hrun
      obtain ⟨r, hr⟩ := hreturns.of_bind
      cases hrun.symm.trans hr

theorem of_readWaitsFrom (h : (readWaitsFrom waits css).run = .ok (.ok out))
    (hkeys : (waits.map Prod.fst).Nodup) :
    ∃ added, Entered css added ∧ (waits.map Prod.fst ++ added.map Prod.fst).Nodup ∧
      (∀ e ∈ added, e.2 ≤ Span.longest) ∧ out = waits ++ added.map timed := by
  induction css generalizing waits with
  | nil =>
    cases h
    exact ⟨[], .nil, by simpa using hkeys, List.forall_mem_nil _, (List.append_nil _).symm⟩
  | cons cs css ih =>
    rw [readWaitsFrom] at h
    obtain ⟨⟨stage, wait⟩, hread, h⟩ := Fallible.bind_eq_ok.1 h
    dsimp only at h
    split at h
    · cases h
    · next hnone =>
      obtain ⟨m, hgives, hle, rfl⟩ := gives_of_readWait hread
      have hnew : stage ∉ waits.map Prod.fst := by
        rintro hmem
        obtain ⟨⟨_, w⟩, hentry, rfl⟩ := List.mem_map.1 hmem
        rw [lookup_of_mem hkeys hentry] at hnone
        exact hnone rfl
      have hkeys' : ((waits ++ [(stage, Span.ofSeconds m)]).map Prod.fst).Nodup := by
        rw [List.map_append, List.map_cons, List.map_nil]
        exact hkeys.append (List.nodup_singleton _) (List.disjoint_singleton.2 hnew)
      obtain ⟨added, hentered, hnodup, hspans, rfl⟩ := ih h hkeys'
      exact ⟨(stage, m) :: added, .cons hgives hentered, by simpa using hnodup,
        List.forall_mem_cons.2 ⟨hle, hspans⟩, by simp [timed]⟩

theorem readWaits_eq_ok :
    (readWaits text).run = .ok (.ok waits) ↔
      ∃ added, Entered (entries text) added ∧ (added.map Prod.fst).Nodup ∧
        (∀ e ∈ added, e.2 ≤ Span.longest) ∧ waits = added.map timed := by
  constructor
  · intro h
    exact of_readWaitsFrom h List.nodup_nil
  · rintro ⟨added, hentered, hkeys, hspans, rfl⟩
    exact readWaitsFrom_of_entered hentered hkeys hspans

def followUps (m₁ m₂ : Nat) : List (Stage × Nat) := [(.followUp1, m₁), (.followUp2, m₂)]

theorem nodup_followUps (m₁ m₂ : Nat) : ((followUps m₁ m₂).map Prod.fst).Nodup := by
  change [Stage.followUp1, Stage.followUp2].Nodup
  decide

theorem nodup_of_perm (hperm : added.Perm (followUps m₁ m₂)) : (added.map Prod.fst).Nodup :=
  (hperm.map Prod.fst).nodup_iff.2 (nodup_followUps m₁ m₂)

/-- Blank entries aside, the list has one entry for each follow-up, in either order, that give them
so many seconds. -/
def Scheduled (text : String) (m₁ m₂ : Nat) : Prop :=
  ∃ first second, (entries text).Perm [first, second] ∧ Gives first .followUp1 m₁ ∧
    Gives second .followUp2 m₂

theorem scheduled_iff :
    Scheduled text m₁ m₂ ↔ ∃ added, Entered (entries text) added ∧ added.Perm (followUps m₁ m₂) := by
  constructor
  · rintro ⟨first, second, hperm, h₁, h₂⟩
    have hpair : Entered [first, second] (followUps m₁ m₂) := .cons h₁ (.cons h₂ .nil)
    exact List.perm_comp_forall₂ hperm hpair
  · rintro ⟨added, hentered, hperm⟩
    obtain ⟨_, hpair, hmoved⟩ := List.perm_comp_forall₂ hperm.symm (List.Forall₂.flip hentered)
    obtain _ | ⟨h₁, _ | ⟨h₂, _ | _⟩⟩ := hpair
    exact ⟨_, _, hmoved.symm, h₁, h₂⟩

theorem lookup_timed (added : List (Stage × Nat)) (stage : Stage) :
    (added.map timed).lookup stage = (added.lookup stage).map fun m : Nat => Span.ofSeconds m := by
  induction added with
  | nil => rfl
  | cons e added ih =>
    rw [List.map_cons, timed, List.lookup_cons, List.lookup_cons, ih]
    cases stage == e.1 <;> rfl

theorem perm_of_accepted (hwaits : s.waits = added.map timed) (hkeys : (added.map Prod.fst).Nodup)
    (h : s.Accepted wait₁ wait₂) :
    ∃ m₁ m₂, added.Perm (followUps m₁ m₂) ∧ wait₁ = .ofSeconds m₁ ∧ wait₂ = .ofSeconds m₂ := by
  have hlookup (stage : Stage) :
      s.waitBefore stage = (added.lookup stage).map fun m : Nat => Span.ofSeconds m := by
    rw [waitBefore, hwaits, lookup_timed]
  obtain ⟨m₁, hm₁, rfl⟩ := Option.map_eq_some_iff.1 ((hlookup _).symm.trans h.followUp1)
  obtain ⟨m₂, hm₂, rfl⟩ := Option.map_eq_some_iff.1 ((hlookup _).symm.trans h.followUp2)
  have hnone (stage : Stage) (hstage : stage ∉ waitedStages) : added.lookup stage = none :=
    Option.map_eq_none_iff.1 ((hlookup stage).symm.trans (h.others stage hstage))
  refine ⟨m₁, m₂, (perm_iff_lookup hkeys (nodup_followUps m₁ m₂)).2 fun stage => ?_, rfl, rfl⟩
  cases stage with
  | initial => exact hnone _ (by decide)
  | followUp1 => exact hm₁
  | followUp2 => exact hm₂
  | deadline => exact hnone _ (by decide)

theorem waitBefore_of_perm (hwaits : s.waits = added.map timed)
    (hperm : added.Perm (followUps m₁ m₂)) (stage : Stage) :
    s.waitBefore stage = ((followUps m₁ m₂).lookup stage).map fun m : Nat => Span.ofSeconds m := by
  rw [waitBefore, hwaits, lookup_timed,
    (perm_iff_lookup (nodup_of_perm hperm) (nodup_followUps m₁ m₂)).1 hperm]

theorem ofSeconds_pos : Span.zero < .ofSeconds n ↔ 0 < n := by
  rw [Span.lt_def]
  simp only [Span.nanos_zero, Span.ofSeconds]
  omega

theorem accepted_of_perm (hwaits : s.waits = added.map timed)
    (hperm : added.Perm (followUps m₁ m₂)) (hpos : 0 < m₁ ∧ 0 < m₂)
    (hdeadline : s.deadline = .ofHours hours) (hlt : (m₁ + m₂ : Int) < hours * 3600) :
    s.Accepted (.ofSeconds m₁) (.ofSeconds m₂) where
  followUp1 := waitBefore_of_perm hwaits hperm _
  followUp2 := waitBefore_of_perm hwaits hperm _
  others stage hstage := by
    rw [waitBefore_of_perm hwaits hperm]
    cases stage with
    | initial | deadline => rfl
    | followUp1 | followUp2 => exact absurd (by decide) hstage
  pos₁ := ofSeconds_pos.2 (by omega)
  pos₂ := ofSeconds_pos.2 (by omega)
  total_lt := by
    rw [hdeadline, Span.lt_def, Span.nanos_add]
    simp only [Span.ofHours, Span.ofSeconds]
    omega

theorem totalWait_cons {stages : List Stage} {total : Span} (h : s.waitBefore stage = some wait)
    (hpos : .zero < wait) (hrange : (total + wait).InRange) :
    s.totalWait (stage :: stages) total = s.totalWait stages (total + wait) := by
  have hnot : ¬ wait ≤ .zero := Int.not_le.2 hpos
  rw [totalWait, h]
  dsimp only
  rw [if_neg hnot, Span.checked, if_pos hrange]
  rfl

theorem validate_of_accepted (h : s.Accepted wait₁ wait₂) (hrange : s.deadline.InRange) :
    s.validate.run = .ok (.ok ()) := by
  obtain ⟨hpos₁, hpos₂, hlt⟩ := h.nanos
  have hbelow {d : Span} (hd : 0 < d.nanos ∧ d.nanos < s.deadline.nanos) : d.InRange := by
    have hlimit := hrange.2
    exact ⟨by rw [Span.limit]; omega, by omega⟩
  have htotal : s.totalWait waitedStages .zero = pure (Span.zero + wait₁ + wait₂) := by
    rw [waitedStages, totalWait_cons h.followUp1 h.pos₁ (hbelow (by simp; omega)),
      totalWait_cons h.followUp2 h.pos₂ (hbelow (by simp; omega)), totalWait]
  have hothers : (s.waits.map Prod.fst).find? (!waitedStages.contains ·) = none := by
    refine List.find?_eq_none.2 fun stage hstage => ?_
    obtain ⟨e, he, rfl⟩ := List.mem_map.1 hstage
    intro hno
    have hnone := h.others e.1 (by simpa using hno)
    exact absurd rfl (bne_iff_ne.1 (List.lookup_eq_none_iff.1 hnone e he))
  have hdeadline : ¬ s.deadline ≤ .zero := Int.not_le.2 h.deadline_pos
  have hroom : ¬ s.deadline ≤ Span.zero + wait₁ + wait₂ := by
    rw [Span.le_def]
    simp only [Span.nanos_add, Span.nanos_zero]
    omega
  simp only [validate]
  rw [if_neg hdeadline, htotal]
  simp only [pure_bind, hothers]
  rw [if_neg hroom]
  rfl

def daysText (lookup : String → Option String) : String :=
  (lookup "BUSINESS_DAYS").getD "mon-fri"

def startText (lookup : String → Option String) : String :=
  (lookup "BUSINESS_START").getD "06:00"

def finishText (lookup : String → Option String) : String :=
  (lookup "BUSINESS_END").getD "22:00"

def deadlineText (lookup : String → Option String) : String :=
  (lookup "DEADLINE_BUSINESS_HOURS").getD "16"

theorem readDeadline_eq_ok :
    readDeadline (lookup "DEADLINE_BUSINESS_HOURS") = .ok n ↔
      Numeral.Signed (trim (deadlineText lookup).toList) n ∧ Numeral.fits 64 n = true := by
  rw [← Numeral.word?_eq_some, deadlineText]
  cases lookup "DEADLINE_BUSINESS_HOURS" with
  | none =>
    have hstandard : Numeral.word? 64 (trim "16".toList) = some 16 := by decide +kernel
    rw [readDeadline, Option.getD_none, hstandard, Except.ok.injEq, Option.some_inj]
  | some text =>
    rw [readDeadline, Option.getD_some]
    cases Numeral.word? 64 (trim text.toList) with
    | none =>
      refine iff_of_false (fun h => ?_) fun h => ?_
      · cases h
      · cases h
    | some i => rw [Except.ok.injEq, Option.some_inj]

theorem readRetention_eq_ok :
    (readRetention text).run = .ok (.ok d) ↔
      ∃ kept, Span.Writes text kept ∧ kept ≤ Span.longest ∧ d = .ofSeconds kept := by
  rw [← Span.read?_eq_some, readRetention, Fallible.bind_eq_ok]
  constructor
  · rintro ⟨d?, hd, h⟩
    rw [lift_eq_ok.1 hd]
    cases d? with
    | none => cases h
    | some d' =>
      cases h
      rfl
  · intro h
    exact ⟨_, lift_eq_ok.2 h, rfl⟩

theorem le_longest_of_readRetention (h : Span.Writes text kept) (hfits : kept < Numeral.wordEnd)
    (hreturns : (readRetention text).Returns) : kept ≤ Span.longest := by
  obtain ⟨d?, hd⟩ := exists_of_returns_lift hreturns.of_bind
  exact Nat.not_lt.1 fun hlong => Span.not_overflows hd ⟨kept, h, hlong, hfits⟩

theorem inRange_of_checked (h : d.checked = .ok wait) : d.InRange := by
  by_contra hno
  rw [Span.checked, if_neg hno] at h
  cases h

structure Reads (lookup : String → Option String) (s : Settings) (n : Int) : Prop where
  hours : (BusinessHours.read (daysText lookup) (startText lookup) (finishText lookup)
    (zoneText lookup)).run = .ok (.ok s.hours)
  waits : (readWaits (waitsText lookup)).run = .ok (.ok s.waits)
  hoursToDeadline : readDeadline (lookup "DEADLINE_BUSINESS_HOURS") = .ok n
  retention : (readRetention (retentionText lookup)).run = .ok (.ok s.retention)
  inRange : (Span.ofHours n).InRange
  deadline : s.deadline = .ofHours n
  profile : s.profile = ""
  tablesDir : s.tablesDir = lookup "TABLES_DIR"

theorem ofLookup_eq_ok :
    (ofLookup lookup).run = .ok (.ok s) ↔
      (∃ n, Reads lookup s n) ∧ s.validate.run = .ok (.ok ()) := by
  constructor
  · intro h
    rw [ofLookup] at h
    obtain ⟨_, hhours, h⟩ := Fallible.bind_eq_ok.1 h
    obtain ⟨_, hwaits, h⟩ := Fallible.bind_eq_ok.1 h
    obtain ⟨n, hdeadline, h⟩ := Fallible.bind_eq_ok.1 h
    obtain ⟨_, hretention, h⟩ := Fallible.bind_eq_ok.1 h
    obtain ⟨deadline, hchecked, h⟩ := Fallible.bind_eq_ok.1 h
    obtain ⟨⟨⟩, hvalid, h⟩ := Fallible.bind_eq_ok.1 h
    cases h
    have hchecked := lift_eq_ok.1 hchecked
    exact ⟨⟨n, hhours, hwaits, liftExcept_eq_ok.1 hdeadline, hretention,
      inRange_of_checked hchecked, Span.checked_eq_ok hchecked, rfl, rfl⟩, hvalid⟩
  · rintro ⟨⟨n, h⟩, hvalid⟩
    have hchecked : (Span.ofHours n).checked = .ok s.deadline := by
      rw [Span.checked, if_pos h.inRange, h.deadline]
    obtain ⟨profile, hours, waits, deadline, tablesDir, retention⟩ := s
    obtain rfl := h.profile
    obtain rfl := h.tablesDir
    rw [ofLookup]
    refine Fallible.bind_eq_ok.2 ⟨_, h.hours, ?_⟩
    refine Fallible.bind_eq_ok.2 ⟨_, h.waits, ?_⟩
    refine Fallible.bind_eq_ok.2 ⟨_, liftExcept_eq_ok.2 h.hoursToDeadline, ?_⟩
    refine Fallible.bind_eq_ok.2 ⟨_, h.retention, ?_⟩
    refine Fallible.bind_eq_ok.2 ⟨deadline, lift_eq_ok.2 hchecked, ?_⟩
    exact Fallible.bind_eq_ok.2 ⟨(), hvalid, rfl⟩

/-- Settings can be made of the texts: those for the business hours are readable and the window has
an inside, each follow-up waits for some time, the deadline is a number of hours that both waits fit
into, and the retention is a length of time. -/
structure Consistent (lookup : String → Option String) (m₁ m₂ : Nat) (hours : Int) (kept : Nat) :
    Prop where
  days : ∃ days, Weekday.readList (daysText lookup) = .ok days
  window : ∃ start finish, TimeOfDay.read (startText lookup) = .ok start ∧
    TimeOfDay.read (finishText lookup) = .ok finish ∧ start < finish
  zone : ∃ zone, (Zone.read (zoneText lookup)).run = .ok (.ok zone)
  waits : Scheduled (waitsText lookup) m₁ m₂
  waits_pos : 0 < m₁ ∧ 0 < m₂
  deadline : Numeral.Signed (trim (deadlineText lookup).toList) hours ∧
    Numeral.fits 64 hours = true
  deadline_pos : 0 < hours
  waits_lt : (m₁ + m₂ : Int) < hours * 3600
  retention : Span.Writes (retentionText lookup) kept ∧ kept < Numeral.wordEnd

theorem consistent_of_accepted (h : (ofLookup lookup).run = .ok (.ok s)) :
    ∃ m₁ m₂ hours kept, Consistent lookup m₁ m₂ hours kept := by
  obtain ⟨⟨hours, hreads⟩, hvalid⟩ := ofLookup_eq_ok.1 h
  obtain ⟨hdays, hwindow, hzone⟩ := BusinessHours.read_iff.1 ⟨_, hreads.hours⟩
  obtain ⟨added, hentered, hkeys, -, hwaits⟩ := readWaits_eq_ok.1 hreads.waits
  obtain ⟨wait₁, wait₂, haccepted⟩ := accepted_of_validate hvalid
  obtain ⟨m₁, m₂, hperm, rfl, rfl⟩ := perm_of_accepted hwaits hkeys haccepted
  obtain ⟨kept, hkept, hle, -⟩ := readRetention_eq_ok.1 hreads.retention
  have hlongest : Span.longest < Numeral.wordEnd := by decide
  have hpos₁ := ofSeconds_pos.1 haccepted.pos₁
  have hpos₂ := ofSeconds_pos.1 haccepted.pos₂
  have hlt : (m₁ + m₂ : Int) < hours * 3600 := by
    have hnanos := haccepted.total_lt
    rw [hreads.deadline, Span.lt_def, Span.nanos_add] at hnanos
    simp only [Span.ofHours, Span.ofSeconds] at hnanos
    omega
  exact ⟨m₁, m₂, hours, kept,
    { days := hdays
      window := hwindow
      zone := hzone
      waits := scheduled_iff.2 ⟨added, hentered, hperm⟩
      waits_pos := by omega
      deadline := readDeadline_eq_ok.1 hreads.hoursToDeadline
      deadline_pos := by omega
      waits_lt := hlt
      retention := ⟨hkept, by omega⟩ }⟩

theorem accepted_of_consistent (h : Consistent lookup m₁ m₂ hours kept)
    (hrange : (Span.ofHours hours).InRange) (hkept : kept ≤ Span.longest) :
    ∃ s, (ofLookup lookup).run = .ok (.ok s) := by
  obtain ⟨business, hhours⟩ := BusinessHours.read_iff.2 ⟨h.days, h.window, h.zone⟩
  obtain ⟨added, hentered, hperm⟩ := scheduled_iff.1 h.waits
  have hkeys := nodup_of_perm hperm
  have hspans : ∀ e ∈ added, e.2 ≤ Span.longest := by
    -- The deadline is a span, and both waits are shorter.
    have hlt := h.waits_lt
    have hlimit := hrange.2
    simp only [Span.ofHours, Span.ofSeconds, Span.limit] at hlimit
    have hboth : ∀ e ∈ followUps m₁ m₂, e.2 ≤ Span.longest := by
      rw [followUps, Span.longest]
      simp only [List.forall_mem_cons]
      exact ⟨by omega, by omega, List.forall_mem_nil _⟩
    exact fun e he => hboth e (hperm.mem_iff.1 he)
  have hwaits := readWaits_eq_ok.2 ⟨added, hentered, hkeys, hspans, rfl⟩
  have hdeadline := readDeadline_eq_ok.2 h.deadline
  have hretention := readRetention_eq_ok.2 ⟨kept, h.retention.1, hkept, rfl⟩
  let s : Settings :=
    { profile := "", hours := business, waits := added.map timed, deadline := .ofHours hours,
      tablesDir := lookup "TABLES_DIR", retention := .ofSeconds kept }
  have haccepted : s.Accepted _ _ := accepted_of_perm rfl hperm h.waits_pos rfl h.waits_lt
  exact ⟨s, ofLookup_eq_ok.2 ⟨⟨hours, hhours, hwaits, hdeadline, hretention, hrange, rfl, rfl, rfl⟩,
    validate_of_accepted haccepted hrange⟩⟩

theorem inRange_of_returns (h : Consistent lookup m₁ m₂ hours kept)
    (hreturns : (ofLookup lookup).Returns) :
    (Span.ofHours hours).InRange ∧ kept ≤ Span.longest := by
  obtain ⟨business, hhours⟩ := BusinessHours.read_iff.2 ⟨h.days, h.window, h.zone⟩
  obtain ⟨added, hentered, hperm⟩ := scheduled_iff.1 h.waits
  have hkeys := nodup_of_perm hperm
  -- After each part that has been done, what is left to do returns too.
  rw [ofLookup] at hreturns
  have hafterHours := hreturns.rest hhours
  have hspans := le_longest_of_returns [] hentered hkeys hafterHours.of_bind
  have hwaits := readWaits_eq_ok.2 ⟨added, hentered, hkeys, hspans, rfl⟩
  have hdeadline := liftExcept_eq_ok.2 (readDeadline_eq_ok.2 h.deadline)
  have hafterDeadline := (hafterHours.rest hwaits).rest hdeadline
  have hkept := le_longest_of_readRetention h.retention.1 h.retention.2 hafterDeadline.of_bind
  have hretention := readRetention_eq_ok.2 ⟨kept, h.retention.1, hkept, rfl⟩
  obtain ⟨_, hchecked⟩ := exists_of_returns_lift (hafterDeadline.rest hretention).of_bind
  exact ⟨inRange_of_checked hchecked, hkept⟩

def SameEntry (cs cs' : List Char) : Prop :=
  ∃ name span name' span', cs = name ++ '=' :: span ∧ '=' ∉ name ∧
    cs' = name' ++ '=' :: span' ∧ '=' ∉ name' ∧
    (trim name).map Char.toLower = (trim name').map Char.toLower ∧ trim span = trim span'

/-- The lists have the same entries, in some order and some spelling. -/
def Reworded (text text' : String) : Prop :=
  ∃ moved, (entries text).Perm moved ∧ List.Forall₂ SameEntry moved (entries text')

theorem Gives.of_same (h : Gives cs stage m) (hsame : SameEntry cs cs') : Gives cs' stage m := by
  obtain ⟨name, span, rfl, hname, hstage, hspan, hfits⟩ := h
  obtain ⟨_, _, name', span', hcs, hname₁, rfl, hname', hnames, hspans⟩ := hsame
  have hcut := cut?_append hname span
  rw [hcs, cut?_append hname₁] at hcut
  obtain ⟨rfl, rfl⟩ := Prod.mk.inj (Option.some.inj hcut)
  refine ⟨name', span', rfl, hname', hnames.symm.trans hstage, ?_, hfits⟩
  exact (Span.writes_congr (by rwa [String.toList_ofList, String.toList_ofList])).1 hspan

theorem Entered.of_same {css' : List (List Char)} (h : Entered css added)
    (hsame : List.Forall₂ SameEntry css css') : Entered css' added := by
  induction hsame generalizing added with
  | nil =>
    cases h
    exact .nil
  | cons hcs _ ih =>
    obtain _ | ⟨hgives, hrest⟩ := h
    exact .cons (hgives.of_same hcs) (ih hrest)

theorem Entered.of_reworded (h : Entered (entries text) added) (hsame : Reworded text text') :
    ∃ added', Entered (entries text') added' ∧ added'.Perm added := by
  obtain ⟨moved, hperm, hsame⟩ := hsame
  obtain ⟨added', hentered, hadded⟩ := List.perm_comp_forall₂ hperm.symm h
  exact ⟨added', Entered.of_same hentered hsame, hadded⟩

theorem ofLookup_of_reworded (h : (ofLookup lookup).run = .ok (.ok s))
    (hothers : ∀ key ≠ "STAGE_WAITS", lookup' key = lookup key)
    (hsame : Reworded (waitsText lookup) (waitsText lookup')) :
    ∃ s', (ofLookup lookup').run = .ok (.ok s') ∧ s' = { s with waits := s'.waits } ∧
      ∀ stage, s'.waitBefore stage = s.waitBefore stage := by
  obtain ⟨⟨hours, hreads⟩, hvalid⟩ := ofLookup_eq_ok.1 h
  obtain ⟨added, hentered, hkeys, hspans, hwaits⟩ := readWaits_eq_ok.1 hreads.waits
  obtain ⟨added', hentered', hperm⟩ := hentered.of_reworded hsame
  have hkeys' : (added'.map Prod.fst).Nodup := (hperm.map Prod.fst).nodup_iff.2 hkeys
  have hspans' : ∀ e ∈ added', e.2 ≤ Span.longest := fun e he => hspans e (hperm.mem_iff.1 he)
  have hwaits' := readWaits_eq_ok.2 ⟨added', hentered', hkeys', hspans', rfl⟩
  have hlookup (stage : Stage) : (added'.map timed).lookup stage = s.waitBefore stage := by
    rw [waitBefore, hwaits, lookup_timed, lookup_timed, (perm_iff_lookup hkeys' hkeys).1 hperm]
  obtain ⟨wait₁, wait₂, haccepted⟩ := accepted_of_validate hvalid
  have haccepted' : { s with waits := added'.map timed }.Accepted wait₁ wait₂ :=
    { haccepted with
      followUp1 := (hlookup _).trans haccepted.followUp1
      followUp2 := (hlookup _).trans haccepted.followUp2
      others := fun stage hstage => (hlookup stage).trans (haccepted.others stage hstage) }
  have hrange : s.deadline.InRange := hreads.deadline ▸ hreads.inRange
  refine ⟨{ s with waits := added'.map timed },
    ofLookup_eq_ok.2 ⟨⟨hours, ?_⟩, validate_of_accepted haccepted' hrange⟩, rfl, hlookup⟩
  exact
    { hours := by
        simp only [daysText, startText, finishText, zoneText, ne_eq, String.reduceEq,
          not_false_eq_true, hothers]
        exact hreads.hours
      waits := hwaits'
      hoursToDeadline := by rw [hothers _ (by decide)]; exact hreads.hoursToDeadline
      retention := by rw [retentionText, hothers _ (by decide)]; exact hreads.retention
      inRange := hreads.inRange
      deadline := hreads.deadline
      profile := hreads.profile
      tablesDir := by rw [hothers _ (by decide)]; exact hreads.tablesDir }

/-- Wherever settings are read without a fault, they are accepted just if the texts are consistent.
The stages wait as long as the texts say, however the list of waits is written. -/
theorem accepted_iff_consistent (hreturns : (ofLookup lookup).Returns) :
    ((∃ s, (ofLookup lookup).run = .ok (.ok s)) ↔
        ∃ m₁ m₂ hours kept, Consistent lookup m₁ m₂ hours kept) ∧
      ∀ s, (ofLookup lookup).run = .ok (.ok s) →
        (∀ m₁ m₂, Scheduled (waitsText lookup) m₁ m₂ →
          s.waitBefore .followUp1 = some (.ofSeconds m₁) ∧
            s.waitBefore .followUp2 = some (.ofSeconds m₂)) ∧
        (s.waitBefore .initial = none ∧ s.waitBefore .deadline = none) ∧
        ∀ lookup' : String → Option String,
          (∀ key ≠ "STAGE_WAITS", lookup' key = lookup key) →
          Reworded (waitsText lookup) (waitsText lookup') →
          ∃ s', (ofLookup lookup').run = .ok (.ok s') ∧ s' = { s with waits := s'.waits } ∧
            ∀ stage, s'.waitBefore stage = s.waitBefore stage := by
  refine ⟨⟨fun ⟨s, hs⟩ => consistent_of_accepted hs,
    fun ⟨m₁, m₂, hours, kept, h⟩ => ?_⟩, fun s hs => ?_⟩
  · obtain ⟨hrange, hkept⟩ := inRange_of_returns h hreturns
    exact accepted_of_consistent h hrange hkept
  obtain ⟨⟨hours, hreads⟩, hvalid⟩ := ofLookup_eq_ok.1 hs
  obtain ⟨wait₁, wait₂, haccepted⟩ := accepted_of_validate hvalid
  refine ⟨fun m₁ m₂ hscheduled => ?_, ⟨haccepted.others _ (by decide),
    haccepted.others _ (by decide)⟩, fun lookup' => ofLookup_of_reworded hs⟩
  obtain ⟨added, hentered, -, -, hwaits⟩ := readWaits_eq_ok.1 hreads.waits
  obtain ⟨added', hentered', hperm⟩ := scheduled_iff.1 hscheduled
  obtain rfl : added = added' := hentered.unique hentered'
  exact ⟨waitBefore_of_perm hwaits hperm _, waitBefore_of_perm hwaits hperm _⟩

def hasty (key : String) : Option String :=
  if key = "STAGE_WAITS" then some " Follow_Up_2 = 90m ,, FOLLOW_UP_1=30m"
  else if key = "DEADLINE_BUSINESS_HOURS" then some " +3" else none

def orderly (key : String) : Option String :=
  if key = "STAGE_WAITS" then some "follow_up_1=30m,follow_up_2=90m" else hasty key

theorem gives_minutes {name span : List Char} (digits : List Char) (hname : '=' ∉ name)
    (hstage : Stage.Spelled name stage) (hspan : trim span = digits ++ ['m'])
    (hdigits : Numeral.AreDigits digits) (hne : digits ≠ [])
    (hfits : Numeral.valueOf digits * 60 + 0 < Numeral.wordEnd) :
    Gives (name ++ '=' :: span) stage (Numeral.valueOf digits * 60 + 0) := by
  have htrim : trim (String.ofList span).toList = digits ++ ['m'] := by
    rw [String.toList_ofList, hspan]
  have hparts : Span.Parts (digits ++ ['m']) (Numeral.valueOf digits * 60 + 0) :=
    .cons hne hdigits rfl .nil
  refine ⟨name, span, rfl, hname, hstage, .parts ?_ (htrim ▸ hparts), hfits⟩
  rw [htrim]
  exact List.append_ne_nil_of_right_ne_nil _ (List.cons_ne_nil _ _)

theorem entries_hasty : entries (waitsText hasty) =
    ["Follow_Up_2 ".toList ++ '=' :: " 90m".toList, "FOLLOW_UP_1".toList ++ '=' :: "30m".toList] := by
  decide +kernel

theorem consistent_hasty : Consistent hasty 1800 5400 3 3600 := by
  obtain ⟨hdays, hwindow, hzone⟩ := BusinessHours.read_iff.1 ⟨_, standard_hours⟩
  have hfirst : Gives ("FOLLOW_UP_1".toList ++ '=' :: "30m".toList) .followUp1 1800 :=
    gives_minutes ['3', '0'] (by decide) (by rw [Stage.Spelled]; decide +kernel)
      (by decide +kernel) (List.all_eq_true.1 (by decide)) (by decide) (by decide)
  have hsecond : Gives ("Follow_Up_2 ".toList ++ '=' :: " 90m".toList) .followUp2 5400 :=
    gives_minutes ['9', '0'] (by decide) (by rw [Stage.Spelled]; decide +kernel)
      (by decide +kernel) (List.all_eq_true.1 (by decide)) (by decide) (by decide)
  have hdeadline : Numeral.word? 64 (trim (deadlineText hasty).toList) = some 3 := by
    decide +kernel
  have hretention : Span.read? (retentionText hasty) = .ok (some (.ofHours 1)) := by decide +kernel
  obtain ⟨kept, hkept, hle, hhour⟩ := Span.read?_eq_some.1 hretention
  obtain rfl : kept = 3600 := by
    have hnanos := congrArg Span.nanos hhour
    simp only [Span.ofHours, Span.ofSeconds] at hnanos
    omega
  exact
    { days := hdays
      window := hwindow
      zone := hzone
      waits := ⟨_, _, entries_hasty ▸ .swap _ _ _, hfirst, hsecond⟩
      waits_pos := by decide
      deadline := Numeral.word?_eq_some.1 hdeadline
      deadline_pos := by decide
      waits_lt := by decide
      retention := ⟨hkept, by decide⟩ }

theorem reworded_hasty : Reworded (waitsText hasty) (waitsText orderly) := by
  have hentries' : entries (waitsText orderly) =
      ["follow_up_1".toList ++ '=' :: "30m".toList, "follow_up_2".toList ++ '=' :: "90m".toList] := by
    decide +kernel
  have hfirst : SameEntry ("FOLLOW_UP_1".toList ++ '=' :: "30m".toList)
      ("follow_up_1".toList ++ '=' :: "30m".toList) :=
    ⟨_, _, _, _, rfl, by decide, rfl, by decide, by decide +kernel, rfl⟩
  have hsecond : SameEntry ("Follow_Up_2 ".toList ++ '=' :: " 90m".toList)
      ("follow_up_2".toList ++ '=' :: "90m".toList) :=
    ⟨_, _, _, _, rfl, by decide, rfl, by decide, by decide +kernel, by decide +kernel⟩
  rw [Reworded, entries_hasty, hentries']
  exact ⟨_, .swap _ _ _, .cons hfirst (.cons hsecond .nil)⟩

theorem accepted_iff_consistent_hasty :
    (ofLookup hasty).Returns ∧ Consistent hasty 1800 5400 3 3600 ∧
      Reworded (waitsText hasty) (waitsText orderly) ∧
      ∃ s s', (ofLookup hasty).run = .ok (.ok s) ∧ (ofLookup orderly).run = .ok (.ok s') ∧
        s.waitBefore .followUp1 = some (.ofSeconds 1800) ∧
        ∀ stage, s'.waitBefore stage = s.waitBefore stage := by
  obtain ⟨t, ht⟩ := accepted_of_consistent consistent_hasty (by decide) (by decide)
  have hreturns : (ofLookup hasty).Returns := ⟨_, ht⟩
  have hmain := accepted_iff_consistent hreturns
  obtain ⟨s, hs⟩ := hmain.1.2 ⟨1800, 5400, 3, 3600, consistent_hasty⟩
  obtain ⟨hwaits, -, hreworded⟩ := hmain.2 s hs
  obtain ⟨s', hs', -, hsame⟩ := hreworded orderly (fun key hkey => if_neg hkey) reworded_hasty
  exact ⟨hreturns, consistent_hasty, reworded_hasty, s, s', hs, hs',
    (hwaits 1800 5400 consistent_hasty.waits).1, hsame⟩

end Settings

end Followup
