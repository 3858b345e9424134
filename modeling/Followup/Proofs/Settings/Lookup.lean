import Followup.Proofs.BusinessHours.Landing
import Followup.Proofs.Settings.Lengths
import Followup.Proofs.Settings.Validation

/-! What settings satisfy because they have been read from texts. A span is written in digits, so
none is negative, and times of day are written without fractions of a second. -/

namespace Followup

namespace Settings

variable {lookup : String → Option String} {s : Settings}

theorem nonneg_of_readRetention {text : String} {d : Span}
    (h : (readRetention text).run = .ok (.ok d)) : .zero ≤ d := by
  obtain ⟨d?, hd, h⟩ := Fallible.bind_eq_ok.1 h
  cases d? with
  | none => cases h
  | some d =>
    cases h
    exact Span.nonneg_of_read? (Fallible.lift_eq_ok.1 hd)

theorem of_ofLookup (h : (ofLookup lookup).run = .ok (.ok s)) :
    s.validate.run = .ok (.ok ()) ∧ (s.hours.start.IsWhole ∧ s.hours.finish.IsWhole) ∧
      .zero ≤ s.retention := by
  rw [ofLookup] at h
  obtain ⟨hours, hhours, h⟩ := Fallible.bind_eq_ok.1 h
  obtain ⟨waits, -, h⟩ := Fallible.bind_eq_ok.1 h
  obtain ⟨hoursToDeadline, -, h⟩ := Fallible.bind_eq_ok.1 h
  obtain ⟨retention, hretention, h⟩ := Fallible.bind_eq_ok.1 h
  obtain ⟨deadline, -, h⟩ := Fallible.bind_eq_ok.1 h
  obtain ⟨⟨⟩, hvalid, h⟩ := Fallible.bind_eq_ok.1 h
  cases h
  exact ⟨hvalid, BusinessHours.isWhole_of_read hhours,
    nonneg_of_readRetention hretention⟩

end Settings

section Standard

open Text

/-! The texts that stand for what is not set give the standard settings. -/

theorem Text.toLower_beq (a b : String) :
    (a.toLower == b.toLower) = (a.toList.map Char.toLower == b.toList.map Char.toLower) := by
  have letters (s : String) : s.toLower.toList = s.toList.map Char.toLower := String.toList_map
  rw [Bool.eq_iff_iff, beq_iff_eq, beq_iff_eq, ← String.toList_inj, letters, letters]

theorem Stage.ofName_eq_ok {cs : List Char} {stage : Stage}
    (h : all.find? (fun s => s.name.toList.map Char.toLower == (trim cs).map Char.toLower) =
      some stage) : ofName (String.ofList cs) = .ok stage := by
  simp only [ofName, sameLetters, toLower_beq, trimmed, String.toList_ofList, h]

theorem Weekday.read_eq_ok {cs : List Char} {d : Weekday}
    (h : all.find? (fun d => d.short.toList.map Char.toLower == (trim cs).map Char.toLower ||
      d.long.toList.map Char.toLower == (trim cs).map Char.toLower) = some d) :
    read cs = .ok d := by
  simp only [read, ofName?, toLower_beq, String.toList_ofList, h]

theorem Weekday.readEntry_eq_ok {cs first last : List Char} {d e : Weekday}
    (hcut : cut? '-' cs = some (first, last)) (hd : read first = .ok d) (he : read last = .ok e) :
    readEntry cs = .ok (walk 6 d e) := by
  simp only [readEntry, hcut, hd, he]
  rfl

theorem Zone.read_eq_utc {text : String} (htrim : trimmed text = text)
    (hutc : sameLetters text "utc" = true) : (read text).run = .ok (.ok .utc) := by
  simp only [read, Offset.read, Offset.read?, htrim, hutc, true_or, if_true]
  rfl

theorem Zone.read_utc : (read "UTC").run = .ok (.ok .utc) := by
  have hends : trim "UTC".toList = "UTC".toList := by decide +kernel
  refine read_eq_utc (by rw [trimmed, hends, String.ofList_toList]) ?_
  rw [sameLetters, toLower_beq]
  decide +kernel

namespace Settings

variable {lookup : String → Option String}

theorem readWait_eq_ok {cs name span : List Char} {stage : Stage} {wait : Span}
    (hcut : cut? '=' cs = some (name, span))
    (hstage : Stage.ofName (String.ofList name) = .ok stage)
    (hwait : Span.read? (String.ofList span) = .ok (some wait)) :
    (readWait cs).run = .ok (.ok (stage, wait)) := by
  simp only [readWait, hcut, hstage, hwait]
  rfl

theorem standard_hours :
    (BusinessHours.read "mon-fri" "06:00" "22:00" "UTC").run = .ok (.ok standard.hours) := by
  have hentries : entries "mon-fri" = ["mon-fri".toList] := by decide +kernel
  have hcut : cut? '-' "mon-fri".toList = some ("mon".toList, "fri".toList) := by decide +kernel
  have hmon : Weekday.read "mon".toList = .ok .mon := Weekday.read_eq_ok (by decide +kernel)
  have hfri : Weekday.read "fri".toList = .ok .fri := Weekday.read_eq_ok (by decide +kernel)
  have hdays : Weekday.readList "mon-fri" = .ok [.mon, .tue, .wed, .thu, .fri] := by
    rw [Weekday.readList, hentries, List.mapM_cons, Weekday.readEntry_eq_ok hcut hmon hfri]
    rfl
  have hstart : TimeOfDay.read "06:00" = .ok standard.hours.start := by decide +kernel
  have hfinish : TimeOfDay.read "22:00" = .ok standard.hours.finish := by decide +kernel
  rw [BusinessHours.read]
  refine Fallible.bind_eq_ok.2 ⟨_, Fallible.liftExcept_eq_ok.2 hdays, ?_⟩
  refine Fallible.bind_eq_ok.2 ⟨_, Fallible.liftExcept_eq_ok.2 hstart, ?_⟩
  refine Fallible.bind_eq_ok.2 ⟨_, Fallible.liftExcept_eq_ok.2 hfinish, ?_⟩
  refine Fallible.bind_eq_ok.2 ⟨_, Zone.read_utc, ?_⟩
  decide +kernel

theorem standard_waits :
    (readWaits "follow_up_1=1h,follow_up_2=3h").run = .ok (.ok standard.waits) := by
  have hentries : entries "follow_up_1=1h,follow_up_2=3h" =
    ["follow_up_1=1h".toList, "follow_up_2=3h".toList] := by decide +kernel
  have hcut₁ : cut? '=' "follow_up_1=1h".toList = some ("follow_up_1".toList, "1h".toList) := by
    decide +kernel
  have hcut₂ : cut? '=' "follow_up_2=3h".toList = some ("follow_up_2".toList, "3h".toList) := by
    decide +kernel
  have hfirst : (readWait "follow_up_1=1h".toList).run = .ok (.ok (.followUp1, .ofHours 1)) :=
    readWait_eq_ok hcut₁ (Stage.ofName_eq_ok (by decide +kernel)) (by decide +kernel)
  have hsecond : (readWait "follow_up_2=3h".toList).run = .ok (.ok (.followUp2, .ofHours 3)) :=
    readWait_eq_ok hcut₂ (Stage.ofName_eq_ok (by decide +kernel)) (by decide +kernel)
  rw [readWaits, hentries]
  refine Fallible.bind_eq_ok.2 ⟨_, hfirst, ?_⟩
  exact Fallible.bind_eq_ok.2 ⟨_, hsecond, rfl⟩

theorem ofLookup_eq (hunset : ∀ key ∈ keys, key ≠ "RESOLVED_RETENTION" → key ≠ "TABLES_DIR" →
    lookup key = none) :
    ofLookup lookup = readRetention ((lookup "RESOLVED_RETENTION").getD "1h") >>= fun d =>
      pure { standard with retention := d, tablesDir := lookup "TABLES_DIR" } := by
  have hdays := hunset "BUSINESS_DAYS" (by decide) (by decide) (by decide)
  have hstart := hunset "BUSINESS_START" (by decide) (by decide) (by decide)
  have hend := hunset "BUSINESS_END" (by decide) (by decide) (by decide)
  have hzone := hunset "BUSINESS_TIMEZONE" (by decide) (by decide) (by decide)
  have hwaits := hunset "STAGE_WAITS" (by decide) (by decide) (by decide)
  have hdeadline := hunset "DEADLINE_BUSINESS_HOURS" (by decide) (by decide) (by decide)
  simp only [ofLookup, hdays, hstart, hend, hzone, hwaits, hdeadline, Option.getD_none]
  rw [Fallible.bind_of_ok standard_hours, Fallible.bind_of_ok standard_waits]
  rfl

theorem ofLookup_eq_retention (hunset : ∀ key ≠ "RESOLVED_RETENTION", lookup key = none) :
    ofLookup lookup = readRetention ((lookup "RESOLVED_RETENTION").getD "1h") >>= fun d =>
      pure { standard with retention := d } := by
  rw [ofLookup_eq fun key _ hkey _ => hunset key hkey, hunset "TABLES_DIR" (by decide)]
  rfl

theorem ofLookup_of_retention (hunset : ∀ key ≠ "RESOLVED_RETENTION", lookup key = none) {d : Span}
    (hd : (readRetention ((lookup "RESOLVED_RETENTION").getD "1h")).run = .ok (.ok d)) :
    (ofLookup lookup).run = .ok (.ok { standard with retention := d }) := by
  rw [ofLookup_eq_retention hunset, Fallible.bind_of_ok hd]
  rfl

end Settings

end Standard

end Followup
