import Followup.Settings

/-! What settings satisfy once they have been accepted. -/

namespace Followup

theorem Span.checked_eq_ok {a b : Span} (h : a.checked = .ok b) : b = a := by
  simp only [checked] at h
  split at h
  · exact (Except.ok.inj h).symm
  · cases h

namespace Settings

variable {s : Settings} {stage : Stage} {stages : List Stage} {total sum : Span}

structure Accepted (s : Settings) (wait₁ wait₂ : Span) : Prop where
  followUp1 : s.waitBefore .followUp1 = some wait₁
  followUp2 : s.waitBefore .followUp2 = some wait₂
  others : ∀ stage ∉ waitedStages, s.waitBefore stage = none
  pos₁ : .zero < wait₁
  pos₂ : .zero < wait₂
  total_lt : wait₁ + wait₂ < s.deadline

theorem of_totalWait (h : (s.totalWait (stage :: stages) total).run = .ok (.ok sum)) :
    ∃ wait, s.waitBefore stage = some wait ∧ .zero < wait ∧
      (s.totalWait stages (total + wait)).run = .ok (.ok sum) := by
  rw [totalWait] at h
  split at h
  · cases h
  next wait hwait =>
  split at h
  · cases h
  next hpos =>
  obtain ⟨next, hnext, h⟩ := Fallible.bind_eq_ok.1 h
  obtain rfl := Span.checked_eq_ok (Fallible.lift_eq_ok.1 hnext)
  exact ⟨wait, hwait, Int.not_le.1 hpos, h⟩

theorem waitBefore_eq_none (h : (s.waits.map Prod.fst).find? (!waitedStages.contains ·) = none)
    (hs : stage ∉ waitedStages) : s.waitBefore stage = none := by
  rw [waitBefore, List.lookup_eq_none_iff]
  intro entry hentry
  have hwaited := List.find?_eq_none.1 h entry.1 (List.mem_map_of_mem hentry)
  rw [Bool.not_eq_true, Bool.not_eq_false', List.contains_iff_mem] at hwaited
  simpa using fun heq : stage = entry.1 => hs (heq ▸ hwaited)

theorem accepted_of_validate (h : s.validate.run = .ok (.ok ())) :
    ∃ wait₁ wait₂, s.Accepted wait₁ wait₂ := by
  simp only [validate] at h
  split at h
  · cases h
  obtain ⟨total, htotal, h⟩ := Fallible.bind_eq_ok.1 h
  obtain ⟨wait₁, hwait₁, hpos₁, htotal⟩ := of_totalWait htotal
  obtain ⟨wait₂, hwait₂, hpos₂, htotal⟩ := of_totalWait htotal
  cases htotal
  split at h
  · cases h
  next hothers =>
  split at h
  · cases h
  next hlt =>
  refine ⟨wait₁, wait₂, hwait₁, hwait₂, fun stage => waitBefore_eq_none hothers, hpos₁, hpos₂, ?_⟩
  rw [Span.lt_def, Span.nanos_add]
  rw [Span.le_def, Span.nanos_add, Span.nanos_add, Span.nanos_zero] at hlt
  omega

theorem Accepted.wait_pos {wait₁ wait₂ wait : Span} (h : s.Accepted wait₁ wait₂)
    (hw : s.waitBefore stage = some wait) : .zero < wait := by
  cases stage with
  | initial => cases (h.others .initial (by decide)).symm.trans hw
  | followUp1 => exact Option.some.inj (h.followUp1.symm.trans hw) ▸ h.pos₁
  | followUp2 => exact Option.some.inj (h.followUp2.symm.trans hw) ▸ h.pos₂
  | deadline => cases (h.others .deadline (by decide)).symm.trans hw

theorem Accepted.nanos {wait₁ wait₂ : Span} (h : s.Accepted wait₁ wait₂) :
    0 < wait₁.nanos ∧ 0 < wait₂.nanos ∧ wait₁.nanos + wait₂.nanos < s.deadline.nanos :=
  ⟨h.pos₁, h.pos₂, h.total_lt⟩

theorem Accepted.deadline_pos {wait₁ wait₂ : Span} (h : s.Accepted wait₁ wait₂) :
    .zero < s.deadline := by
  obtain ⟨hpos₁, hpos₂, hlt⟩ := h.nanos
  rw [Span.lt_def, Span.nanos_zero]
  omega

theorem Accepted.wait₁_lt {wait₁ wait₂ : Span} (h : s.Accepted wait₁ wait₂) :
    wait₁ < s.deadline := by
  obtain ⟨hpos₁, hpos₂, hlt⟩ := h.nanos
  rw [Span.lt_def]
  omega

theorem Accepted.wait₂_lt {wait₁ wait₂ : Span} (h : s.Accepted wait₁ wait₂) :
    wait₂ < s.deadline - wait₁ := by
  obtain ⟨hpos₁, hpos₂, hlt⟩ := h.nanos
  rw [Span.lt_def, Span.nanos_sub]
  omega

theorem Accepted.wait_lt {wait₁ wait₂ wait : Span} (h : s.Accepted wait₁ wait₂)
    (hw : s.waitBefore stage = some wait) : wait < s.deadline := by
  cases stage with
  | initial => cases (h.others .initial (by decide)).symm.trans hw
  | followUp1 => exact Option.some.inj (h.followUp1.symm.trans hw) ▸ h.wait₁_lt
  | followUp2 =>
    obtain rfl := Option.some.inj (h.followUp2.symm.trans hw)
    obtain ⟨hpos₁, hpos₂, hlt⟩ := h.nanos
    rw [Span.lt_def]
    omega
  | deadline => cases (h.others .deadline (by decide)).symm.trans hw

end Settings

end Followup
