/-! Why a computation has no answer at all. A fault is not an error that a caller handles: it ends
the program, so every operation that can meet one says so in its type. -/

namespace Followup

inductive Fault where
  /-- A date left the calendar, or a number or a span of time left its range. -/
  | outOfRange
  | endless
deriving DecidableEq

abbrev Checked (α : Type) := Except Fault α

/-- A computation that returns an answer or an error, or meets a fault. -/
abbrev Fallible (ε α : Type) := ExceptT ε Checked α

instance {ε : Type} : MonadLift (Except ε) (ExceptT ε Checked) := ⟨fun r => ExceptT.mk (.ok r)⟩

section Bind

variable {ε α β : Type}

@[simp] theorem ok_bind (a : α) (f : α → Except ε β) : ((.ok a : Except ε α) >>= f) = f a := rfl

@[simp] theorem error_bind (err : ε) (f : α → Except ε β) :
    ((.error err : Except ε α) >>= f) = .error err := rfl

theorem bind_eq_ok {x : Except ε α} {f : α → Except ε β} {b : β} :
    (x >>= f) = .ok b ↔ ∃ a, x = .ok a ∧ f a = .ok b := by
  cases x with
  | error e => exact ⟨fun h => (nomatch h), fun ⟨_, h, _⟩ => (nomatch h)⟩
  | ok a => exact ⟨fun h => ⟨a, rfl, h⟩, fun ⟨_, h, hf⟩ => by cases h; exact hf⟩

theorem bind_eq_error {x : Except ε α} {f : α → Except ε β} {err : ε} :
    (x >>= f) = .error err ↔ x = .error err ∨ ∃ a, x = .ok a ∧ f a = .error err := by
  cases x with
  | error e =>
    exact ⟨fun h => .inl (congrArg Except.error (Except.error.inj h)),
      fun h => h.elim (fun h => congrArg Except.error (Except.error.inj h)) fun ⟨_, h, _⟩ => nomatch h⟩
  | ok a =>
    exact ⟨fun h => .inr ⟨a, rfl, h⟩,
      fun h => h.elim (fun h => nomatch h) fun ⟨_, h, hf⟩ => by cases h; exact hf⟩

theorem map_eq_ok {x : Except ε α} {f : α → β} {b : β} :
    x.map f = .ok b ↔ ∃ a, x = .ok a ∧ f a = b := by
  cases x with
  | error => exact ⟨nofun, fun ⟨_, h, _⟩ => nomatch h⟩
  | ok a => exact ⟨fun h => ⟨a, rfl, Except.ok.inj h⟩, fun ⟨_, h, hb⟩ => by cases h; rw [← hb]; rfl⟩

end Bind

namespace Fallible

variable {ε α β : Type} {x : Fallible ε α} {f : α → Fallible ε β} {a : α} {b : β}

theorem bind_eq_ok :
    (x >>= f).run = .ok (.ok b) ↔ ∃ a, x.run = .ok (.ok a) ∧ (f a).run = .ok (.ok b) := by
  constructor
  · intro h
    obtain ⟨r, hx, h⟩ := Followup.bind_eq_ok.1 h
    cases r with
    | error err => cases h
    | ok a => exact ⟨a, hx, h⟩
  · rintro ⟨a, hx, h⟩
    exact Followup.bind_eq_ok.2 ⟨_, hx, h⟩

theorem bind_of_ok (hx : x.run = .ok (.ok a)) : x >>= f = f a := by
  refine ExceptT.ext ?_
  rw [ExceptT.run_bind, hx]
  rfl

theorem bind_of_fault {fault : Fault} (hx : x.run = .error fault) :
    (x >>= f).run = .error fault := by
  rw [ExceptT.run_bind, hx]
  rfl

theorem lift_eq_ok {x : Checked α} : (liftM x : Fallible ε α).run = .ok (.ok a) ↔ x = .ok a := by
  cases x with
  | error fault => exact ⟨fun h => (nomatch h), fun h => (nomatch h)⟩
  | ok b => exact ⟨fun h => by cases h; rfl, fun h => by cases h; rfl⟩

theorem liftExcept_eq_ok {r : Except ε α} :
    (liftM r : Fallible ε α).run = .ok (.ok a) ↔ r = .ok a :=
  ⟨fun h => Except.ok.inj h, fun h => congrArg Except.ok h⟩

def Returns (x : Fallible ε α) : Prop := ∃ r, x.run = .ok r

theorem returns_ok (a : α) : Returns (pure a : Fallible ε α) := ⟨.ok a, rfl⟩

theorem returns_error (e : ε) : Returns (throw e : Fallible ε α) := ⟨.error e, rfl⟩

theorem returns_lift {y : Checked α} (h : ∃ a, y = .ok a) : Returns (liftM y : Fallible ε α) := by
  obtain ⟨a, rfl⟩ := h
  exact ⟨.ok a, rfl⟩

theorem returns_liftExcept (r : Except ε α) : Returns (liftM r : Fallible ε α) := ⟨r, rfl⟩

theorem exists_of_returns_lift {y : Checked α} (h : Returns (liftM y : Fallible ε α)) :
    ∃ a, y = .ok a := by
  obtain ⟨r, hr⟩ := h
  cases y with
  | error fault => cases hr
  | ok a => exact ⟨a, rfl⟩

theorem Returns.of_bind (h : (x >>= f).Returns) : x.Returns := by
  obtain ⟨r, hr⟩ := h
  cases hx : x.run with
  | error fault => cases (bind_of_fault hx).symm.trans hr
  | ok r => exact ⟨r, hx⟩

theorem Returns.rest (h : (x >>= f).Returns) (hx : x.run = .ok (.ok a)) : (f a).Returns := by
  rwa [bind_of_ok hx] at h

theorem Returns.bind (hx : x.Returns) (hf : ∀ a, x.run = .ok (.ok a) → (f a).Returns) :
    Returns (x >>= f) := by
  obtain ⟨r, hr⟩ := hx
  cases r with
  | error e =>
    refine ⟨.error e, ?_⟩
    rw [ExceptT.run_bind, hr]
    rfl
  | ok a =>
    obtain ⟨b, hb⟩ := hf a hr
    refine ⟨b, ?_⟩
    rw [ExceptT.run_bind, hr]
    exact hb

end Fallible

/-- The computation comes to an end: with an answer of such a kind, or because a date left the
calendar or a span its range. -/
def Checked.Ends {α : Type} (x : Checked α) (p : α → Prop) : Prop :=
  x = .error .outOfRange ∨ ∃ a, x = .ok a ∧ p a

namespace Checked

variable {α β : Type} {x : Checked α} {f : α → Checked β} {p q : α → Prop} {r : β → Prop} {a : α}

theorem ends_iff : x.Ends p ↔ x ≠ .error .endless ∧ ∀ a, x = .ok a → p a := by
  constructor
  · rintro (rfl | ⟨a, rfl, ha⟩)
    · exact ⟨by simp, fun a ha => nomatch ha⟩
    · exact ⟨by simp, fun b hb => Except.ok.inj hb ▸ ha⟩
  · rintro ⟨hx, hp⟩
    match x with
    | .error .outOfRange => exact .inl rfl
    | .error .endless => exact absurd rfl hx
    | .ok a => exact .inr ⟨a, rfl, hp a rfl⟩

theorem ends_ok (ha : p a) : Checked.Ends (.ok a) p := .inr ⟨a, rfl, ha⟩

theorem Ends.of_eq_ok (hx : x.Ends p) (ha : x = .ok a) : p a := (ends_iff.1 hx).2 a ha

theorem Ends.self (hx : x.Ends p) : x.Ends fun a => x = .ok a :=
  hx.imp_right fun ⟨a, ha, _⟩ => ⟨a, ha, ha⟩

theorem Ends.mono (hx : x.Ends p) (hpq : ∀ a, p a → q a) : x.Ends q :=
  hx.imp_right fun ⟨a, ha, hp⟩ => ⟨a, ha, hpq a hp⟩

theorem Ends.bind (hx : x.Ends p) (hf : ∀ a, p a → (f a).Ends r) : Checked.Ends (x >>= f) r := by
  rcases hx with rfl | ⟨a, rfl, ha⟩
  · exact .inl rfl
  · exact hf a ha

end Checked

end Followup
