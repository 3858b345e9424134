import Followup.Calendar.Instant
import Followup.CaseId

/-! The timer book: every wake-up that was ever armed, in order, and whether it was cancelled. A
handle is the place of an entry. Delivering the wake-ups is not the book's task. -/

namespace Followup

structure WakeRequest where
  id : CaseId
  seq : Nat
  wakeAt : Instant
deriving DecidableEq

structure TimerBook where
  entries : List (WakeRequest × Bool)
  refusal : Option String

namespace TimerBook

def empty : TimerBook := ⟨[], none⟩

def arm (b : TimerBook) (r : WakeRequest) : Except String (TimerBook × Nat) :=
  match b.refusal with
  | some reason => .error reason
  | none => .ok ({ b with entries := b.entries ++ [(r, false)] }, b.entries.length)

def cancel (b : TimerBook) (handle : Nat) : TimerBook :=
  { b with entries := b.entries.modify handle fun (r, _) => (r, true) }

def armed (b : TimerBook) : List WakeRequest := b.entries.map Prod.fst

def live (b : TimerBook) : List WakeRequest :=
  (b.entries.filter fun (_, cancelled) => !cancelled).map Prod.fst

def liveFor? (b : TimerBook) (id : CaseId) : Option WakeRequest := b.live.find? (·.id = id)

theorem armed_cancel (b : TimerBook) (handle : Nat) : (b.cancel handle).armed = b.armed := by
  simp only [cancel, armed]
  generalize b.entries = l
  induction l generalizing handle with
  | nil => simp
  | cons e l ih => cases handle <;> simp [ih]

end TimerBook

end Followup
