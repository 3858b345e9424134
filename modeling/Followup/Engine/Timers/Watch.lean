import Followup.Engine.Error
import Followup.Engine.Timers

/-! The timers as they are watched. Whoever has a wake-up armed holds its handle, and gives a signal
through it when the wake-up is not wanted any more, at the latest when the handle is dropped. The
watch learns of a signal only by looking for it, and can receive it only once; so it keeps in mind
which wake-ups were cancelled. -/

namespace Followup

inductive Signal where
  | awaited
  | given
  | spent
deriving DecidableEq

namespace Signal

inductive Silence where
  | notYet
  | nevermore
deriving DecidableEq

def give : Signal → Signal
  | awaited => given
  | s => s

def receive : Signal → Signal × Except Silence Unit
  | awaited => (awaited, .error .notYet)
  | given => (spent, .ok ())
  | spent => (spent, .error .nevermore)

end Signal

structure WatchedWake where
  request : WakeRequest
  signal : Signal
  isCancelled : Bool
deriving DecidableEq

/-- Looks for the signal, unless the wake-up is known to be cancelled. -/
def WatchedWake.look (a : WatchedWake) : WatchedWake :=
  if a.isCancelled then a
  else
    match a.signal.receive with
    | (signal, .error .notYet) => { a with signal }
    | (signal, _) => { a with signal, isCancelled := true }

structure WakeHandle where
  seq : Nat
  wakeAt : Instant
  entry? : Option Nat
deriving DecidableEq

structure TimerWatch where
  entries : List WatchedWake
  isUnavailable : Bool
  isPoisoned : Bool
deriving DecidableEq

namespace TimerWatch

def empty : TimerWatch := ⟨[], false, false⟩

def unavailable : String := "timer service unavailable"

def poisoned : String := "manual timer lock poisoned"

def setUnavailable (w : TimerWatch) (on : Bool) : TimerWatch := { w with isUnavailable := on }

def arm (w : TimerWatch) (r : WakeRequest) : Except EngineError (TimerWatch × WakeHandle) :=
  if w.isUnavailable then .error (.schedulingUnavailable unavailable)
  else if w.isPoisoned then .error (.schedulingUnavailable poisoned)
  else .ok ({ w with entries := w.entries ++ [⟨r, .awaited, false⟩] },
    ⟨r.seq, r.wakeAt, some w.entries.length⟩)

def armed (w : TimerWatch) : List WakeRequest :=
  if w.isPoisoned then [] else w.entries.map WatchedWake.request

def pending (w : TimerWatch) : TimerWatch × List WakeRequest :=
  if w.isPoisoned then (w, [])
  else
    let entries := w.entries.map WatchedWake.look
    ({ w with entries }, (entries.filter fun a => !a.isCancelled).map WatchedWake.request)

def pendingFor (w : TimerWatch) (id : CaseId) : TimerWatch × Option WakeRequest :=
  let (w, requests) := w.pending
  (w, requests.find? (·.id = id))

def give (w : TimerWatch) (entry : Nat) : TimerWatch :=
  { w with entries := w.entries.modify entry fun a => { a with signal := a.signal.give } }

end TimerWatch

namespace WakeHandle

def signal (h : WakeHandle) (w : TimerWatch) : WakeHandle × TimerWatch :=
  match h.entry? with
  | some entry => ({ h with entry? := none }, w.give entry)
  | none => (h, w)

def drop (h : WakeHandle) (w : TimerWatch) : TimerWatch := (h.signal w).2

def cancel (h : WakeHandle) (w : TimerWatch) : TimerWatch :=
  let (h, w) := h.signal w
  h.drop w

end WakeHandle

/-- The watch and the handles that it gave out, one for each wake-up. One that was cancelled or
dropped is not held any more. -/
structure TimerDesk where
  watch : TimerWatch
  handles : List (Option WakeHandle)
deriving DecidableEq

namespace TimerDesk

inductive Call where
  | arm (r : WakeRequest)
  | cancel (handle : Nat)
  | drop (handle : Nat)
  | setUnavailable (on : Bool)
  | pending
  | pendingFor (id : CaseId)
  | armed
deriving DecidableEq

inductive Reply where
  | handed (h : WakeHandle)
  | refused (e : EngineError)
  | released (wasHeld : Bool)
  | noted
  | requests (rs : List WakeRequest)
  | request (r? : Option WakeRequest)
deriving DecidableEq

abbrev History := List (Call × Reply)

def empty : TimerDesk := ⟨.empty, []⟩

def release (d : TimerDesk) (handle : Nat) (away : WakeHandle → TimerWatch → TimerWatch) :
    TimerDesk × Reply :=
  match d.handles[handle]? with
  | some (some h) => (⟨away h d.watch, d.handles.set handle none⟩, .released true)
  | _ => (d, .released false)

def answer (d : TimerDesk) : Call → TimerDesk × Reply
  | .arm r =>
    match d.watch.arm r with
    | .ok (watch, h) => (⟨watch, d.handles ++ [some h]⟩, .handed h)
    | .error e => (d, .refused e)
  | .cancel handle => d.release handle WakeHandle.cancel
  | .drop handle => d.release handle WakeHandle.drop
  | .setUnavailable on => ({ d with watch := d.watch.setUnavailable on }, .noted)
  | .pending =>
    let (watch, rs) := d.watch.pending
    ({ d with watch }, .requests rs)
  | .pendingFor id =>
    let (watch, r?) := d.watch.pendingFor id
    ({ d with watch }, .request r?)
  | .armed => (d, .requests d.watch.armed)

def step (s : TimerDesk × History) (c : Call) : TimerDesk × History :=
  let (d, reply) := s.1.answer c
  (d, s.2 ++ [(c, reply)])

def run (calls : List Call) : TimerDesk × History := calls.foldl step (empty, [])

def after (calls : List Call) : TimerDesk := (run calls).1

def history (calls : List Call) : History := (run calls).2

end TimerDesk

end Followup
