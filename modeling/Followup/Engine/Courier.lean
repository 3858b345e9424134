import Followup.Engine.Bridge

/-! The bridge at work beside the engine. It takes the commands out of the engine's stream one at a
time, and looks between two of them whether the shutdown has been notified. After that it takes only
what is queued already, and stops. -/

namespace Followup

structure Courier where
  engine : Engine
  taken : Nat
  held : Option Command
  isNotified : Bool
  isDraining : Bool
  /-- Whether nobody can emit commands any more. -/
  isHungUp : Bool

namespace Courier

def start (e : Engine) : Courier := ⟨e, 0, none, false, false, false⟩

def queue (c : Courier) : List Command := c.engine.commands.drop c.taken

def IsStopped (c : Courier) : Prop := c.engine.listening = false

inductive Event where
  | emits (cmd : Command)
  | changes
  | notified
  | hungUp
  | takes
  | handles (cmd : Command) (handling : Handling)
  | drains
  | stops

/-- What can happen next. A bridge that has a command in its hands does nothing before that is
handled, whatever becomes of it. Where both the stream and the notification are ready, either can be
attended to. -/
inductive Step : Courier → Event → Courier → Prop
  | emits {c : Courier} (hopen : c.isHungUp = false) (cmd : Command) :
      Step c (.emits cmd) { c with engine := c.engine.emit cmd }
  | changes {c : Courier} {e : Engine} (hcommands : e.commands = c.engine.commands)
      (hlistening : e.listening = c.engine.listening) : Step c .changes { c with engine := e }
  | notified (c : Courier) : Step c .notified { c with isNotified := true }
  | hungUp (c : Courier) : Step c .hungUp { c with isHungUp := true }
  | takes {c : Courier} {cmd : Command} {rest : List Command} (hruns : ¬ c.IsStopped)
      (hfree : c.held = none) (hqueue : c.queue = cmd :: rest) :
      Step c .takes { c with taken := c.taken + 1, held := some cmd }
  /-- The channels and the resumer can be others in each call. -/
  | handles {c : Courier} {cmd : Command} (b : Bridge) (hruns : ¬ c.IsStopped)
      (hheld : c.held = some cmd) :
      Step c (.handles cmd (b.handle c.engine cmd)) { c with held := none }
  | drains {c : Courier} (hruns : ¬ c.IsStopped) (hfree : c.held = none)
      (hnotified : c.isNotified = true) (hnew : c.isDraining = false) :
      Step c .drains { c with isDraining := true }
  | stops {c : Courier} (hruns : ¬ c.IsStopped) (hfree : c.held = none) (hqueue : c.queue = [])
      (hend : c.isDraining = true ∨ c.isHungUp = true) :
      Step c .stops { c with engine := c.engine.stopListening }

def Event.isOwn : Event → Bool
  | takes | handles .. | drains | stops => true
  | emits _ | changes | notified | hungUp => false

def Event.emitted : Event → List Command
  | emits cmd => [cmd]
  | _ => []

def Event.handlings : Event → List (Command × Handling)
  | handles cmd handling => [(cmd, handling)]
  | _ => []

inductive Runs (c₀ : Courier) : List Event → Courier → Prop
  | nil : Runs c₀ [] c₀
  | snoc {w : List Event} {x : Event} {c c' : Courier} (h : Runs c₀ w c) (hs : Step c x c') :
      Runs c₀ (w ++ [x]) c'

def emittedBy (w : List Event) : List Command := w.flatMap Event.emitted

def handlingsOf (w : List Event) : List (Command × Handling) := w.flatMap Event.handlings

def handledBy (w : List Event) : List Command := (handlingsOf w).map Prod.fst

end Courier

end Followup
