import Followup.Calendar.Instant
import Followup.CaseId
import Followup.Stage

/-! A case in escalation. It only moves forward through its stages, ends once, and has at most one
wake-up ahead of it. -/

namespace Followup

inductive WakeReason where
  | nextStage
  | deferred
deriving DecidableEq

def WakeReason.name : WakeReason → String
  | nextStage => "next_stage" | deferred => "deferred"

structure Wake where
  reason : WakeReason
  wakeAt : Instant
  seq : Nat
  handle : Nat
deriving DecidableEq

structure Resolution where
  outcome : Outcome
  diagnostic : Option String
  resolvedAt : Instant
deriving DecidableEq

structure Case where
  id : CaseId
  reason : String
  stage : Stage
  createdAt : Instant
  firstSent : Option Instant
  lastSent : Option Instant
  /-- Business time since the first notice. It never becomes less. -/
  elapsed : Span
  resolution : Option Resolution
  wake : Option Wake
  history : List Stage
deriving DecidableEq

namespace Case

def fresh (id : CaseId) (reason : String) (now : Instant) : Case where
  id := id
  reason := reason
  stage := .initial
  createdAt := now
  firstSent := none
  lastSent := none
  elapsed := .zero
  resolution := none
  wake := none
  history := [.initial]

def isResolved (c : Case) : Bool := c.resolution.isSome

def outcome? (c : Case) : Option Outcome := c.resolution.map Resolution.outcome

/-- Goes forward to a stage; any other move changes nothing. -/
def enter (c : Case) (stage : Stage) : Case :=
  if c.stage.index < stage.index then { c with stage, history := c.history ++ [stage] } else c

def recordElapsed (c : Case) (d : Span) : Case := { c with elapsed := c.elapsed.max d }

end Case

end Followup
