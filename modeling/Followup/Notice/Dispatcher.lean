import Followup.Notice.Basic

/-! Delivering a notice to all channels of its kind. Each channel is tried, whatever became of the
ones before it. -/

namespace Followup

structure Channel where
  name : String
  keeps : Bool
  send : Notice → Except NoticeError Unit

namespace Channel

def log : Channel := ⟨"log", false, fun _ => .ok ()⟩

def outbox (name : String) (failure : Option String) : Channel where
  name := name
  keeps := true
  send _ := match failure with
    | none => .ok ()
    | some reason => .error (.config reason)

end Channel

structure Delivery where
  channel : Channel
  caseId : String
  error : Option NoticeError

def Delivery.isSuccess (d : Delivery) : Bool := d.error.isNone

structure Dispatcher where
  default : List Channel
  kinds : List (String × List Channel)

namespace Dispatcher

def empty : Dispatcher := ⟨[], []⟩

def withDefault (channels : List Channel) : Dispatcher := ⟨channels, []⟩

def setKind (d : Dispatcher) (kind : String) (channels : List Channel) : Dispatcher :=
  { d with kinds := (kind, channels) :: d.kinds }

def channelsFor (d : Dispatcher) (kind : String) : List Channel :=
  (d.kinds.lookup kind).getD d.default

/-- Offers a notice to every channel of its kind, in their order. -/
def dispatch (d : Dispatcher) (kind : String) (n : Notice) : List Delivery :=
  let caseId := (n.metadata.lookup "instance_id").getD ""
  (d.channelsFor kind).map fun channel =>
    { channel, caseId, error := match channel.send n with
      | .ok _ => none
      | .error e => some e }

theorem channelsFor_withDefault (channels : List Channel) (kind : String) :
    (withDefault channels).channelsFor kind = channels := rfl

theorem channelsFor_setKind (d : Dispatcher) (kind other : String) (channels : List Channel) :
    (d.setKind kind channels).channelsFor other =
      if other = kind then channels else d.channelsFor other := by
  by_cases h : other = kind
  · simp [setKind, channelsFor, h]
  · have : (other == kind) = false := by simpa using h
    simp [setKind, channelsFor, List.lookup_cons, h, this]

end Dispatcher

end Followup
