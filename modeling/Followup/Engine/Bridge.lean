import Followup.Calendar.Stamp
import Followup.Engine.Operations
import Followup.Notice.Dispatcher
import Followup.Notice.Wording

/-! The bridge carries out the commands of the engine: it delivers notices, and has the parent
workflow resumed. The notice of a case that has been resumed in the meantime is dropped. -/

namespace Followup

structure Ending where
  id : CaseId
  outcome : Outcome
  diagnostic : Option String
deriving DecidableEq

structure Resumer where
  name : String
  keeps : Bool
  resume : Ending → Except EngineError Unit

namespace Resumer

def log : Resumer := ⟨"log", false, fun _ => .ok ()⟩

def recorder (failure : Option String) : Resumer where
  name := "recorder"
  keeps := true
  resume _ := match failure with
    | none => .ok ()
    | some reason => .error (.schedulingUnavailable reason)

end Resumer

structure Bridge where
  dispatcher : Dispatcher
  resumer : Resumer

structure Handling where
  notice : Option Notice
  deliveries : List Delivery
  ending : Option Ending
  error : Option EngineError

namespace Handling

def nothing : Handling := ⟨none, [], none, none⟩

def failed (e : EngineError) : Handling := { nothing with error := some e }

def result (h : Handling) : Except EngineError (List Delivery) :=
  match h.error with
  | none => .ok h.deliveries
  | some e => .error e

end Handling

namespace Bridge

def occasion (id : CaseId) (reason : String) (stage : Stage) (action : Action) (kind : NoticeKind)
    (at' : Instant) : Occasion where
  caseId := id.write
  reason := reason
  stage := stage.name
  kind := kind.name
  action := action.name
  now := Stamp.writeWithOffset at'

/-- Whether a case is still there and has not been resumed. -/
def wantsNotice (e : Engine) (id : CaseId) : Bool :=
  match e.outcome id with
  | .ok (some .resumed) | .error _ => false
  | .ok _ => true

def deliver (b : Bridge) (kind : NoticeKind) (o : Occasion) : Handling :=
  match o.compose with
  | .error e => .failed (.collaborator "notify" e.message)
  | .ok n => { Handling.nothing with
    notice := some n, deliveries := b.dispatcher.dispatch kind.name n }

def resume (b : Bridge) (ending : Ending) : Handling where
  notice := none
  deliveries := []
  ending := some ending
  error := match b.resumer.resume ending with
    | .ok _ => none
    | .error e => some (.collaborator b.resumer.name e.message)

def handle (b : Bridge) (e : Engine) : Command → Handling
  | .notify id reason stage action kind at' =>
    match action, kind with
    | .scheduleNextWindow, _ | _, none => .nothing
    | _, some kind =>
      if wantsNotice e id then b.deliver kind (occasion id reason stage action kind at')
      else .nothing
  | .resolved id outcome diagnostic _ => b.resume ⟨id, outcome, diagnostic⟩

end Bridge

end Followup
