import Followup.Text.Blank
import Followup.Text.Split

/-! The vocabulary of an escalation: its stages in their fixed order, what is done with a stage,
which notice is sent, and how it all ends. Each word has one upper-case name. -/

namespace Followup

structure UnknownName where
  noun : String
  text : String
deriving DecidableEq

def UnknownName.message (e : UnknownName) : String := s!"unknown {e.noun} '{e.text}'"

inductive Stage where
  | initial | followUp1 | followUp2 | deadline
deriving DecidableEq

namespace Stage

def all : List Stage := [initial, followUp1, followUp2, deadline]

def index : Stage → Nat
  | initial => 0 | followUp1 => 1 | followUp2 => 2 | deadline => 3

def next? : Stage → Option Stage
  | initial => some followUp1
  | followUp1 => some followUp2
  | followUp2 => some deadline
  | deadline => none

def name : Stage → String
  | initial => "INITIAL" | followUp1 => "FOLLOW_UP_1" | followUp2 => "FOLLOW_UP_2"
  | deadline => "DEADLINE"

theorem index_next {s t : Stage} (h : s.next? = some t) : t.index = s.index + 1 := by
  cases s <;> simp [next?] at h <;> subst h <;> rfl

def ofName (text : String) : Except UnknownName Stage :=
  match all.find? fun s => Text.sameLetters s.name (Text.trimmed text) with
  | some s => .ok s
  | none => .error ⟨"stage", text⟩

end Stage

inductive Action where
  | sendNow
  | scheduleNextWindow
  | closeWorkflow
deriving DecidableEq

namespace Action

def name : Action → String
  | sendNow => "SEND_NOW" | scheduleNextWindow => "SCHEDULE_NEXT_WINDOW"
  | closeWorkflow => "CLOSE_WORKFLOW"

def isTerminal : Action → Bool
  | closeWorkflow => true
  | _ => false

def ofName : String → Except UnknownName Action
  | "SEND_NOW" => .ok sendNow
  | "SCHEDULE_NEXT_WINDOW" => .ok scheduleNextWindow
  | "CLOSE_WORKFLOW" => .ok closeWorkflow
  | text => .error ⟨"action", text⟩

theorem ofName_name (a : Action) : ofName a.name = .ok a := by cases a <;> rfl

end Action

inductive NoticeKind where
  | initialAlert | followUp1 | followUp2 | closingMessage
deriving DecidableEq

namespace NoticeKind

def name : NoticeKind → String
  | initialAlert => "INITIAL_ALERT" | followUp1 => "FOLLOW_UP_1" | followUp2 => "FOLLOW_UP_2"
  | closingMessage => "CLOSING_MESSAGE"

def ofName : String → Except UnknownName NoticeKind
  | "INITIAL_ALERT" => .ok initialAlert
  | "FOLLOW_UP_1" => .ok followUp1
  | "FOLLOW_UP_2" => .ok followUp2
  | "CLOSING_MESSAGE" => .ok closingMessage
  | text => .error ⟨"notification kind", text⟩

theorem ofName_name (k : NoticeKind) : ofName k.name = .ok k := by cases k <;> rfl

end NoticeKind

inductive Outcome where
  | resumed
  | closed
deriving DecidableEq

def Outcome.name : Outcome → String
  | resumed => "RESUMED" | closed => "CLOSED"

end Followup
