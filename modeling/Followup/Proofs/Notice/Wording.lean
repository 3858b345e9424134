import Followup.Fault
import Followup.Notice.Wording

/-! What the wordings say. Each of them is read as a list of pieces: texts of its own, and details of
an occasion, which are shown as they are or humanized. A detail is never read as a template, so a
notice can be composed for every occasion. -/

namespace Followup

open Template Text

inductive Detail where
  | caseId | reason | stage | kind | action
deriving DecidableEq

namespace Detail

def name : Detail → String
  | caseId => "instance_id" | reason => "trigger_reason" | stage => "stage"
  | kind => "notification_kind" | action => "action"

def of (o : Occasion) : Detail → String
  | caseId => o.caseId | reason => o.reason | stage => o.stage | kind => o.kind
  | action => o.action

end Detail

inductive Piece where
  | text (s : String)
  | shown (d : Detail)
  | humanized (d : Detail)
deriving DecidableEq

namespace Piece

variable {p : Piece} {n : Node} {ps : List Piece} {ns : List Node}

def write (o : Occasion) : Piece → String
  | text s => s
  | shown d => d.of o
  | humanized d => Text.humanized (d.of o)

def writeAll (o : Occasion) : List Piece → String
  | [] => ""
  | p :: ps => p.write o ++ writeAll o ps

def reference (d : Detail) : Expr := .attribute (.name "escalation") d.name

def node : Piece → Node
  | text s => .text s
  | shown d => .print (reference d)
  | humanized d => .print (.filter "humanize" (reference d) [])

/-- Whether a node is that of a piece. Trees hold floating numbers, so they cannot be compared. -/
def matchesNode : Piece → Node → Bool
  | text s, .text t => t == s
  | shown d, .print (.attribute (.name scope) field) => scope == "escalation" && field == d.name
  | humanized d, .print (.filter filter (.attribute (.name scope) field) []) =>
    filter == "humanize" && scope == "escalation" && field == d.name
  | _, _ => false

def matchNodes : List Piece → List Node → Bool
  | [], [] => true
  | p :: ps, n :: ns => p.matchesNode n && matchNodes ps ns
  | _, _ => false

theorem eq_node (h : p.matchesNode n = true) : n = p.node := by
  unfold matchesNode at h
  split at h
  · rw [eq_of_beq h, node]
  · obtain ⟨hscope, hfield⟩ := Bool.and_eq_true_iff.1 h
    rw [eq_of_beq hscope, eq_of_beq hfield, node, reference]
  · obtain ⟨h, hfield⟩ := Bool.and_eq_true_iff.1 h
    obtain ⟨hfilter, hscope⟩ := Bool.and_eq_true_iff.1 h
    rw [eq_of_beq hfilter, eq_of_beq hscope, eq_of_beq hfield, node, reference]
  · cases h

theorem eq_nodes (h : matchNodes ps ns = true) : ns = ps.map node := by
  induction ps generalizing ns with
  | nil =>
    cases ns with
    | nil => rfl
    | cons n ns => cases h
  | cons p ps ih =>
    cases ns with
    | nil => cases h
    | cons n ns =>
      obtain ⟨hn, hns⟩ := Bool.and_eq_true_iff.1 h
      rw [eq_node hn, ih hns, List.map_cons]

end Piece

namespace Occasion

theorem compare_text (s t : String) :
    Value.compare (.text s) (.text t) = if s < t then .lt else if s = t then .eq else .gt := by
  rw [Value.compare]

variable (o : Occasion) (d : Detail)

def record : Value :=
  .map [(.text "action", .text o.action), (.text "instance_id", .text o.caseId),
    (.text "notification_kind", .text o.kind), (.text "stage", .text o.stage),
    (.text "trigger_reason", .text o.reason)]

theorem lookup_context : Scopes.lookup [o.context] "escalation" = o.record := by
  change Value.record _ = _
  simp only [Value.record, Value.mapOf, List.map_cons, List.map_nil, List.foldl_cons,
    List.foldl_nil, Value.insertEntry, compare_text, String.reduceLT, String.reduceEq, if_true,
    if_false, record]

theorem attribute?_record : o.record.attribute? d.name = some (.text (d.of o)) := by
  cases d <;> simp [record, Value.attribute?, Value.lookup, Detail.name, Detail.of, compare_text]

theorem eval?_reference : (Piece.reference d).eval? [o.context] = some (.text (d.of o)) := by
  rw [Piece.reference, Expr.eval?, Expr.eval?, lookup_context]
  exact o.attribute?_record d

theorem eval?_humanized :
    Expr.eval? [o.context] (.filter "humanize" (Piece.reference d) []) =
      some (.text (humanized (d.of o))) := by
  rw [Expr.eval?, eval?_reference, evalAll?]
  rfl

theorem show?_node (p : Piece) : p.node.show? [o.context] = some (p.write o, [o.context]) := by
  cases p with
  | text s => rw [Piece.node, Node.show?, Piece.write]
  | shown d =>
    rw [Piece.node, Node.show?, eval?_reference]
    rfl
  | humanized d =>
    rw [Piece.node, Node.show?, eval?_humanized]
    rfl

theorem showAll?_nodes (ps : List Piece) :
    showAll? [o.context] (ps.map Piece.node) = some (Piece.writeAll o ps, [o.context]) := by
  induction ps with
  | nil => rw [List.map_nil, showAll?, Piece.writeAll]
  | cons p ps ih =>
    rw [List.map_cons, showAll?, show?_node]
    simp only [Option.bind_eq_bind, Option.bind_some, ih, Piece.writeAll]
    rfl

theorem renderText_eq {text : String} {ps : List Piece}
    (h : (Template.read? text).any (Piece.matchNodes ps) = true) :
    renderText text o.context = .ok (Piece.writeAll o ps) := by
  rw [renderText]
  cases hread : Template.read? text with
  | none =>
    rw [hread] at h
    cases h
  | some ns =>
    rw [hread] at h
    rw [Option.bind_some, Piece.eq_nodes h, render?, showAll?_nodes]
    rfl

end Occasion

structure Phrasing where
  subject : List Piece
  body : List Piece

namespace Phrasing

open Piece

def initialAlert : Phrasing where
  subject := [text "Action needed: intake ", shown .caseId, text " (", humanized .reason, text ")"]
  body := [text "Your loan intake could not be processed (", humanized .reason,
    text "). Please reply to this message with the corrected documents."]

def followUp1 : Phrasing where
  subject := [text "Reminder: intake ", shown .caseId, text " is waiting for your reply"]
  body := [text "We are still waiting for your reply about ", humanized .reason, text "."]

def followUp2 : Phrasing where
  subject := [text "Second reminder: intake ", shown .caseId]
  body := [text "This intake will be closed if we do not hear back. Reason: ", humanized .reason,
    text "."]

def closingMessage : Phrasing where
  subject := [text "Closed: intake ", shown .caseId]
  body := [text "No reply was received before the deadline, so this intake has been closed."]

def general : Phrasing where
  subject := [text "Intake ", shown .caseId, text ": ", humanized .kind]
  body := [text "Stage ", humanized .stage, text ", reason ", humanized .reason, text "."]

def ofKind (kind : String) : Phrasing :=
  match kind with
  | "INITIAL_ALERT" => initialAlert
  | "FOLLOW_UP_1" => followUp1
  | "FOLLOW_UP_2" => followUp2
  | "CLOSING_MESSAGE" => closingMessage
  | _ => general

structure Reads (p : Phrasing) (w : Wording) : Prop where
  subject : (Template.read? w.subject).any (matchNodes p.subject) = true
  body : (Template.read? w.body).any (matchNodes p.body) = true

theorem reads_initialAlert : initialAlert.Reads .initialAlert :=
  ⟨by decide +kernel, by decide +kernel⟩

theorem reads_followUp1 : followUp1.Reads .followUp1 := ⟨by decide +kernel, by decide +kernel⟩

theorem reads_followUp2 : followUp2.Reads .followUp2 := ⟨by decide +kernel, by decide +kernel⟩

theorem reads_closingMessage : closingMessage.Reads .closingMessage :=
  ⟨by decide +kernel, by decide +kernel⟩

theorem reads_general : general.Reads .general := ⟨by decide +kernel, by decide +kernel⟩

theorem ofKind_cases {P : Phrasing → Wording → Prop} (hinitial : P initialAlert .initialAlert)
    (hfirst : P followUp1 .followUp1) (hsecond : P followUp2 .followUp2)
    (hclosing : P closingMessage .closingMessage) (hgeneral : P general .general) (kind : String) :
    P (ofKind kind) (.ofKind kind) := by
  unfold ofKind
  split
  · exact hinitial
  · exact hfirst
  · exact hsecond
  · exact hclosing
  · next h₁ h₂ h₃ h₄ =>
    have hother : Wording.ofKind kind = .general := by
      unfold Wording.ofKind
      split
      · exact absurd rfl h₁
      · exact absurd rfl h₂
      · exact absurd rfl h₃
      · exact absurd rfl h₄
      · rfl
    rw [hother]
    exact hgeneral

theorem reads_ofKind (kind : String) : (ofKind kind).Reads (.ofKind kind) :=
  ofKind_cases reads_initialAlert reads_followUp1 reads_followUp2 reads_closingMessage
    reads_general kind

end Phrasing

/-- Composing a notice fills the details into the pieces of its wording, and cannot fail. -/
theorem Occasion.compose_eq (o : Occasion) : o.compose = .ok {
    subject := Piece.writeAll o (Phrasing.ofKind o.kind).subject
    body := Piece.writeAll o (Phrasing.ofKind o.kind).body
    metadata := o.metadata } := by
  have hreads := Phrasing.reads_ofKind o.kind
  rw [compose, o.renderText_eq hreads.subject, ok_bind, o.renderText_eq hreads.body, ok_bind]
  rfl

end Followup
