import Followup.Proofs.Notice.Wording
import Followup.Proofs.Text.Lowering

/-! Notices say what they are given, character by character. The text of a wording is passed over
once: its placeholders give way to the details of the occasion, as they are or humanized, and
everything else is kept. What has been put in is not looked at, so no detail can be taken for a
placeholder. -/

namespace Followup

open Text

def Detail.all : List Detail := [.caseId, .reason, .stage, .kind, .action]

theorem Detail.mem_all (d : Detail) : d ∈ all := by cases d <;> decide

namespace Piece

variable {p q : Piece} {a b : String} {cs cs' out : List Char} {o : Occasion}

def marked (s : String) : String := "\x7b\x7b" ++ s ++ "\x7d\x7d"

theorem toList_marked (s : String) :
    (marked s).toList = '\x7b' :: '\x7b' :: (s.toList ++ ['\x7d', '\x7d']) := by
  rw [marked, String.toList_append, String.toList_append]
  rfl

def source : Piece → String
  | text s => s
  | shown d => marked (" escalation." ++ d.name ++ " ")
  | humanized d => marked (" escalation." ++ d.name ++ " | humanize ")

def sourceAll : List Piece → String
  | [] => ""
  | p :: ps => p.source ++ sourceAll ps

def IsDetail : Piece → Prop
  | text _ => False
  | shown _ | humanized _ => True

def IsPlain : Piece → Prop
  | text s => '\x7b' ∉ s.toList
  | shown _ | humanized _ => True

instance : (p : Piece) → Decidable p.IsPlain
  | text s => inferInstanceAs (Decidable ('\x7b' ∉ s.toList))
  | shown _ | humanized _ => .isTrue trivial

def details : List Piece := Detail.all.map shown ++ Detail.all.map humanized

theorem mem_details (h : p.IsDetail) : p ∈ details := by
  cases p with
  | text s => cases h
  | shown d => exact List.mem_append_left _ (List.mem_map_of_mem d.mem_all)
  | humanized d => exact List.mem_append_right _ (List.mem_map_of_mem d.mem_all)

theorem marked_append_inj (ha : '\x7d' ∉ a.toList) (hb : '\x7d' ∉ b.toList)
    (h : (marked a).toList ++ cs = (marked b).toList ++ cs') : a = b ∧ cs = cs' := by
  have hcut {s : String} (hs : '\x7d' ∉ s.toList) (cs : List Char) :
      cut? '\x7d' ((marked s).toList ++ cs) =
        some ('\x7b' :: '\x7b' :: s.toList, '\x7d' :: cs) := by
    have hnot : '\x7d' ∉ '\x7b' :: '\x7b' :: s.toList := by simpa using hs
    rw [toList_marked, List.cons_append, List.cons_append, List.append_assoc]
    exact cut?_append hnot _
  have hsame := (hcut ha cs).symm.trans ((congrArg _ h).trans (hcut hb cs'))
  obtain ⟨hfront, hback⟩ := Prod.mk.inj (Option.some.inj hsame)
  exact ⟨String.toList_inj.1 (List.cons.inj (List.cons.inj hfront).2).2, (List.cons.inj hback).2⟩

theorem exists_marked (h : p.IsDetail) : ∃ s, p.source = marked s ∧ '\x7d' ∉ s.toList := by
  cases p with
  | text s => cases h
  | shown d => exact ⟨_, rfl, by cases d <;> decide +kernel⟩
  | humanized d => exact ⟨_, rfl, by cases d <;> decide +kernel⟩

theorem source_append_inj (hp : p.IsDetail) (hq : q.IsDetail)
    (h : p.source.toList ++ cs = q.source.toList ++ cs') : p = q ∧ cs = cs' := by
  have hnames : ∀ p ∈ details, ∀ q ∈ details, p.source = q.source → p = q := by decide +kernel
  obtain ⟨s, hs, hsplain⟩ := exists_marked hp
  obtain ⟨t, ht, htplain⟩ := exists_marked hq
  rw [hs, ht] at h
  obtain ⟨rfl, hrest⟩ := marked_append_inj hsplain htplain h
  exact ⟨hnames p (mem_details hp) q (mem_details hq) (hs.trans ht.symm), hrest⟩

theorem exists_source (h : p.IsDetail) (cs : List Char) :
    ∃ rest, p.source.toList ++ cs = '\x7b' :: rest := by
  obtain ⟨s, hs, -⟩ := exists_marked h
  rw [hs, toList_marked]
  exact ⟨_, rfl⟩

inductive Says (o : Occasion) : Piece → List Char → Prop
  | shown (d : Detail) : Says o (shown d) (d.of o).toList
  | humanized {d : Detail} {text : List Char} (h : Humanizes (d.of o).toList text) :
    Says o (humanized d) text

theorem Says.isDetail (h : p.Says o out) : p.IsDetail := by cases h <;> trivial

theorem says_iff (hp : p.IsDetail) : p.Says o out ↔ out = (p.write o).toList := by
  constructor
  · rintro (d | h)
    · rfl
    · exact humanizes_iff.1 h
  · rintro rfl
    cases p with
    | text s => cases hp
    | shown d => exact .shown d
    | humanized d => exact .humanized (humanizes_iff.2 rfl)

end Piece

/-- What becomes of the text of a template on an occasion. -/
inductive Fills (o : Occasion) : List Char → List Char → Prop
  | nil : Fills o [] []
  | char {c : Char} {cs out : List Char} (hc : c ≠ '\x7b') (h : Fills o cs out) :
    Fills o (c :: cs) (c :: out)
  | detail {p : Piece} {text cs out : List Char} (hp : p.Says o text) (h : Fills o cs out) :
    Fills o (p.source.toList ++ cs) (text ++ out)

section Fills

open Piece

variable {o : Occasion} {p : Piece} {ps : List Piece} {cs out text : List Char} {c : Char}

theorem fills_nil : Fills o [] out ↔ out = [] := by
  constructor
  · generalize htext : [] = text
    intro h
    cases h with
    | nil => rfl
    | char => cases htext
    | @detail p _ cs _ hp =>
      obtain ⟨rest, hrest⟩ := exists_source hp.isDetail cs
      cases htext.trans hrest
  · rintro rfl
    exact .nil

theorem fills_char (hc : c ≠ '\x7b') :
    Fills o (c :: cs) out ↔ ∃ rest, out = c :: rest ∧ Fills o cs rest := by
  constructor
  · generalize htext : c :: cs = text
    intro h
    cases h with
    | nil => cases htext
    | char _ h =>
      cases htext
      exact ⟨_, rfl, h⟩
    | @detail p _ cs' _ hp =>
      obtain ⟨rest, hrest⟩ := exists_source hp.isDetail cs'
      exact absurd (List.cons.inj (htext.trans hrest)).1 hc
  · rintro ⟨rest, rfl, h⟩
    exact .char hc h

theorem fills_detail (hp : p.IsDetail) : Fills o (p.source.toList ++ cs) out ↔
    ∃ rest, out = (p.write o).toList ++ rest ∧ Fills o cs rest := by
  constructor
  · generalize htext : p.source.toList ++ cs = text
    intro h
    obtain ⟨rest, hrest⟩ := exists_source hp cs
    cases h with
    | nil => cases hrest.symm.trans htext
    | char hc => exact absurd (List.cons.inj (hrest.symm.trans htext)).1.symm hc
    | detail hq h =>
      -- The text might have begun with another placeholder, if names could run on.
      obtain ⟨rfl, rfl⟩ := source_append_inj hp hq.isDetail htext
      exact ⟨_, by rw [(says_iff hp).1 hq], h⟩
  · rintro ⟨rest, rfl, h⟩
    exact .detail ((says_iff hp).2 rfl) h

theorem fills_append (hplain : '\x7b' ∉ text) :
    Fills o (text ++ cs) out ↔ ∃ rest, out = text ++ rest ∧ Fills o cs rest := by
  induction text generalizing out with
  | nil => simp
  | cons c text ih =>
    obtain ⟨hc, hplain⟩ := not_or.1 (mt List.mem_cons.2 hplain)
    rw [List.cons_append, fills_char (Ne.symm hc)]
    constructor
    · rintro ⟨_, rfl, h⟩
      obtain ⟨rest, rfl, hrest⟩ := (ih hplain).1 h
      exact ⟨rest, rfl, hrest⟩
    · rintro ⟨rest, rfl, h⟩
      exact ⟨_, rfl, (ih hplain).2 ⟨rest, rfl, h⟩⟩

theorem fills_pieces (hplain : ∀ p ∈ ps, p.IsPlain) :
    Fills o (sourceAll ps).toList out ↔ out = (writeAll o ps).toList := by
  induction ps generalizing out with
  | nil => exact fills_nil
  | cons p ps ih =>
    obtain ⟨hp, hplain⟩ := List.forall_mem_cons.1 hplain
    have hhead : Fills o (p.source.toList ++ (sourceAll ps).toList) out ↔
        ∃ rest, out = (p.write o).toList ++ rest ∧ Fills o (sourceAll ps).toList rest := by
      cases p with
      | text s => exact fills_append hp
      | shown d => exact fills_detail trivial
      | humanized d => exact fills_detail trivial
    rw [sourceAll, String.toList_append, hhead, writeAll, String.toList_append]
    simp only [ih hplain, exists_eq_right]

end Fills

namespace Phrasing

open Piece

structure Prints (p : Phrasing) (w : Wording) : Prop where
  subject : sourceAll p.subject = w.subject
  body : sourceAll p.body = w.body
  subject_plain : ∀ q ∈ p.subject, q.IsPlain
  body_plain : ∀ q ∈ p.body, q.IsPlain

theorem prints_initialAlert : initialAlert.Prints .initialAlert :=
  ⟨by decide +kernel, by decide +kernel, by decide +kernel, by decide +kernel⟩

theorem prints_followUp1 : followUp1.Prints .followUp1 :=
  ⟨by decide +kernel, by decide +kernel, by decide +kernel, by decide +kernel⟩

theorem prints_followUp2 : followUp2.Prints .followUp2 :=
  ⟨by decide +kernel, by decide +kernel, by decide +kernel, by decide +kernel⟩

theorem prints_closingMessage : closingMessage.Prints .closingMessage :=
  ⟨by decide +kernel, by decide +kernel, by decide +kernel, by decide +kernel⟩

theorem prints_general : general.Prints .general :=
  ⟨by decide +kernel, by decide +kernel, by decide +kernel, by decide +kernel⟩

theorem prints_ofKind (kind : String) : (ofKind kind).Prints (.ofKind kind) :=
  ofKind_cases prints_initialAlert prints_followUp1 prints_followUp2 prints_closingMessage
    prints_general kind

end Phrasing

namespace Wording

def named : List (String × Wording) :=
  [("INITIAL_ALERT", initialAlert), ("FOLLOW_UP_1", followUp1), ("FOLLOW_UP_2", followUp2),
    ("CLOSING_MESSAGE", closingMessage)]

inductive IsFor : String → Wording → Prop
  | own {kind : String} {w : Wording} (h : (kind, w) ∈ named) : IsFor kind w
  | other {kind : String} (h : ∀ w, (kind, w) ∉ named) : IsFor kind general

variable {kind : String} {w : Wording}

theorem mem_named : (kind, w) ∈ named ↔ kind = "INITIAL_ALERT" ∧ w = initialAlert ∨
    kind = "FOLLOW_UP_1" ∧ w = followUp1 ∨ kind = "FOLLOW_UP_2" ∧ w = followUp2 ∨
      kind = "CLOSING_MESSAGE" ∧ w = closingMessage := by
  simp only [named, List.mem_cons, Prod.mk.injEq, List.not_mem_nil, or_false]

theorem isFor_iff : IsFor kind w ↔ w = ofKind kind := by
  constructor
  · rintro (h | h)
    · rcases mem_named.1 h with ⟨rfl, rfl⟩ | ⟨rfl, rfl⟩ | ⟨rfl, rfl⟩ | ⟨rfl, rfl⟩ <;> rfl
    · unfold ofKind
      split
      · exact absurd (.head _) (h initialAlert)
      · exact absurd (.tail _ (.head _)) (h followUp1)
      · exact absurd (.tail _ (.tail _ (.head _))) (h followUp2)
      · exact absurd (.tail _ (.tail _ (.tail _ (.head _)))) (h closingMessage)
      · rfl
  · rintro rfl
    unfold ofKind
    split
    · exact .own (.head _)
    · exact .own (.tail _ (.head _))
    · exact .own (.tail _ (.tail _ (.head _)))
    · exact .own (.tail _ (.tail _ (.tail _ (.head _))))
    · next h₁ h₂ h₃ h₄ =>
      refine .other fun w h => ?_
      rcases mem_named.1 h with ⟨h, -⟩ | ⟨h, -⟩ | ⟨h, -⟩ | ⟨h, -⟩
      · exact h₁ h
      · exact h₂ h
      · exact h₃ h
      · exact h₄ h

end Wording

/-- A notice is composed on every occasion, whatever the kind is and whatever texts come with it.
Subject and body are those of the wording of the kind with its placeholders filled, and they can be
filled in one way only. Where a detail is humanized, it has blanks for its underscores and is in
lower case. The details go into the metadata as they are. -/
theorem Occasion.compose_verbatim (o : Occasion) :
    ∃ notice, o.compose = .ok notice ∧
      (∀ w, Wording.IsFor o.kind w ↔ w = Wording.ofKind o.kind) ∧
      (∀ out, Fills o (Wording.ofKind o.kind).subject.toList out ↔ out = notice.subject.toList) ∧
      (∀ out, Fills o (Wording.ofKind o.kind).body.toList out ↔ out = notice.body.toList) ∧
      (∀ d : Detail, (∀ c ∈ (d.of o).toList, c.toNat < 128) →
        ∀ text, Humanizes (d.of o).toList text ↔
          text = (d.of o).toList.map fun c => if c = '_' then ' ' else c.toLower) ∧
      notice.metadata = [("instance_id", o.caseId), ("trigger_reason", o.reason),
        ("stage", o.stage), ("notification_kind", o.kind), ("action", o.action),
        ("sent_at", o.now)] := by
  have hprints := Phrasing.prints_ofKind o.kind
  refine ⟨_, o.compose_eq, fun w => Wording.isFor_iff, fun out => ?_, fun out => ?_,
    fun d hplain text => humanizes_plain hplain, rfl⟩
  · rw [← hprints.subject]
    exact fills_pieces hprints.subject_plain
  · rw [← hprints.body]
    exact fills_pieces hprints.body_plain

def hostile : Occasion where
  caseId := "a_1 \x7b\x7b now \x7d\x7d"
  reason := "\x7b\x7b 7*7 \x7d\x7d_\x7b% raw %\x7d \"LOST\"\n<b>ÜBER_ΛΌΓΟΣ</b>"
  stage := "FOLLOW_UP_1"
  kind := "INITIAL_ALERT"
  action := "SEND_NOW"
  now := "2026-02-16T12:00:00Z"

def hostileNotice : Notice where
  subject := "Action needed: intake a_1 \x7b\x7b now \x7d\x7d " ++
    "(\x7b\x7b 7*7 \x7d\x7d \x7b% raw %\x7d \"lost\"\n<b>über λόγος</b>)"
  body := "Your loan intake could not be processed " ++
    "(\x7b\x7b 7*7 \x7d\x7d \x7b% raw %\x7d \"lost\"\n<b>über λόγος</b>). " ++
    "Please reply to this message with the corrected documents."
  metadata := [("instance_id", "a_1 \x7b\x7b now \x7d\x7d"),
    ("trigger_reason",
      "\x7b\x7b 7*7 \x7d\x7d_\x7b% raw %\x7d \"LOST\"\n<b>ÜBER_ΛΌΓΟΣ</b>"),
    ("stage", "FOLLOW_UP_1"), ("notification_kind", "INITIAL_ALERT"), ("action", "SEND_NOW"),
    ("sent_at", "2026-02-16T12:00:00Z")]

theorem Occasion.compose_verbatim_hostile :
    hostile.compose = .ok hostileNotice ∧
      Fills hostile Wording.initialAlert.subject.toList hostileNotice.subject.toList ∧
      Fills hostile Wording.initialAlert.body.toList hostileNotice.body.toList := by
  have hcompose : hostile.compose = .ok hostileNotice := by
    rw [hostile.compose_eq]
    exact congrArg Except.ok (by decide +kernel)
  obtain ⟨notice, hnotice, -, hsubject, hbody, -⟩ := hostile.compose_verbatim
  obtain rfl := Except.ok.inj (hcompose.symm.trans hnotice)
  exact ⟨hcompose, (hsubject _).2 rfl, (hbody _).2 rfl⟩

end Followup
