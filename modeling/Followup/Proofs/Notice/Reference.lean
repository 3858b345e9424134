import Followup.Fault
import Followup.Notice.Reference
import Mathlib.Data.List.Chain

/-! What becomes of a text with references. A scan cuts it from left to right into characters and
references, until it ends or a reference is not closed. The references are replaced by the values of
their variables, which are not scanned; all other characters stay where they are. There is no result
where a variable is not set or a reference is not closed. -/

namespace Followup.Reference

open Text

inductive Segment where
  | char (c : Char)
  | reference (name : List Char)
deriving DecidableEq

namespace Segment

def source : Segment → List Char
  | char c => [c]
  | reference name => '$' :: '\x7b' :: (name ++ ['\x7d'])

def sourceAll (segs : List Segment) : List Char := segs.flatMap source

def IsClosed : Segment → Prop
  | char _ => True
  | reference name => '\x7d' ∉ name

instance : (s : Segment) → Decidable s.IsClosed
  | char _ => .isTrue trivial
  | reference name => inferInstanceAs (Decidable ('\x7d' ∉ name))

def Opens (s t : Segment) : Prop := s = char '$' ∧ t = char '\x7b'

instance (s t : Segment) : Decidable (Opens s t) := inferInstanceAs (Decidable (_ ∧ _))

end Segment

open Segment

variable {env : String → Option String} {text : String} {segs before : List Segment}
  {cs out name after rest : List Char} {s : Segment} {c : Char} {value : String}

/-- The segments are those that a scan from left to right finds: no reference has been missed. -/
structure Scanned (segs : List Segment) : Prop where
  closed : ∀ s ∈ segs, s.IsClosed
  complete : segs.IsChain fun s t => ¬ Opens s t

structure Meets (text : String) (before : List Segment) (after : List Char) : Prop where
  scanned : Scanned before
  text_eq : text.toList = sourceAll before ++ '$' :: '\x7b' :: after

inductive Filled (env : String → Option String) : List Segment → List Char → Prop
  | nil : Filled env [] []
  | char {c : Char} {segs : List Segment} {out : List Char} (h : Filled env segs out) :
    Filled env (.char c :: segs) (c :: out)
  | reference {name : List Char} {value : String} {segs : List Segment} {out : List Char}
    (hvalue : env (String.ofList name) = some value) (h : Filled env segs out) :
    Filled env (.reference name :: segs) (value.toList ++ out)

/-- A reference cannot be resolved that has these characters behind its opening: there is no brace to
close it, or it names a variable that is not set. -/
inductive Dangling (env : String → Option String) : List Char → Prop
  | unclosed {after : List Char} (h : '\x7d' ∉ after) : Dangling env after
  | unset {name rest : List Char} (hname : '\x7d' ∉ name) (h : env (String.ofList name) = none) :
    Dangling env (name ++ '\x7d' :: rest)

@[simp] theorem sourceAll_nil : sourceAll [] = [] := rfl

@[simp] theorem sourceAll_cons (s : Segment) (segs : List Segment) :
    sourceAll (s :: segs) = s.source ++ sourceAll segs := rfl

@[simp] theorem sourceAll_append (segs segs' : List Segment) :
    sourceAll (segs ++ segs') = sourceAll segs ++ sourceAll segs' := List.flatMap_append

theorem Scanned.nil : Scanned [] := ⟨List.forall_mem_nil _, .nil⟩

theorem scanned_cons : Scanned (s :: segs) ↔
    s.IsClosed ∧ (∀ t ∈ segs.head?, ¬ Opens s t) ∧ Scanned segs := by
  constructor
  · rintro ⟨hclosed, hcomplete⟩
    obtain ⟨hs, hclosed⟩ := List.forall_mem_cons.1 hclosed
    obtain ⟨hhead, hcomplete⟩ := List.isChain_cons.1 hcomplete
    exact ⟨hs, hhead, hclosed, hcomplete⟩
  · rintro ⟨hs, hhead, hclosed, hcomplete⟩
    exact ⟨List.forall_mem_cons.2 ⟨hs, hclosed⟩, List.isChain_cons.2 ⟨hhead, hcomplete⟩⟩

theorem Scanned.left {segs' : List Segment} (h : Scanned (segs ++ segs')) : Scanned segs :=
  ⟨fun s hs => h.closed s (List.mem_append_left _ hs), h.complete.left_of_append⟩

/-! ## One step of the scan -/

theorem resolveAll_char (h : ¬ (c = '$' ∧ cs.head? = some '\x7b')) :
    resolveAll env (c :: cs) = (resolveAll env cs).map (c :: ·) := by
  rw [resolveAll]
  rintro cs' rfl rfl
  exact h ⟨rfl, rfl⟩

theorem resolveAll_unclosed (h : '\x7d' ∉ after) :
    resolveAll env ('$' :: '\x7b' :: after) = .error .unclosed := by
  rw [resolveAll]
  split
  · rfl
  · next name rest hcut =>
    rw [(cut?_eq_some hcut).1] at h
    exact absurd (List.mem_append_right _ (.head _)) h

theorem resolveAll_reference (h : '\x7d' ∉ name) (rest : List Char) :
    resolveAll env ('$' :: '\x7b' :: (name ++ '\x7d' :: rest)) =
      match env (String.ofList name) with
      | none => .error (.unset (String.ofList name))
      | some value => (resolveAll env rest).map (value.toList ++ ·) := by
  rw [resolveAll]
  split
  · next hcut => simp [cut?_append h] at hcut
  · next name' rest' hcut =>
    obtain ⟨rfl, rfl⟩ := Prod.mk.inj (Option.some.inj ((cut?_append h rest).symm.trans hcut))
    rfl

theorem exists_of_dangling (h : Dangling env after) :
    ∃ e, resolveAll env ('$' :: '\x7b' :: after) = .error e := by
  cases h with
  | unclosed h => exact ⟨_, resolveAll_unclosed h⟩
  | unset hname h =>
    rw [resolveAll_reference hname, h]
    exact ⟨_, rfl⟩

/-! ## The scan of a whole text -/

theorem Scanned.not_opening (h : Scanned (.char c :: segs)) (hrest : rest.head? ≠ some '\x7b') :
    ¬ (c = '$' ∧ (sourceAll segs ++ rest).head? = some '\x7b') := by
  rintro ⟨rfl, hhead⟩
  obtain ⟨-, hnext, -⟩ := scanned_cons.1 h
  cases segs with
  | nil => exact hrest hhead
  | cons t segs =>
    cases t with
    | char d =>
      obtain rfl : d = '\x7b' := Option.some.inj hhead
      exact hnext _ rfl ⟨rfl, rfl⟩
    | reference name =>
      have hdollar : '$' = '\x7b' := Option.some.inj hhead
      exact absurd hdollar (by decide)

theorem resolveAll_scanned (h : Scanned segs) (hfilled : Filled env segs out) (rest : List Char)
    (hrest : rest.head? ≠ some '\x7b') :
    resolveAll env (sourceAll segs ++ rest) = (resolveAll env rest).map (out ++ ·) := by
  induction hfilled with
  | nil =>
    rw [sourceAll_nil, List.nil_append]
    cases resolveAll env rest <;> rfl
  | char _ ih =>
    obtain ⟨-, -, htail⟩ := scanned_cons.1 h
    rw [sourceAll_cons, source, List.singleton_append, List.cons_append,
      resolveAll_char (h.not_opening hrest), ih htail]
    cases resolveAll env rest <;> rfl
  | @reference name value segs out hvalue _ ih =>
    obtain ⟨hname, -, htail⟩ := scanned_cons.1 h
    -- What follows the reference is scanned on, and not its value.
    have hsource : sourceAll (.reference name :: segs) ++ rest =
        '$' :: '\x7b' :: (name ++ '\x7d' :: (sourceAll segs ++ rest)) := by simp [source]
    rw [hsource, resolveAll_reference hname, hvalue]
    dsimp only
    rw [ih htail]
    cases resolveAll env rest <;> simp [Except.map]

theorem filled_or_unset (env : String → Option String) (segs : List Segment) :
    (∃ out, Filled env segs out) ∨ ∃ before name rest out,
      segs = before ++ .reference name :: rest ∧ Filled env before out ∧
        env (String.ofList name) = none := by
  induction segs with
  | nil => exact .inl ⟨[], .nil⟩
  | cons s segs ih =>
    cases s with
    | char c =>
      rcases ih with ⟨out, hout⟩ | ⟨before, name, rest, out, rfl, hout, hnone⟩
      · exact .inl ⟨_, .char hout⟩
      · exact .inr ⟨.char c :: before, name, rest, _, rfl, .char hout, hnone⟩
    | reference first =>
      cases hfirst : env (String.ofList first) with
      | none => exact .inr ⟨[], first, segs, [], rfl, .nil, hfirst⟩
      | some value =>
        rcases ih with ⟨out, hout⟩ | ⟨before, name, rest, out, rfl, hout, hnone⟩
        · exact .inl ⟨_, .reference hfirst hout⟩
        · exact .inr ⟨.reference first :: before, name, rest, _, rfl, .reference hfirst hout, hnone⟩

theorem exists_scan (cs : List Char) :
    ∃ segs, Scanned segs ∧ (cs = sourceAll segs ∨
      ∃ tail, '\x7d' ∉ tail ∧ cs = sourceAll segs ++ '$' :: '\x7b' :: tail) := by
  -- By the length of the text, as a reference is longer than one character.
  induction hn : cs.length using Nat.strong_induction_on generalizing cs with
  | _ n ih =>
  subst hn
  match cs with
  | [] => exact ⟨[], .nil, .inl rfl⟩
  | c :: cs =>
    by_cases hopen : c = '$' ∧ cs.head? = some '\x7b'
    · obtain ⟨rfl, hhead⟩ := hopen
      obtain ⟨after, rfl⟩ := List.head?_eq_some_iff.1 hhead
      cases hcut : cut? '\x7d' after with
      | none => exact ⟨[], .nil, .inr ⟨after, cut?_eq_none.1 hcut, rfl⟩⟩
      | some parts =>
        obtain ⟨name, rest⟩ := parts
        obtain ⟨rfl, hname⟩ := cut?_eq_some hcut
        obtain ⟨segs, hsegs, hend⟩ := ih rest.length (by simp; omega) rest rfl
        refine ⟨.reference name :: segs, scanned_cons.2 ⟨hname, ?_, hsegs⟩, ?_⟩
        · rintro t - ⟨h, -⟩
          cases h
        · rcases hend with rfl | ⟨tail, htail, rfl⟩
          · exact .inl (by simp [source])
          · exact .inr ⟨tail, htail, by simp [source]⟩
    · obtain ⟨segs, hsegs, hend⟩ := ih cs.length (by simp) cs rfl
      refine ⟨.char c :: segs, scanned_cons.2 ⟨trivial, ?_, hsegs⟩, ?_⟩
      · rintro t ht ⟨hc, rfl⟩
        obtain ⟨rest, rfl⟩ := List.head?_eq_some_iff.1 ht
        cases hc
        refine hopen ⟨rfl, ?_⟩
        rcases hend with rfl | ⟨tail, htail, rfl⟩
        · rfl
        · rfl
      · rcases hend with rfl | ⟨tail, htail, rfl⟩
        · exact .inl rfl
        · exact .inr ⟨tail, htail, rfl⟩

theorem filled_or_dangling (env : String → Option String) (text : String) :
    (∃ segs out, Scanned segs ∧ text.toList = sourceAll segs ∧ Filled env segs out) ∨
      ∃ before after out, Meets text before after ∧ Filled env before out ∧ Dangling env after := by
  obtain ⟨segs, hsegs, hend⟩ := exists_scan text.toList
  rcases filled_or_unset env segs with ⟨out, hout⟩ | ⟨before, name, rest, out, rfl, hout, hnone⟩
  · rcases hend with htext | ⟨tail, htail, htext⟩
    · exact .inl ⟨segs, out, hsegs, htext, hout⟩
    · exact .inr ⟨segs, tail, out, ⟨hsegs, htext⟩, hout, .unclosed htail⟩
  · have hname : '\x7d' ∉ name := hsegs.closed _ (List.mem_append_right _ (.head _))
    have hmeets {more : List Char}
        (htext : text.toList = sourceAll (before ++ .reference name :: rest) ++ more) :
        Meets text before (name ++ '\x7d' :: (sourceAll rest ++ more)) :=
      ⟨hsegs.left, by simp [htext, source]⟩
    refine .inr ⟨before, ?_⟩
    rcases hend with htext | ⟨tail, htail, htext⟩
    · exact ⟨_, out, hmeets (htext.trans (List.append_nil _).symm), hout, .unset hname hnone⟩
    · exact ⟨_, out, hmeets htext, hout, .unset hname hnone⟩

theorem resolve_of_filled (h : Scanned segs) (htext : text.toList = sourceAll segs)
    (hfilled : Filled env segs out) : resolve env text = .ok (String.ofList out) := by
  have hall := resolveAll_scanned h hfilled [] nofun
  rw [List.append_nil, ← htext, resolveAll] at hall
  rw [resolve, hall, Except.map, List.append_nil]

theorem resolve_of_dangling (h : Meets text before after) (hdangling : Dangling env after) :
    ∃ reason, resolve env text = .error (.config reason) := by
  have hall : ∃ e, resolveAll env text.toList = .error e := by
    rcases filled_or_unset env before with ⟨out, hout⟩ | ⟨front, name, rest, out, rfl, hout, hnone⟩
    · obtain ⟨e, he⟩ := exists_of_dangling hdangling
      rw [h.text_eq, resolveAll_scanned h.scanned hout _ (by simp), he]
      exact ⟨e, rfl⟩
    · have hname : '\x7d' ∉ name := h.scanned.closed _ (List.mem_append_right _ (.head _))
      have htext : text.toList = sourceAll front ++ '$' :: '\x7b' ::
          (name ++ '\x7d' :: (sourceAll rest ++ '$' :: '\x7b' :: after)) := by
        simp [h.text_eq, source]
      obtain ⟨e, he⟩ := exists_of_dangling (.unset hname hnone)
      rw [htext, resolveAll_scanned h.scanned.left hout _ (by simp), he]
      exact ⟨e, rfl⟩
  obtain ⟨e, he⟩ := hall
  rw [resolve, he]
  cases e with
  | unclosed => exact ⟨_, rfl⟩
  | unset name => exact ⟨_, rfl⟩

theorem resolve_eq_ok {out : String} : resolve env text = .ok out ↔
    ∃ segs, Scanned segs ∧ text.toList = sourceAll segs ∧ Filled env segs out.toList := by
  constructor
  · intro h
    rcases filled_or_dangling env text with
      ⟨segs, cs, hsegs, htext, hcs⟩ | ⟨before, after, -, hmeets, -, hdangling⟩
    · cases h.symm.trans (resolve_of_filled hsegs htext hcs)
      exact ⟨segs, hsegs, htext, by rwa [String.toList_ofList]⟩
    · obtain ⟨reason, herror⟩ := resolve_of_dangling hmeets hdangling
      cases h.symm.trans herror
  · rintro ⟨segs, hsegs, htext, hout⟩
    rw [resolve_of_filled hsegs htext hout, String.ofList_toList]

theorem exists_resolve_iff : (∃ out, resolve env text = .ok out) ↔
    ¬ ∃ before after, Meets text before after ∧ Dangling env after := by
  constructor
  · rintro ⟨out, h⟩ ⟨before, after, hmeets, hdangling⟩
    obtain ⟨reason, herror⟩ := resolve_of_dangling hmeets hdangling
    cases h.symm.trans herror
  · intro hnone
    rcases filled_or_dangling env text with
      ⟨segs, out, hsegs, htext, hout⟩ | ⟨before, after, -, hmeets, -, hdangling⟩
    · exact ⟨_, resolve_of_filled hsegs htext hout⟩
    · exact absurd ⟨before, after, hmeets, hdangling⟩ hnone

/-! ## Texts without references -/

theorem scanned_chars (h : ¬ ['$', '\x7b'] <:+: cs) : Scanned (cs.map .char) := by
  induction cs with
  | nil => exact .nil
  | cons c cs ih =>
    have htail : ¬ ['$', '\x7b'] <:+: cs := fun hin => h (hin.trans (List.suffix_cons c cs).isInfix)
    refine scanned_cons.2 ⟨trivial, ?_, ih htail⟩
    rintro t ht ⟨hc, rfl⟩
    cases hc
    cases cs with
    | nil => cases ht
    | cons d cs =>
      cases ht
      exact h (List.prefix_append ['$', '\x7b'] cs).isInfix

theorem sourceAll_chars (cs : List Char) : sourceAll (cs.map .char) = cs := by
  induction cs with
  | nil => rfl
  | cons c cs ih => rw [List.map_cons, sourceAll_cons, ih, source, List.singleton_append]

theorem filled_chars (env : String → Option String) (cs : List Char) :
    Filled env (cs.map .char) cs := by
  induction cs with
  | nil => exact .nil
  | cons c cs ih => exact .char ih

/-- Resolving the references of a text fails just if the scan comes to one that is not closed or
names a variable that is not set. Otherwise it gives the text with the values in their places and
with all other characters; a value is not scanned, whatever is in it. A text in which no reference
begins stays as it is. -/
theorem resolve_once (env : String → Option String) (text : String) :
    ((∃ reason, resolve env text = .error (.config reason)) ↔
        ∃ before after, Meets text before after ∧ Dangling env after) ∧
      ((∃ out, resolve env text = .ok out) ↔
        ¬ ∃ before after, Meets text before after ∧ Dangling env after) ∧
      (∀ out, resolve env text = .ok out ↔
        ∃ segs, Scanned segs ∧ text.toList = sourceAll segs ∧ Filled env segs out.toList) ∧
      (¬ ['$', '\x7b'] <:+: text.toList → resolve env text = .ok text) := by
  refine ⟨⟨?_, ?_⟩, exists_resolve_iff, fun out => resolve_eq_ok, fun hplain => ?_⟩
  · rintro ⟨reason, herror⟩
    by_contra hnone
    obtain ⟨out, hout⟩ := exists_resolve_iff.2 hnone
    cases hout.symm.trans herror
  · rintro ⟨before, after, hmeets, hdangling⟩
    exact resolve_of_dangling hmeets hdangling
  · exact resolve_eq_ok.2 ⟨_, scanned_chars hplain, (sourceAll_chars _).symm, filled_chars env _⟩

def oneHost (name : String) : Option String := if name = "HOST" then some "$\x7bPORT\x7d" else none

theorem resolve_once_nested :
    resolve oneHost "$$\x7bHOST\x7d\x7d" = .ok "$$\x7bPORT\x7d\x7d" ∧
      ¬ ['$', '\x7b'] <:+: "\x7b$\x7d".toList ∧ resolve oneHost "\x7b$\x7d" = .ok "\x7b$\x7d" := by
  have hsegs : Scanned [.char '$', .reference "HOST".toList, .char '\x7d'] :=
    ⟨by decide +kernel, by decide +kernel⟩
  have hvalue : oneHost (String.ofList "HOST".toList) = some "$\x7bPORT\x7d" := by
    rw [String.ofList_toList]
    rfl
  have hfilled : Filled oneHost [.char '$', .reference "HOST".toList, .char '\x7d']
      "$$\x7bPORT\x7d\x7d".toList := by
    have hout : "$$\x7bPORT\x7d\x7d".toList = '$' :: ("$\x7bPORT\x7d".toList ++ ['\x7d']) := by
      decide +kernel
    exact hout ▸ .char (.reference hvalue (.char .nil))
  have hplain : ¬ ['$', '\x7b'] <:+: "\x7b$\x7d".toList := by decide +kernel
  exact ⟨((resolve_once _ _).2.2.1 _).2 ⟨_, hsegs, by decide +kernel, hfilled⟩, hplain,
    (resolve_once _ _).2.2.2 hplain⟩

end Followup.Reference
