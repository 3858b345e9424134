import Followup.Yaml.Scalar

/-! The tokens of a YAML text. Indentation becomes tokens that open and close blocks. Whether
something is the key of a mapping shows only at the colon behind it, so the token that announces
the key is put in front of it afterwards; a key has to fit one line and 1024 characters. Where the
text stops making sense, the tokens stop as well, with those withheld that might have turned out
to be keys. -/

namespace Followup.Yaml

inductive Token where
  | version (major minor : Nat)
  | tagHandle (handle uri : String)
  | documentStart | documentEnd | streamEnd
  | sequenceStart | mappingStart | blockEnd
  | flowSequenceStart | flowSequenceEnd | flowMappingStart | flowMappingEnd
  | blockEntry | flowEntry | key | value
  | reference (name : String)
  | anchor (name : String)
  | tag (handle rest : String)
  | scalar (text : String) (style : Style)
  | broken
deriving DecidableEq

/-- A token that may turn out to begin a key. -/
structure Candidate where
  number : Nat
  required : Bool
  place : Cursor

structure Scan where
  cursor : Cursor
  indent : Int
  indents : List Int
  candidates : List (Option Candidate)
  keyAllowed : Bool
  tokens : List Token
  count : Nat

namespace Scan

abbrev Step := Except Scan Scan

def start (text : List Char) : Scan where
  cursor := .start text
  indent := -1
  indents := []
  candidates := [none]
  keyAllowed := true
  tokens := []
  count := 0

def inFlow (s : Scan) : Bool := 1 < s.candidates.length

def push (s : Scan) (t : Token) : Scan := { s with tokens := t :: s.tokens, count := s.count + 1 }

def insertAt (s : Scan) (number : Nat) (t : Token) : Scan :=
  let behind := s.count - number
  { s with tokens := s.tokens.take behind ++ t :: s.tokens.drop behind, count := s.count + 1 }

def setCandidate (s : Scan) (k : Option Candidate) : Scan :=
  { s with candidates := k :: s.candidates.drop 1 }

def dropCandidate (s : Scan) : Step :=
  match s.candidates.head?.join with
  | some k => if k.required then .error s else .ok (s.setCandidate none)
  | none => .ok s

def noteCandidate (s : Scan) : Step :=
  if s.keyAllowed then do
    let required := !s.inFlow && s.indent == s.cursor.column
    return (← s.dropCandidate).setCandidate (some ⟨s.count, required, s.cursor⟩)
  else .ok s

def isStale (c : Cursor) (k : Candidate) : Bool :=
  k.place.line < c.line || k.place.index + 1024 < c.index

def dropStale (s : Scan) : Step :=
  if s.candidates.any fun k => k.any fun k => isStale s.cursor k && k.required then .error s
  else .ok { s with candidates := s.candidates.map fun k => k.filter fun k => !isStale s.cursor k }

/-- Opens a block at a column deeper than the innermost one. The token goes in front of all but
the first `number` tokens. -/
def openBlock (s : Scan) (column : Nat) (number : Nat) (t : Token) : Scan :=
  if s.inFlow ∨ ¬ s.indent < column then s
  else { s.insertAt number t with indent := column, indents := s.indent :: s.indents }

def closeBlocks (column : Int) : Int → List Int → Scan → Scan
  | indent, [], s => { s with indent, indents := [] }
  | indent, outer :: rest, s =>
    if column < indent then closeBlocks column outer rest (s.push .blockEnd)
    else { s with indent, indents := outer :: rest }

def closeTo (s : Scan) (column : Int) : Scan :=
  if s.inFlow then s else closeBlocks column s.indent s.indents s

def advance (s : Scan) (n : Nat) : Scan := { s with cursor := s.cursor.skip n }

/-- Passes over blanks, comments and line breaks. A line break allows a key outside of brackets,
and tabs count as blanks where no key can begin. -/
def skipGap : (fuel : Nat) → Scan → Scan
  | 0, s => s
  | fuel + 1, s =>
    let c := if s.cursor.column = 0 ∧ s.cursor.here = '\ufeff' then s.cursor.skip 1 else s.cursor
    let c := c.skipWhile fun x => x == ' ' || ((s.inFlow || !s.keyAllowed) && x == '\t')
    let c := if c.here = '#' then c.skipWhile fun x => !isBreak x else c
    if isBreak c.here then
      skipGap fuel { s with cursor := c.skipBreak, keyAllowed := s.keyAllowed || !s.inFlow }
    else { s with cursor := c }

def orFail {α : Type} (s : Scan) : Option α → Except Scan α
  | some a => .ok a
  | none => .error s

def finishDirective (s : Scan) (c : Cursor) (t : Token) : Step :=
  let c := c.skipWhile isGap
  let c := if c.here = '#' then c.skipWhile fun x => !isBreak x else c
  if c.atEnd then .ok ({ s with cursor := c }.push t)
  else if isBreak c.here then .ok ({ s with cursor := c.skipBreak }.push t)
  else .error s

def versionNumber? (c : Cursor) : Option (Nat × Cursor) :=
  let (digits, c) := c.takeWhile Char.isDigit
  if digits.isEmpty ∨ 9 < digits.length then none
  else some (digits.foldl (fun n d => n * 10 + (d.toNat - 48)) 0, c)

def encodedChar? (c : Cursor) : Option (Char × Cursor) := do
  let octet? (c : Cursor) : Option Nat :=
    if c.here = '%' ∧ 3 ≤ c.rest.length then Quoted.hex? [c.peek 1, c.peek 2] else none
  let lead ← octet? c
  let width := if lead < 0x80 then 1 else if lead / 32 = 6 then 2 else if lead / 16 = 14 then 3
    else if lead / 8 = 30 then 4 else 0
  if width = 0 then none
  else
    let c := c.skip 3
    let mut n := if width = 1 then lead else lead % Nat.pow 2 (7 - width)
    let mut c := c
    for _ in [1:width] do
      let octet ← octet? c
      if octet / 64 ≠ 2 then none
      n := n * 64 + octet % 64
      c := c.skip 3
    return (← Quoted.char? n, c)

def isUriChar (wide : Bool) (c : Char) : Bool :=
  isWordChar c || ";/?:@&=+$.!~*'()%".toList.contains c || (wide && ",[]".toList.contains c)

def uri? (wide : Bool) : (fuel : Nat) → List Char → Cursor → Option (List Char × Cursor)
  | 0, done, c => some (done.reverse, c)
  | fuel + 1, done, c =>
    if c.here = '%' then do
      let (x, c) ← encodedChar? c
      uri? wide fuel (x :: done) c
    else if isUriChar wide c.here then uri? wide fuel (c.here :: done) (c.skip 1)
    else some (done.reverse, c)

def tagHandle? (c : Cursor) : Option (List Char × Cursor) :=
  if c.here = '!' then
    let (word, c) := (c.skip 1).takeWhile isWordChar
    if c.here = '!' then some ('!' :: (word ++ ['!']), c.skip 1) else some ('!' :: word, c)
  else none

def readDirective (s : Scan) : Step := do
  let (name, c) := (s.cursor.skip 1).takeWhile isWordChar
  if !isGapOrEnd c.here then throw s
  match String.ofList name with
  | "YAML" =>
    let (major, c) ← s.orFail (versionNumber? (c.skipWhile isGap))
    if c.here ≠ '.' then throw s
    let (minor, c) ← s.orFail (versionNumber? (c.skip 1))
    s.finishDirective c (.version major minor)
  | "TAG" =>
    let (handle, c) ← s.orFail (tagHandle? (c.skipWhile isGap))
    if handle ≠ ['!'] ∧ (handle.length = 1 ∨ handle.getLast? ≠ some '!') then throw s
    if !isGap c.here then throw s
    let c := c.skipWhile isGap
    let (uri, c) ← s.orFail (uri? true (c.rest.length + 1) [] c)
    if uri.isEmpty ∨ ¬ isGapOrEnd c.here then throw s
    s.finishDirective c (.tagHandle (String.ofList handle) (String.ofList uri))
  | _ => throw s

def readName (s : Scan) (token : String → Token) : Step := do
  let s ← s.noteCandidate
  let s := { s with keyAllowed := false }
  let (name, c) := (s.cursor.skip 1).takeWhile isWordChar
  if name.isEmpty ∨ ¬ (isGapOrEnd c.here ∨ "?:,]\x7d%@\x60".toList.contains c.here) then throw s
  return { s with cursor := c }.push (token (String.ofList name))

def tag? (c : Cursor) : Option (String × String × Cursor) :=
  if c.peek 1 = '<' then do
    let c := c.skip 2
    let (uri, c) ← uri? true (c.rest.length + 1) [] c
    if uri.isEmpty ∨ c.here ≠ '>' then none
    else some ("", String.ofList uri, c.skip 1)
  else do
    let (handle, c) ← tagHandle? c
    if 1 < handle.length ∧ handle.getLast? = some '!' then
      let (uri, c) ← uri? false (c.rest.length + 1) [] c
      if uri.isEmpty then none else some (String.ofList handle, String.ofList uri, c)
    else
      let (uri, c) ← uri? false (c.rest.length + 1) [] c
      match handle.drop 1 ++ uri with
      | [] => some ("", "!", c)
      | rest => some ("!", String.ofList rest, c)

def readTag (s : Scan) : Step := do
  let s ← s.noteCandidate
  let s := { s with keyAllowed := false }
  let (handle, rest, c) ← s.orFail (tag? s.cursor)
  if ¬ isGapOrEnd c.here ∧ ¬ (s.inFlow ∧ c.here = ',') then throw s
  return { s with cursor := c }.push (.tag handle rest)

def readBlock (s : Scan) (literal : Bool) : Step := do
  let s ← s.dropCandidate
  let s := { s with keyAllowed := true }
  let l ← s.orFail (Block.read? literal s.indent (s.cursor.skip 1))
  return { s with cursor := l.next }.push (.scalar (String.ofList l.text) .quoted)

def readQuoted (s : Scan) (double : Bool) : Step := do
  let s ← s.noteCandidate
  let s := { s with keyAllowed := false }
  let c := s.cursor.skip 1
  let l ← s.orFail (Quoted.read? double (c.rest.length + 1) [] c)
  return { s with cursor := l.next }.push (.scalar (String.ofList l.text) .quoted)

def readPlain (s : Scan) : Step := do
  let s ← s.noteCandidate
  let s := { s with keyAllowed := false }
  let c := s.cursor
  let l ← s.orFail (Plain.read? s.inFlow (s.indent + 1).toNat (c.rest.length + 1) [] .empty c)
  return { s with cursor := l.next, keyAllowed := l.broken }.push
    (.scalar (String.ofList l.text) .plain)

def openFlow (s : Scan) (t : Token) : Step := do
  let s ← s.noteCandidate
  return { s.advance 1 with keyAllowed := true, candidates := none :: s.candidates }.push t

def closeFlow (s : Scan) (t : Token) : Step := do
  let s ← s.dropCandidate
  let candidates := if s.inFlow then s.candidates.drop 1 else s.candidates
  return { s.advance 1 with keyAllowed := false, candidates }.push t

/-- An indicator that begins an entry, a key or a value of a block; a block begins with it when it
stands deeper than the innermost one. -/
def openEntry (s : Scan) (collection : Token) : Step :=
  if s.inFlow then .ok s
  else if s.keyAllowed then .ok (s.openBlock s.cursor.column s.count collection)
  else .error s

def readValue (s : Scan) : Step := do
  match s.candidates.head?.join with
  | some k =>
    let s := (s.insertAt k.number .key).openBlock k.place.column k.number .mappingStart
    return { s.setCandidate none with keyAllowed := false }.advance 1 |>.push .value
  | none =>
    let s ← s.openEntry .mappingStart
    return { s.advance 1 with keyAllowed := !s.inFlow }.push .value

def readBoundary (s : Scan) (t : Token) : Step := do
  let s ← (s.closeTo (-1)).dropCandidate
  return { s.advance 3 with keyAllowed := false }.push t

def beginsPlain (s : Scan) (c next : Char) : Bool :=
  !(isGapOrEnd c || "-?:,[]\x7b\x7d#&*!|>'\"%@\x60".toList.contains c) ||
    (c == '-' && !isGap next) || (!s.inFlow && (c == '?' || c == ':') && !isGapOrEnd next)

def readToken (s : Scan) : Step :=
  let c := s.cursor.here
  let next := s.cursor.peek 1
  if s.cursor.column = 0 ∧ c = '%' then do
    let s ← (s.closeTo (-1)).dropCandidate
    readDirective { s with keyAllowed := false }
  else if s.cursor.atMarks '-' then s.readBoundary .documentStart
  else if s.cursor.atMarks '.' then s.readBoundary .documentEnd
  else if c = '[' then s.openFlow .flowSequenceStart
  else if c = '\x7b' then s.openFlow .flowMappingStart
  else if c = ']' then s.closeFlow .flowSequenceEnd
  else if c = '\x7d' then s.closeFlow .flowMappingEnd
  else if c = ',' then do
    let s ← s.dropCandidate
    return { s.advance 1 with keyAllowed := true }.push .flowEntry
  else if c = '-' ∧ isGapOrEnd next then do
    let s ← (← s.openEntry .sequenceStart).dropCandidate
    return { s.advance 1 with keyAllowed := true }.push .blockEntry
  else if c = '?' ∧ (s.inFlow ∨ isGapOrEnd next) then do
    let s ← (← s.openEntry .mappingStart).dropCandidate
    return { s.advance 1 with keyAllowed := !s.inFlow }.push .key
  else if c = ':' ∧ (s.inFlow ∨ isGapOrEnd next) then s.readValue
  else if c = '*' then s.readName .reference
  else if c = '&' then s.readName .anchor
  else if c = '!' then s.readTag
  else if c = '|' ∧ ¬ s.inFlow then s.readBlock true
  else if c = '>' ∧ ¬ s.inFlow then s.readBlock false
  else if c = '\'' then s.readQuoted false
  else if c = '"' then s.readQuoted true
  else if s.beginsPlain c next then s.readPlain
  else .error s

def run : (fuel : Nat) → Scan → Step
  | 0, s => .error s
  | fuel + 1, s => do
    let s ← (skipGap (s.cursor.rest.length + 1) s).dropStale
    let s := s.closeTo s.cursor.column
    if s.cursor.atEnd then
      let s ← (s.closeTo (-1)).dropCandidate
      return s.push .streamEnd
    else run fuel (← s.readToken)

def settled (s : Scan) : Nat :=
  s.candidates.foldl (fun n k => match k with
    | some k => min n k.number
    | none => n) s.count

end Scan

def Token.ofText (text : String) : List Token :=
  if text.toList.all isAllowed then
    let cs := withLineFeeds text.toList
    match (Scan.start cs).run (cs.length + 2) with
    | .ok s => s.tokens.reverse
    | .error s => s.tokens.reverse.take s.settled ++ [.broken]
  else [.broken]

end Followup.Yaml
