import Followup.Yaml.Cursor

/-! Scalars as they are written: plain, in quotes, or as an indented block. What stands between
two words of a scalar is a gap: blanks within a line stay, a single line break reads as a blank,
and of more line breaks all but the first stay. -/

namespace Followup.Yaml

inductive Style where
  | plain
  | quoted
deriving DecidableEq

/-- White space between words: the blanks of its line or, once broken, its line breaks. Lists are
in reverse. -/
structure Gap where
  blanks : List Char
  broken : Bool
  first : Option Char
  more : List Char

namespace Gap

def empty : Gap := ⟨[], false, none, []⟩

def joined : Gap := ⟨[], true, none, []⟩

def text (g : Gap) : List Char :=
  if g.broken then
    match g.first with
    | some '\n' => if g.more.isEmpty then [' '] else g.more.reverse
    | some c => c :: g.more.reverse
    | none => g.more.reverse
  else g.blanks.reverse

def read? (tabsFrom : Nat) : (fuel : Nat) → Gap → Cursor → Option (Gap × Cursor)
  | 0, g, c => some (g, c)
  | fuel + 1, g, c =>
    if isGap c.here then
      if g.broken ∧ c.column < tabsFrom ∧ c.here = '\t' then none
      else if g.broken then read? tabsFrom fuel g (c.skip 1)
      else read? tabsFrom fuel { g with blanks := c.here :: g.blanks } (c.skip 1)
    else if isBreak c.here then
      if g.broken then read? tabsFrom fuel { g with more := c.here :: g.more } c.skipBreak
      else read? tabsFrom fuel ⟨[], true, some c.here, []⟩ c.skipBreak
    else some (g, c)

end Gap

structure Lexeme where
  text : List Char
  next : Cursor
  broken : Bool

namespace Plain

def endsWord (inFlow : Bool) (c next : Char) : Bool :=
  isGapOrEnd c || (c == ':' && isGapOrEnd next) || (inFlow && ",[]\x7b\x7d".toList.contains c)

def word? (inFlow : Bool) : List Char → Option (List Char)
  | [] => some []
  | c :: cs =>
    let next := cs.head?.getD '\x00'
    if isGapOrEnd c then some []
    else if inFlow ∧ c = ':' ∧ ",?[]\x7b\x7d".toList.contains next then none
    else if endsWord inFlow c next then some []
    else (word? inFlow cs).map (c :: ·)

def read? (inFlow : Bool) (indent : Nat) :
    (fuel : Nat) → (words : List Char) → Gap → Cursor → Option Lexeme
  | 0, words, gap, c => some ⟨words, c, gap.broken⟩
  | fuel + 1, words, gap, c =>
    if c.atBoundary ∨ c.here = '#' then some ⟨words, c, gap.broken⟩
    else do
      let word ← word? inFlow c.rest
      let (words, gap) := if word.isEmpty then (words, gap) else (words ++ gap.text ++ word, .empty)
      let c := c.skip word.length
      if isGap c.here ∨ isBreak c.here then
        let (gap, c) ← Gap.read? indent c.rest.length .empty c
        if ¬ inFlow ∧ c.column < indent then some ⟨words, c, gap.broken⟩
        else read? inFlow indent fuel words gap c
      else some ⟨words, c, gap.broken⟩

end Plain

namespace Quoted

def hex? (cs : List Char) : Option Nat :=
  cs.foldlM (fun n c => do
    let d ← if c.isDigit then some (c.toNat - 48)
      else if 'a' ≤ c ∧ c ≤ 'f' then some (c.toNat - 87)
      else if 'A' ≤ c ∧ c ≤ 'F' then some (c.toNat - 55)
      else none
    return n * 16 + d) 0

def char? (n : Nat) : Option Char := if n.isValidChar then some (Char.ofNat n) else none

def escape? : Char → Option Char
  | '0' => some '\x00' | 'a' => some '\x07' | 'b' => some '\x08' | 't' => some '\t'
  | '\t' => some '\t' | 'n' => some '\n' | 'v' => some '\x0b' | 'f' => some '\x0c'
  | 'r' => some '\x0d' | 'e' => some '\x1b' | ' ' => some ' ' | '"' => some '"'
  | '/' => some '/' | '\\' => some '\\' | 'N' => some '\u0085' | '_' => some '\u00a0'
  | 'L' => some '\u2028' | 'P' => some '\u2029'
  | _ => none

def escapeWidth? : Char → Option Nat
  | 'x' => some 2
  | 'u' => some 4
  | 'U' => some 8
  | _ => none

/-- Reads up to the closing quote or the next gap: the characters, the place behind them, and
whether a backslash took away the line break there. -/
def word? (double : Bool) : (fuel : Nat) → List Char → Cursor → Option (List Char × Cursor × Bool)
  | 0, _, _ => none
  | fuel + 1, done, c =>
    let next := c.peek 1
    if isGapOrEnd c.here then some (done.reverse, c, false)
    else if ¬ double then
      if c.here = '\'' then
        if next = '\'' then word? double fuel ('\'' :: done) (c.skip 2)
        else some (done.reverse, c, false)
      else word? double fuel (c.here :: done) (c.skip 1)
    else if c.here = '"' then some (done.reverse, c, false)
    else if c.here ≠ '\\' then word? double fuel (c.here :: done) (c.skip 1)
    else if isBreak next then some (done.reverse, (c.skip 1).skipBreak, true)
    else match escapeWidth? next with
      | some width => do
        let digits := (c.rest.drop 2).take width
        if digits.length < width then none
        else word? double fuel ((← char? (← hex? digits)) :: done) (c.skip (2 + width))
      | none => do word? double fuel ((← escape? next) :: done) (c.skip 2)

def read? (double : Bool) : (fuel : Nat) → List Char → Cursor → Option Lexeme
  | 0, _, _ => none
  | fuel + 1, done, c =>
    if c.atBoundary ∨ c.atEnd then none
    else do
      let (word, c, joined) ← word? double (c.rest.length + 1) [] c
      let quote := if double then '"' else '\''
      if c.here = quote ∧ ¬ c.atEnd then some ⟨done ++ word, c.skip 1, false⟩
      else
        let (gap, c) ← Gap.read? 0 c.rest.length (if joined then .joined else .empty) c
        read? double fuel (done ++ word ++ gap.text) c

end Quoted

namespace Block

inductive Chomp where
  | strip | clip | keep

def emptyLines? (indent : Nat) :
    (fuel : Nat) → (widest : Nat) → List Char → Cursor → Option (Nat × List Char × Cursor)
  | 0, widest, breaks, c => some (widest, breaks, c)
  | fuel + 1, widest, breaks, c =>
    let spaces := (c.rest.takeWhile (· == ' ')).length
    let c := c.skip (if indent = 0 then spaces else min spaces (indent - c.column))
    let widest := max widest c.column
    if (indent = 0 ∨ c.column < indent) ∧ c.here = '\t' then none
    else if isBreak c.here then emptyLines? indent fuel widest (c.here :: breaks) c.skipBreak
    else some (widest, breaks, c)

/-- What has been read of a block: its text, the break after its last line and the empty lines
behind that, and whether that line began with a blank. -/
structure Progress where
  text : List Char
  last : List Char
  trailing : List Char
  wasIndented : Bool

def lines? (literal : Bool) (indent : Nat) :
    (fuel : Nat) → Progress → Cursor → Option (Progress × Cursor)
  | 0, p, c => some (p, c)
  | fuel + 1, p, c =>
    if c.column = indent ∧ ¬ c.atEnd then do
      let indented := isGap c.here
      let folds := ¬ literal ∧ p.last.head? = some '\n' ∧ ¬ p.wasIndented ∧ ¬ indented
      let glue := if folds then (if p.trailing.isEmpty then [' '] else []) else p.last
      let (line, c) := c.takeWhile fun x => !isBreak x
      let last := if isBreak c.here then [c.here] else []
      let c := if isBreak c.here then c.skipBreak else c
      let (_, breaks, c) ← emptyLines? indent (c.rest.length + 1) 0 [] c
      lines? literal indent fuel
        ⟨p.text ++ glue ++ p.trailing ++ line, last, breaks.reverse, indented⟩ c
    else some (p, c)

def header? (c : Cursor) : Option (Chomp × Option Nat × Cursor) :=
  let chomp? : Char → Option Chomp
    | '+' => some .keep
    | '-' => some .strip
    | _ => none
  let digit? (x : Char) : Option Nat := if x.isDigit then some (x.toNat - 48) else none
  match chomp? c.here with
  | some chomp =>
    match digit? (c.peek 1) with
    | some 0 => none
    | some n => some (chomp, some n, c.skip 2)
    | none => some (chomp, none, c.skip 1)
  | none =>
    match digit? c.here with
    | some 0 => none
    | some n =>
      match chomp? (c.peek 1) with
      | some chomp => some (chomp, some n, c.skip 2)
      | none => some (.clip, some n, c.skip 1)
    | none => some (.clip, none, c)

def read? (literal : Bool) (parent : Int) (c : Cursor) : Option Lexeme := do
  let (chomp, increment, c) ← header? c
  let c := c.skipWhile isGap
  let c := if c.here = '#' then c.skipWhile fun x => !isBreak x else c
  if ¬ c.atEnd ∧ ¬ isBreak c.here then none
  else
    let c := if c.atEnd then c else c.skipBreak
    let given : Nat := match increment with
      | some n => (max parent 0).toNat + n
      | none => 0
    let (widest, breaks, c) ← emptyLines? given (c.rest.length + 1) 0 [] c
    let indent := if given = 0 then max widest (max (parent + 1).toNat 1) else given
    let (p, c) ← lines? literal indent (c.rest.length + 1) ⟨[], [], breaks.reverse, false⟩ c
    let text := match chomp with
      | .strip => p.text
      | .clip => p.text ++ p.last
      | .keep => p.text ++ p.last ++ p.trailing
    some ⟨text, c, true⟩

end Block

end Followup.Yaml
