/-! A place in a YAML text: what is left of the text, and the line and column that have been
reached. Line breaks of every kind but two read as one line feed; the line and paragraph
separators stand for themselves. -/

namespace Followup.Yaml

def isAllowed (c : Char) : Bool :=
  let n := c.toNat
  n == 9 || n == 10 || n == 13 || (0x20 ≤ n && n ≤ 0x7E) || n == 0x85 ||
    (0xA0 ≤ n && n ≤ 0xFFFD) || 0x10000 ≤ n

def withLineFeeds : List Char → List Char
  | [] => []
  | '\x0d' :: '\n' :: cs => '\n' :: withLineFeeds cs
  | c :: cs => (if c = '\x0d' ∨ c = '\u0085' then '\n' else c) :: withLineFeeds cs

def isBreak (c : Char) : Bool := c == '\n' || c == '\u2028' || c == '\u2029'

def isGap (c : Char) : Bool := c == ' ' || c == '\t'

def isGapOrEnd (c : Char) : Bool := isGap c || isBreak c || c == '\x00'

def isWordChar (c : Char) : Bool := c.isAlphanum || c == '_' || c == '-'

structure Cursor where
  rest : List Char
  index : Nat
  line : Nat
  column : Nat

namespace Cursor

def start (text : List Char) : Cursor := ⟨text, 0, 0, 0⟩

def peek (c : Cursor) (ahead : Nat) : Char := (c.rest[ahead]?).getD '\x00'

def here (c : Cursor) : Char := c.peek 0

def atEnd (c : Cursor) : Bool := c.rest.isEmpty

def skip (c : Cursor) (n : Nat) : Cursor :=
  { c with rest := c.rest.drop n, index := c.index + n, column := c.column + n }

def skipBreak (c : Cursor) : Cursor :=
  { rest := c.rest.drop 1, index := c.index + 1, line := c.line + 1, column := 0 }

def takeWhile (c : Cursor) (p : Char → Bool) : List Char × Cursor :=
  let cs := c.rest.takeWhile p
  (cs, c.skip cs.length)

def skipWhile (c : Cursor) (p : Char → Bool) : Cursor := (c.takeWhile p).2

def atMarks (c : Cursor) (mark : Char) : Bool :=
  c.column == 0 && c.here == mark && c.peek 1 == mark && c.peek 2 == mark && isGapOrEnd (c.peek 3)

def atBoundary (c : Cursor) : Bool := c.atMarks '-' || c.atMarks '.'

end Cursor

end Followup.Yaml
