import Followup.Text.Blank
import Followup.Text.Numeral
import Followup.Text.Split

/-! The tokens of a template: the text outside all marks, and the words inside them. A hyphen at a
mark takes away the blanks on its side. -/

namespace Followup.Template

open Text

inductive Token where
  | data (s : String)
  | openPrint | closePrint | openTag | closeTag
  | name (s : String)
  | text (s : String)
  | whole (n : Nat)
  | decimal (x : Float)
  | sign (s : String)

namespace Token

/-- Where a token begins: in the text, or inside marks that the given character closes, with so
many brackets open. -/
inductive Place where
  | text (trimming : Bool)
  | inside (closing : Char) (depth : Nat)

def untilMark : List Char → List Char × List Char
  | [] => ([], [])
  | '\x7b' :: c :: cs =>
    if c = '\x7b' ∨ c = '%' ∨ c = '#' then ([], '\x7b' :: c :: cs)
    else
      let (before, rest) := untilMark (c :: cs)
      ('\x7b' :: before, rest)
  | c :: cs =>
    let (before, rest) := untilMark cs
    (c :: before, rest)

def dataOf (cs : List Char) : List Token := if cs.isEmpty then [] else [.data (String.ofList cs)]

def trimSign : List Char → Bool × List Char
  | '-' :: cs => (true, cs)
  | '+' :: cs => (false, cs)
  | cs => (false, cs)

def isGap (c : Char) : Bool := c == ' ' || c == '\t' || c == '\n' || c == '\x0c' || c == '\x0d'

def tag? (word : List Char) (cs : List Char) : Option (Bool × List Char) :=
  let cs := cs.dropWhile isGap
  if word.isPrefixOf cs then
    match trimSign ((cs.drop word.length).dropWhile isGap) with
    | (trimming, '%' :: '\x7d' :: rest) => some (trimming, rest)
    | _ => none
  else none

def untilEndRaw : List Char → Option (List Char × Bool × Bool × List Char)
  | [] => none
  | c :: cs =>
    let further := (untilEndRaw cs).map fun (raw, rest) => (c :: raw, rest)
    match c, cs with
    | '\x7b', '%' :: rest =>
      let (trimBefore, tag) := trimSign rest
      match tag? "endraw".toList tag with
      | some (trimAfter, rest) => some ([], trimBefore, trimAfter, rest)
      | none => further
    | _, _ => further

def afterComment? : List Char → Option (Bool × List Char)
  | '-' :: '#' :: '\x7d' :: cs => some (true, cs)
  | '#' :: '\x7d' :: cs => some (false, cs)
  | _ :: cs => afterComment? cs
  | [] => none

def closing? (closing : Char) (cs : List Char) : Option (Bool × List Char) :=
  match trimSign cs with
  | (trimming, c :: '\x7d' :: rest) => if c = closing then some (trimming, rest) else none
  | _ => none

def quoted? (mark : Char) : List Char → Option (List Char × List Char)
  | [] => none
  | ['\\'] => none
  | '\\' :: c :: cs => (quoted? mark cs).map fun (body, rest) => ('\\' :: c :: body, rest)
  | c :: cs =>
    if c = mark then some ([], cs)
    else (quoted? mark cs).map fun (body, rest) => (c :: body, rest)

def unit? (a b c d : Char) : Option Nat := Numeral.nat? 16 [a, b, c, d]

def unescape? : List Char → Option (List Char)
  | [] => some []
  | '\\' :: 'u' :: a :: b :: c :: d :: '\\' :: 'u' :: e :: f :: g :: h :: cs => do
    let high ← unit? a b c d
    let low ← unit? e f g h
    if 0xD800 ≤ high ∧ high < 0xDC00 ∧ 0xDC00 ≤ low ∧ low < 0xE000 then
      return Char.ofNat (0x10000 + (high - 0xD800) * 1024 + (low - 0xDC00)) :: (← unescape? cs)
    else if 0xD800 ≤ high ∧ high < 0xE000 then none
    else return Char.ofNat high :: (← unescape? ('\\' :: 'u' :: e :: f :: g :: h :: cs))
  | '\\' :: 'u' :: a :: b :: c :: d :: cs => do
    let n ← unit? a b c d
    if 0xD800 ≤ n ∧ n < 0xE000 then none else return Char.ofNat n :: (← unescape? cs)
  | '\\' :: c :: cs => do
    let d ← match c with
      | '"' | '\\' | '/' | '\'' => some c
      | 'b' => some '\x08'
      | 'f' => some '\x0c'
      | 'n' => some '\n'
      | 'r' => some '\x0d'
      | 't' => some '\t'
      | _ => none
    return d :: (← unescape? cs)
  | c :: cs => (unescape? cs).map (c :: ·)

def radixOf (cs : List Char) : Nat × List Char :=
  match cs with
  | '0' :: c :: rest =>
    if c = 'x' ∨ c = 'X' then (16, rest)
    else if c = 'o' ∨ c = 'O' then (8, rest)
    else if c = 'b' ∨ c = 'B' then (2, rest)
    else (10, cs)
  | _ => (10, cs)

def decimalOf? (whole fraction exponent : List Char) : Option Float := do
  let digits ← Numeral.nat? 10 (whole ++ fraction)
  let power ← if exponent.isEmpty then some 0 else Numeral.int? exponent
  let power := power - fraction.length
  let size : Int := (toString digits).length + power
  return if digits = 0 ∨ size < -400 then 0
    else if 400 < size then 1 / 0
    else Float.ofScientific digits (decide (power < 0)) power.natAbs

def isDigitOrGap (c : Char) : Bool := Numeral.isDigit c || c == '_'

def number? (cs : List Char) : Option (Token × List Char) :=
  let plain (l : List Char) : List Char := l.filter (· ≠ '_')
  let (base, body) := radixOf cs
  if base ≠ 10 then do
    let digits := body.takeWhile fun c => (Numeral.digit? base c).isSome || c == '_'
    let n ← Numeral.nat? base (plain digits)
    if n < Nat.pow 2 128 then some (.whole n, body.drop digits.length) else none
  else do
    let whole := cs.takeWhile isDigitOrGap
    let rest := cs.drop whole.length
    let (fraction, rest, hasPoint) := match rest with
      | '.' :: ds => (ds.takeWhile isDigitOrGap, ds.dropWhile isDigitOrGap, true)
      | ds => ([], ds, false)
    let (exponent, rest) := match rest with
      | 'e' :: ds | 'E' :: ds =>
        let sign := (ds.take 1).filter fun c => c == '+' || c == '-'
        let digits := (ds.drop sign.length).takeWhile Numeral.isDigit
        (sign ++ digits, (ds.drop sign.length).drop digits.length)
      | ds => ([], ds)
    if hasPoint ∨ ¬ exponent.isEmpty then
      (decimalOf? (plain whole) (plain fraction) exponent).map (.decimal ·, rest)
    else do
      let n ← Numeral.nat? 10 (plain whole)
      if n < Nat.pow 2 128 then some (.whole n, rest) else none

def isNameStart (c : Char) : Bool := c.isAlpha || c == '_'

def isNamePart (c : Char) : Bool := c.isAlphanum || c == '_'

def longSigns : List String := ["//", "**", "==", "!=", ">=", "<="]

def shortSigns : List Char := "+-*/%.,:~|=><()[]\x7b\x7d".toList

def inner? (cs : List Char) : Option (Token × List Char) :=
  match cs with
  | [] => none
  | c :: rest =>
    if longSigns.contains (String.ofList (cs.take 2)) then
      some (.sign (String.ofList (cs.take 2)), cs.drop 2)
    else if shortSigns.contains c then some (.sign (String.singleton c), rest)
    else if c = '"' ∨ c = '\'' then do
      let (body, rest) ← quoted? c rest
      return (.text (String.ofList (← unescape? body)), rest)
    else if Numeral.isDigit c then number? cs
    else if isNameStart c then
      let word := cs.takeWhile isNamePart
      some (.name (String.ofList word), cs.drop word.length)
    else none

def depthAfter (depth : Nat) : Token → Nat
  | .sign s =>
    if ["(", "[", "\x7b"].contains s then depth + 1
    else if [")", "]", "\x7d"].contains s then depth - 1
    else depth
  | _ => depth

def maxDepth : Nat := 149

/-- The tokens from a place on. Each step but the last one passes over a character, so the length
of the text bounds the steps. -/
def tokensFrom : (steps : Nat) → Place → List Char → Option (List Token)
  | 0, _, _ => none
  | steps + 1, .text trimming, cs =>
    let (plain, rest) := untilMark (if trimming then trimLeft cs else cs)
    match rest with
    | _ :: kind :: rest =>
      let (trimBefore, rest) := trimSign rest
      let before := dataOf (if trimBefore then trimRight plain else plain)
      if kind = '\x7b' then
        (tokensFrom steps (.inside '\x7d' 0) rest).map fun ts => before ++ openPrint :: ts
      else if kind = '#' then do
        let (trimAfter, rest) ← afterComment? rest
        (tokensFrom steps (.text trimAfter) rest).map (before ++ ·)
      else match tag? "raw".toList rest with
        | some (trimRaw, rest) => do
          let (raw, trimRawEnd, trimAfter, rest) ← untilEndRaw rest
          let raw := if trimRaw then trimLeft raw else raw
          let raw := if trimRawEnd then trimRight raw else raw
          (tokensFrom steps (.text trimAfter) rest).map (before ++ dataOf raw ++ ·)
        | none =>
          (tokensFrom steps (.inside '%' 0) rest).map fun ts => before ++ openTag :: ts
    | _ => some (dataOf plain)
  | steps + 1, .inside closing depth, cs =>
    let cs := cs.dropWhile isGap
    match (if depth = 0 then closing? closing cs else none) with
    | some (trimming, rest) =>
      (tokensFrom steps (.text trimming) rest).map
        ((if closing = '%' then closeTag else closePrint) :: ·)
    | none => do
      let (token, rest) ← inner? cs
      let depth := depthAfter depth token
      if maxDepth < depth then none
      (tokensFrom steps (.inside closing depth) rest).map (token :: ·)

def withoutLastBreak (cs : List Char) : List Char :=
  match cs.reverse with
  | '\n' :: '\x0d' :: rest | '\n' :: rest => rest.reverse
  | _ => cs

def ofText? (text : String) : Option (List Token) :=
  let cs := withoutLastBreak text.toList
  tokensFrom (2 * cs.length + 2) (.text false) cs

end Token

end Followup.Template
