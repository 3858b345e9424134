import Followup.Json.Basic
import Followup.Text.Numeral

/-! Reading JSON. Every construct takes at least one character, so the length of the text bounds
the steps; and lists and records may be nested only so deep. -/

namespace Followup.JsonValue

open Text

def maxDepth : Nat := 127

def isGap (c : Char) : Bool := c == ' ' || c == '\t' || c == '\n' || c == '\x0d'

def skipGaps (cs : List Char) : List Char := cs.dropWhile isGap

def unit? : List Char → Option (Nat × List Char)
  | a :: b :: c :: d :: cs => (Numeral.nat? 16 [a, b, c, d]).map (·, cs)
  | _ => none

/-- The character of an escape behind its backslash. Two units of a pair make one character, and
neither may stand alone. -/
def escape? : List Char → Option (Char × List Char)
  | '"' :: cs => some ('"', cs)
  | '\\' :: cs => some ('\\', cs)
  | '/' :: cs => some ('/', cs)
  | 'b' :: cs => some ('\x08', cs)
  | 'f' :: cs => some ('\x0c', cs)
  | 'n' :: cs => some ('\n', cs)
  | 'r' :: cs => some ('\x0d', cs)
  | 't' :: cs => some ('\t', cs)
  | 'u' :: cs => do
    let (high, cs) ← unit? cs
    if 0xD800 ≤ high ∧ high < 0xDC00 then
      match cs with
      | '\\' :: 'u' :: cs => do
        let (low, cs) ← unit? cs
        if 0xDC00 ≤ low ∧ low < 0xE000 then
          return (Char.ofNat (0x10000 + (high - 0xD800) * 1024 + (low - 0xDC00)), cs)
        else none
      | _ => none
    else if 0xDC00 ≤ high ∧ high < 0xE000 then none
    else return (Char.ofNat high, cs)
  | _ => none

def quotedFrom? : (steps : Nat) → List Char → Option (List Char × List Char)
  | 0, _ => none
  | _ + 1, [] => none
  | _ + 1, '"' :: cs => some ([], cs)
  | steps + 1, '\\' :: cs => do
    let (c, cs) ← escape? cs
    let (body, rest) ← quotedFrom? steps cs
    return (c :: body, rest)
  | steps + 1, c :: cs =>
    if c.toNat < 32 then none
    else (quotedFrom? steps cs).map fun (body, rest) => (c :: body, rest)

def quoted? (cs : List Char) : Option (String × List Char) :=
  (quotedFrom? (cs.length + 1) cs).map fun (body, rest) => (String.ofList body, rest)

def wholeDigits? (cs : List Char) : Option (List Char × List Char) :=
  match cs with
  | '0' :: rest => if rest.head?.any Numeral.isDigit then none else some (['0'], rest)
  | _ =>
    let digits := cs.takeWhile Numeral.isDigit
    if digits.isEmpty then none else some (digits, cs.drop digits.length)

def fraction? : List Char → Option (List Char × List Char)
  | '.' :: cs =>
    let digits := cs.takeWhile Numeral.isDigit
    if digits.isEmpty then none else some (digits, cs.drop digits.length)
  | cs => some ([], cs)

def exponent? : List Char → Option (Option Int × List Char)
  | 'e' :: cs | 'E' :: cs =>
    let (isNegative, cs) := match cs with
      | '-' :: cs => (true, cs)
      | '+' :: cs => (false, cs)
      | cs => (false, cs)
    let digits := cs.takeWhile Numeral.isDigit
    (Numeral.nat? 10 digits).map fun n =>
      (some (if isNegative then -(n : Int) else n), cs.drop digits.length)
  | cs => some (none, cs)

def number? (cs : List Char) : Option (JsonValue × List Char) := do
  let (isNegative, body) := match cs with
    | '-' :: cs => (true, cs)
    | cs => (false, cs)
  let (digits, rest) ← wholeDigits? body
  let (fraction, rest) ← fraction? rest
  let (exponent, rest) ← exponent? rest
  let n ← Numeral.nat? 10 digits
  let all ← Numeral.nat? 10 (digits ++ fraction)
  if ¬ Numeral.isFinite all (exponent.getD 0 - fraction.length) then none
  let value : Int := if isNegative then -(n : Int) else n
  let isWhole := fraction.isEmpty && exponent.isNone && !(isNegative && n == 0)
  return (if isWhole && Numeral.fits 64 value then .whole value else .number, rest)

def word? (word : String) (v : JsonValue) (cs : List Char) : Option (JsonValue × List Char) :=
  if word.toList.isPrefixOf cs then some (v, cs.drop word.length) else none

mutual

def value? : (steps depth : Nat) → List Char → Option (JsonValue × List Char)
  | 0, _, _ => none
  | steps + 1, depth, cs =>
    match skipGaps cs with
    | '"' :: cs => (quoted? cs).map fun (s, rest) => (.text s, rest)
    | '[' :: cs =>
      match depth, skipGaps cs with
      | 0, _ => none
      | _ + 1, ']' :: rest => some (.list [], rest)
      | depth + 1, cs => (items? steps depth cs).map fun (vs, rest) => (.list vs, rest)
    | '\x7b' :: cs =>
      match depth, skipGaps cs with
      | 0, _ => none
      | _ + 1, '\x7d' :: rest => some (.record [], rest)
      | depth + 1, cs => (members? steps depth cs).map fun (ms, rest) => (.record ms, rest)
    | 'n' :: cs => word? "ull" .null cs
    | 't' :: cs => word? "rue" (.truth true) cs
    | 'f' :: cs => word? "alse" (.truth false) cs
    | cs => number? cs

def items? : (steps depth : Nat) → List Char → Option (List JsonValue × List Char)
  | 0, _, _ => none
  | steps + 1, depth, cs => do
    let (v, rest) ← value? steps depth cs
    match skipGaps rest with
    | ',' :: rest =>
      let (vs, rest) ← items? steps depth rest
      return (v :: vs, rest)
    | ']' :: rest => return ([v], rest)
    | _ => none

def members? : (steps depth : Nat) → List Char → Option (List (String × JsonValue) × List Char)
  | 0, _, _ => none
  | steps + 1, depth, cs => do
    let (name, rest) ← match skipGaps cs with
      | '"' :: cs => quoted? cs
      | _ => none
    let (v, rest) ← match skipGaps rest with
      | ':' :: rest => value? steps depth rest
      | _ => none
    match skipGaps rest with
    | ',' :: rest =>
      let (ms, rest) ← members? steps depth rest
      return ((name, v) :: ms, rest)
    | '\x7d' :: rest => return ([(name, v)], rest)
    | _ => none

end

def read? (text : String) : Option JsonValue := do
  let cs := text.toList
  let (v, rest) ← value? (2 * cs.length + 2) maxDepth cs
  if (skipGaps rest).isEmpty then some v else none

end Followup.JsonValue
