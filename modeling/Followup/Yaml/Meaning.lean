import Followup.Text.Numeral
import Followup.Yaml.Node

/-! What a scalar means: nothing, a truth value, a number or a text. A plain scalar without a tag
means whatever it looks like; a quoted one is a text. Digits behind a leading zero do not look
like a number. -/

namespace Followup.Yaml

open Text

inductive Meaning where
  | null
  | truth (b : Bool)
  | whole (n : Int)
  | number
  | text (s : String)
  | tagged (tag : String)
  | mistagged
deriving DecidableEq

namespace Meaning

def isNull (s : String) : Bool := ["null", "Null", "NULL", "~"].contains s

def truth? (s : String) : Option Bool :=
  if ["true", "True", "TRUE"].contains s then some true
  else if ["false", "False", "FALSE"].contains s then some false
  else none

def hasLeadingZero (cs : List Char) : Bool :=
  let digits := match cs with
    | '-' :: ds | '+' :: ds => ds
    | ds => ds
  1 < digits.length && digits.head? == some '0' && digits.all Numeral.isDigit

def based? : List Char → Option Nat
  | '0' :: 'x' :: ds => Numeral.nat? 16 ds
  | '0' :: 'o' :: ds => Numeral.nat? 8 ds
  | '0' :: 'b' :: ds => Numeral.nat? 2 ds
  | _ => none

def whole? (cs : List Char) : Option Int :=
  let unsigned? (ds : List Char) : Option Nat :=
    (based? ds).or (if hasLeadingZero cs then none else Numeral.nat? 10 ds)
  match cs with
  | '-' :: ds => (unsigned? ds).map fun n => -(n : Int)
  | '+' :: ds => (unsigned? ds).map Int.ofNat
  | ds => (unsigned? ds).map Int.ofNat

def decimal? (cs : List Char) : Option (Nat × Int) := do
  let unsigned := match cs with
    | '-' :: ds => ds
    | ds => ds
  let before := unsigned.takeWhile Numeral.isDigit
  let rest := unsigned.drop before.length
  let (after, rest) := match rest with
    | '.' :: ds => (ds.takeWhile Numeral.isDigit, ds.dropWhile Numeral.isDigit)
    | ds => ([], ds)
  let digits ← Numeral.nat? 10 (before ++ after)
  let power ← match rest with
    | [] => some 0
    | 'e' :: ds | 'E' :: ds => Numeral.int? ds
    | _ => none
  return (digits, power - after.length)

def isNumber (s : String) : Bool :=
  let cs := s.toList
  let unplussed? := match cs with
    | '+' :: '+' :: _ | '+' :: '-' :: _ => none
    | '+' :: ds => some ds
    | ds => some ds
  match unplussed? with
  | none => false
  | some ds =>
    [".inf", ".Inf", ".INF"].contains (String.ofList ds) ||
      ["-.inf", "-.Inf", "-.INF", ".nan", ".NaN", ".NAN"].contains s ||
      match decimal? ds with
      | some (digits, power) => Numeral.isFinite digits power
      | none => false

def ofWhole (n : Int) : Option Meaning :=
  if -9223372036854775808 ≤ n ∧ n < 18446744073709551616 then some (.whole n)
  else if -(Nat.pow 2 127 : Nat) ≤ n ∧ n < (Nat.pow 2 128 : Nat) then some .number
  else none

def ofPlain (s : String) : Meaning :=
  if s = "" ∨ isNull s then .null
  else match truth? s with
    | some b => .truth b
    | none =>
      match (whole? s.toList).bind ofWhole with
      | some m => m
      | none => if !hasLeadingZero s.toList && isNumber s then .number else .text s

end Meaning

def coreTag (name : String) : String := "tag:yaml.org,2002:" ++ name

def localTag? (tag : Option String) : Option String :=
  match tag with
  | some t =>
    match t.toList with
    | '!' :: name => some (String.ofList name)
    | _ => none
  | none => none

def Scalar.meaning (s : Scalar) : Meaning :=
  match s.tag with
  | none =>
    match s.style with
    | .plain => .ofPlain s.text
    | .quoted => .text s.text
  | some tag =>
    match localTag? s.tag with
    | some name => .tagged name
    | none =>
      if tag = coreTag "bool" then
        match Meaning.truth? s.text with
        | some b => .truth b
        | none => .mistagged
      else if tag = coreTag "int" then
        ((Meaning.whole? s.text.toList).bind Meaning.ofWhole).getD .mistagged
      else if tag = coreTag "float" then
        if Meaning.isNumber s.text then .number else .mistagged
      else if tag = coreTag "null" then
        if Meaning.isNull s.text then .null else .mistagged
      else .text s.text

end Followup.Yaml
