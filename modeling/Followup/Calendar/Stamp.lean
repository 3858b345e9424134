import Followup.Calendar.Instant
import Followup.Calendar.Offset

/-! Dates and times of day in one text, with the offset from UTC behind them. Writing has one form;
reading also takes fields without leading zeros, blanks between fields, and offsets other than
zero. -/

namespace Followup

open Text

namespace Date

def writeYear (y : Int) : String :=
  if 0 ≤ y ∧ y ≤ 9999 then Numeral.padded 4 y.toNat
  else (if y < 0 then "-" else "+") ++ Numeral.padded 4 y.natAbs

def write (date : Date) : String :=
  let c := date.civil
  writeYear c.year ++ "-" ++ Numeral.padded 2 c.month ++ "-" ++ Numeral.padded 2 c.day

end Date

namespace Reading

def writeClock (t : Reading) : String := TimeOfDay.writeClock t.secondOfDay t.nano

def writeLocal (t : Reading) : String := t.date.write ++ "T" ++ t.writeClock

end Reading

namespace Stamp

def write (t : Instant) : String := t.writeLocal ++ "Z"

def writeWithOffset (t : Instant) : String := t.writeLocal ++ "+00:00"

def number? (width : Nat) (cs : List Char) : Option (Nat × List Char) :=
  let digits := (cs.take width).takeWhile Numeral.isDigit
  (Numeral.nat? 10 digits).map (·, cs.drop digits.length)

def year? (cs : List Char) : Option (Int × List Char) :=
  match trimLeft cs with
  | '-' :: cs => (number? cs.length cs).map fun (n, rest) => (-(n : Int), rest)
  | '+' :: cs => (number? cs.length cs).map fun (n, rest) => ((n : Int), rest)
  | cs => (number? 4 cs).map fun (n, rest) => ((n : Int), rest)

def field? (cs : List Char) : Option (Nat × List Char) := number? 2 (trimLeft cs)

def mark? (mark : Char) (cs : List Char) : Option (List Char) :=
  match trimLeft cs with
  | c :: rest => if c = mark then some rest else none
  | [] => none

def date? (cs : List Char) : Option (Date × List Char) := do
  let (year, cs) ← year? cs
  let (month, cs) ← field? (← mark? '-' cs)
  let (day, cs) ← field? (← mark? '-' cs)
  return (← Date.ofCivil? year month day, cs)

/-- Nanoseconds from the digits of a fraction; after nine of them the rest does not count. -/
def fraction? : List Char → Option (Nat × List Char)
  | '.' :: cs =>
    (number? 9 cs).map fun (n, rest) =>
      (n * Nat.pow 10 (9 - (cs.length - rest.length)), rest.dropWhile Numeral.isDigit)
  | cs => some (0, cs)

def time? (cs : List Char) : Option (TimeOfDay × List Char) := do
  let (hour, cs) ← field? cs
  let (minute, cs) ← field? (← mark? ':' cs)
  let (second, cs) ← field? (← mark? ':' cs)
  let (nano, cs) ← fraction? cs
  return (← TimeOfDay.ofFields? hour minute second nano, cs)

def offsetSeconds? : List Char → Option (Int × List Char)
  | h₁ :: h₂ :: cs => do
    let hours ← Numeral.nat? 10 [h₁, h₂]
    match cs.dropWhile fun c => c = ':' || isBlank c with
    | m₁ :: m₂ :: rest =>
      let minutes ← Numeral.nat? 10 [m₁, m₂]
      if minutes < 60 then some (hours * 3600 + minutes * 60, rest) else none
    | _ => none
  | _ => none

def offset? (cs : List Char) : Option (Offset × List Char) :=
  if sameLetters (String.ofList (cs.take 3)) "utc" then some (.utc, cs.drop 3)
  else match cs with
    | 'Z' :: cs | 'z' :: cs => some (.utc, cs)
    | '+' :: cs => (offsetSeconds? cs).bind fun (n, rest) => (Offset.ofSeconds? n).map (·, rest)
    | '-' :: cs | '−' :: cs =>
      (offsetSeconds? cs).bind fun (n, rest) => (Offset.ofSeconds? (-n)).map (·, rest)
    | _ => none

def read? (text : String) : Option Instant := do
  let (date, cs) ← date? text.toList
  let cs ← match cs with
    | 'T' :: cs | 't' :: cs | ' ' :: cs => some cs
    | _ => none
  let (time, cs) ← time? cs
  let (offset, cs) ← offset? (trimLeft cs)
  if (trimLeft cs).isEmpty then
    let t := Reading.ofDate date time
    let u : Reading := ⟨t.second - offset.seconds, t.nano⟩
    if u.InRange then some u else none
  else none

end Stamp

end Followup
