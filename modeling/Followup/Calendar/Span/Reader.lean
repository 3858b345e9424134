import Followup.Calendar.Span
import Followup.Text.Blank
import Followup.Text.Numeral

/-! Lengths of time as text: a bare number of seconds, or numbers that each have a unit behind
them, in any order. Numbers, products and sums must all fit a signed word of 64 bits. -/

namespace Followup.Span

open Text

def unit? : Char → Option Int
  | 'd' => some 86400
  | 'h' => some 3600
  | 'm' => some 60
  | 's' => some 1
  | _ => none

def word? (n : Int) : Option Int := if Numeral.fits 64 n then some n else none

def secondsFrom? (total : Int) (digits : List Char) (seenUnit : Bool) : List Char → Option Int
  | [] =>
    if digits.isEmpty then some total
    else if seenUnit then none
    else Numeral.word? 64 digits.reverse
  | c :: cs =>
    if Numeral.isDigit c then secondsFrom? total (c :: digits) seenUnit cs
    else do
      let number ← Numeral.word? 64 digits.reverse
      let part ← word? (number * (← unit? c))
      secondsFrom? (← word? (total + part)) [] true cs

def seconds? (text : String) : Option Int :=
  let cs := trim text.toList
  if cs.isEmpty then none else secondsFrom? 0 [] false cs

/-- The span that a text writes. Seconds that fit a word but not a span are a fault. -/
def read? (text : String) : Checked (Option Span) :=
  match seconds? text with
  | some n => (ofSeconds n).checked.map some
  | none => .ok none

end Followup.Span
