import Followup.Fault
import Followup.Text.Blank
import Followup.Text.Numeral
import Followup.Text.Split

/-! Offsets of local time from UTC: fewer than twenty-four hours east or west. -/

namespace Followup

open Text

structure Offset where
  seconds : Int
  west : -86400 < seconds
  east : seconds < 86400
deriving DecidableEq

namespace Offset

def utc : Offset := ⟨0, by decide, by decide⟩

def ofSeconds? (n : Int) : Option Offset :=
  if h : -86400 < n ∧ n < 86400 then some ⟨n, h.1, h.2⟩ else none

def ofMinutes (n : Int) : Offset := (ofSeconds? (n * 60)).getD utc

def write (o : Offset) : String :=
  let n := o.seconds.natAbs
  (if o.seconds < 0 then "-" else "+") ++ Numeral.padded 2 (n / 3600) ++ ":" ++
    Numeral.padded 2 (n / 60 % 60) ++
    if n % 60 = 0 then "" else ":" ++ Numeral.padded 2 (n % 60)

def secondsOf (hours minutes : Int) : Checked Int :=
  if Numeral.fits 32 (hours * 3600) ∧ Numeral.fits 32 (hours * 3600 + minutes * 60) then
    .ok (hours * 3600 + minutes * 60)
  else .error .outOfRange

/-- The hours and minutes of a written offset, each a signed word. The minutes stay below sixty. -/
def readParts? (cs : List Char) : Checked (Option Int) :=
  match cut? ':' cs with
  | none => .ok none
  | some (hours, minutes) =>
    match Numeral.word? 32 hours, Numeral.word? 32 minutes with
    | some h, some m => if 0 ≤ m ∧ m < 60 then (secondsOf h m).map some else .ok none
    | _, _ => .ok none

/-- Reads UTC in any case, `Z`, or a sign followed by hours, a colon and minutes. -/
def read? (text : String) : Checked (Option Offset) :=
  let s := trimmed text
  if sameLetters s "utc" ∨ s = "Z" then .ok (some utc)
  else match s.toList with
    | '+' :: cs => (readParts? cs).map (·.bind ofSeconds?)
    | '-' :: cs => (readParts? cs).map (·.bind fun n => ofSeconds? (-n))
    | _ => .ok none

end Offset

end Followup
