import Followup.Text.Numeral

/-! Identifiers of cases: numbers of 128 bits, written as thirty-two hexadecimal digits in five
groups. Reading also takes the digits without hyphens, and the groups in braces or behind
`urn:uuid:`. -/

namespace Followup

open Text

structure CaseId where
  value : Nat
deriving DecidableEq

namespace CaseId

def none : CaseId := ⟨0⟩

def hexDigit (n : Nat) : Char := ("0123456789abcdef".toList)[n % 16]?.getD '0'

def ofRandom (bits : Nat) : CaseId :=
  let high := bits / Nat.pow 2 80 % Nat.pow 2 48
  let middle := bits / Nat.pow 2 64 % Nat.pow 2 12
  let low := bits % Nat.pow 2 62
  ⟨((high * Nat.pow 2 4 + 4) * Nat.pow 2 12 + middle) * Nat.pow 2 64 + Nat.pow 2 63 + low⟩

def hexDigits : (count : Nat) → Nat → List Char → List Char
  | 0, _, rest => rest
  | count + 1, n, rest => hexDigits count (n / 16) (hexDigit n :: rest)

def grouped (digits : List Char) : List Char :=
  let part (start size : Nat) : List Char := (digits.drop start).take size
  part 0 8 ++ '-' :: part 8 4 ++ '-' :: part 12 4 ++ '-' :: part 16 4 ++ '-' :: part 20 12

def write (id : CaseId) : String := String.ofList (grouped (hexDigits 32 id.value []))

def readDigits? (digits : List Char) : Option CaseId :=
  if digits.length = 32 then (Numeral.nat? 16 digits).map CaseId.mk else Option.none

def readGroups? (cs : List Char) : Option CaseId :=
  let digits := cs.filter (· ≠ '-')
  if cs.length = 36 ∧ grouped digits = cs then readDigits? digits else Option.none

def read? (text : String) : Option CaseId :=
  let cs := text.toList
  match cs.length with
  | 32 => readDigits? cs
  | 36 => readGroups? cs
  | 38 =>
    if cs.head? = some '\x7b' ∧ cs.getLast? = some '\x7d' then readGroups? (cs.drop 1).dropLast
    else Option.none
  | 45 => if cs.take 9 = "urn:uuid:".toList then readGroups? (cs.drop 9) else Option.none
  | _ => Option.none

end CaseId

end Followup
