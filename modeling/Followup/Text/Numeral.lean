/-! Whole numbers in ASCII digits. A signed numeral is one optional sign and at least one digit,
and counts only when its value fits the width that the reader asks for. -/

namespace Followup.Text.Numeral

def digit? (base : Nat) (c : Char) : Option Nat :=
  let n := c.toNat
  let v? :=
    if 48 ≤ n ∧ n ≤ 57 then some (n - 48)
    else if 97 ≤ n ∧ n ≤ 102 then some (n - 87)
    else if 65 ≤ n ∧ n ≤ 70 then some (n - 55)
    else none
  v?.filter (· < base)

def isDigit (c : Char) : Bool := 48 ≤ c.toNat && c.toNat ≤ 57

def natFrom? (base : Nat) : Nat → List Char → Option Nat
  | acc, [] => some acc
  | acc, c :: cs => (digit? base c).bind fun d => natFrom? base (acc * base + d) cs

def nat? (base : Nat) (cs : List Char) : Option Nat :=
  if cs.isEmpty then none else natFrom? base 0 cs

def int? : List Char → Option Int
  | '+' :: cs => (nat? 10 cs).map Int.ofNat
  | '-' :: cs => (nat? 10 cs).map fun n => -Int.ofNat n
  | cs => (nat? 10 cs).map Int.ofNat

def fits (bits : Nat) (n : Int) : Bool :=
  -(Nat.pow 2 (bits - 1) : Int) ≤ n && n < (Nat.pow 2 (bits - 1) : Int)

def word? (bits : Nat) (cs : List Char) : Option Int := (int? cs).filter (fits bits)

/-- Whether the double-precision number nearest to `digits * 10 ^ power` is finite: the value stays
below `2 ^ 1024` less half a unit of the last place. -/
def isFinite (digits : Nat) (power : Int) : Bool :=
  let size : Int := (toString digits).length + power
  if digits = 0 ∨ size < 300 then true
  else if 320 < size then false
  else
    digits * Nat.pow 10 power.toNat <
      (Nat.pow 2 1024 - Nat.pow 2 970) * Nat.pow 10 (-power).toNat

def padded (width n : Nat) : String :=
  let s := toString n
  "".pushn '0' (width - s.length) ++ s

end Followup.Text.Numeral
