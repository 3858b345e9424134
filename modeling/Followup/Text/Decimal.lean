/-! Binary fractions in decimal digits: the fewest digits that read back to the same number, and of
those the nearest to it, without an exponent. -/

namespace Followup.Text.Decimal

/-- The magnitude of a finite number as `mantissa * 2 ^ power`. -/
structure Binary where
  mantissa : Nat
  power : Int
deriving DecidableEq

def Binary.ofFloat (x : Float) : Binary :=
  let bits := x.toBits.toNat
  let field : Nat := bits / Nat.pow 2 52 % 2048
  let fraction : Nat := bits % Nat.pow 2 52
  if field = 0 then ⟨fraction, -1074⟩ else ⟨Nat.pow 2 52 + fraction, (field : Int) - 1075⟩

structure Ratio where
  num : Nat
  den : Nat

namespace Ratio

def scaled (n base : Nat) (power : Int) : Ratio :=
  if 0 ≤ power then ⟨n * Nat.pow base power.toNat, 1⟩ else ⟨n, Nat.pow base power.natAbs⟩

def le (a b : Ratio) : Bool := a.num * b.den ≤ b.num * a.den

def lt (a b : Ratio) : Bool := !b.le a

def quotient (a b : Ratio) : Nat := a.num * b.den / (a.den * b.num)

end Ratio

structure Digits where
  digits : Nat
  power : Int
deriving DecidableEq

def Digits.ratio (d : Digits) : Ratio := .scaled d.digits 10 d.power

/-- Whether a decimal reads back to the number: it lies between the middles to the neighbours, which
belong to the even mantissa. -/
def Binary.reads (b : Binary) (d : Digits) : Bool :=
  let below := if b.mantissa = Nat.pow 2 52 ∧ -1074 < b.power then 1 else 2
  let low := Ratio.scaled (4 * b.mantissa - below) 2 (b.power - 2)
  let high := Ratio.scaled (4 * b.mantissa + 2) 2 (b.power - 2)
  if b.mantissa % 2 = 0 then low.le d.ratio && d.ratio.le high
  else low.lt d.ratio && d.ratio.lt high

def Binary.onGrid? (b : Binary) (power : Int) : Option Digits :=
  let value := Ratio.scaled b.mantissa 2 b.power
  let lower : Digits := ⟨value.quotient (.scaled 1 10 power), power⟩
  let upper : Digits := { lower with digits := lower.digits + 1 }
  match b.reads lower, b.reads upper with
  | true, true =>
    let middle := Ratio.scaled (lower.digits * 10 + 5) 10 (power - 1)
    if value.lt middle || value.le middle && lower.digits % 2 == 0 then some lower else some upper
  | true, false => some lower
  | false, true => some upper
  | false, false => none

def Binary.search (b : Binary) : (grids : Nat) → Int → Digits
  | 0, power => ⟨0, power⟩
  | grids + 1, power => (b.onGrid? power).getD (b.search grids (power - 1))

def Binary.shortest (b : Binary) : Digits :=
  if b.mantissa = 0 then ⟨0, 0⟩
  else b.search 24 (((b.mantissa.log2 : Int) + b.power + 1) * 30103 / 100000 + 2)

def Digits.write (d : Digits) : String :=
  if 0 ≤ d.power then toString (d.digits * Nat.pow 10 d.power.toNat)
  else
    let places := d.power.natAbs
    let cs := (toString d.digits).toList
    let cs := List.replicate (places + 1 - cs.length) '0' ++ cs
    let whole := cs.take (cs.length - places)
    String.ofList (whole ++ '.' :: cs.drop whole.length)

def write (x : Float) : String :=
  let signed (s : String) : String := if x.toBits.toNat < Nat.pow 2 63 then s else "-" ++ s
  if x.isNaN then "NaN"
  else if x.isInf then signed "inf"
  else
    let s := (Binary.ofFloat x).shortest.write
    signed (if s.contains '.' then s else s ++ ".0")

end Followup.Text.Decimal
