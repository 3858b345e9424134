import Followup.Template.Tree
import Followup.Text.Words

/-! The operations of templates on values: operators, filters, tests and functions. Each one gives
nothing where it does not apply to its values. -/

namespace Followup.Template

open Text

namespace Value

def wholeOf? (n : Int) : Option Value := if Numeral.fits 128 n then some (whole n) else Option.none

def arithmetic? (onWhole : Int → Int → Option Int) (onFloat : Float → Float → Float)
    (a b : Value) : Option Value :=
  match a.whole?, b.whole? with
  | some m, some n => (onWhole m n).bind wholeOf?
  | _, _ => do return decimal (onFloat (← a.float?) (← b.float?))

/-- What is left of a division whose quotient is cut towards zero. It has the sign of the first
number and is exact. -/
def remainderFloat (x y : Float) : Float :=
  if !x.isFinite || y.isNaN || y == 0 then 0 / 0
  else if y.isInf then x
  else
    let a := Decimal.Binary.ofFloat x
    let b := Decimal.Binary.ofFloat y
    let power := min a.power b.power
    let units (c : Decimal.Binary) : Nat := c.mantissa * Nat.pow 2 (c.power - power).toNat
    let left := (Float.ofNat (units a % units b)).scaleB power
    if x < 0 then -left else left

def quotientFloat (x y : Float) : Float :=
  let q := if x / y < 0 then (x / y).ceil else (x / y).floor
  if remainderFloat x y < 0 then (if 0 < y then q - 1 else q + 1) else q

def repeat? (v : Value) (n : Int) : Option Value :=
  match v with
  | text s => if n < 0 then Option.none else some (text (String.join (List.replicate n.toNat s)))
  | list l => if n < 0 then Option.none else some (list (List.replicate n.toNat l).flatten)
  | _ => Option.none

end Value

namespace Operator

open Value

def result? (op : Operator) (a b : Value) : Option Value :=
  match op with
  | add =>
    match a, b with
    | .text s, .text t => some (.text (s ++ t))
    | .list l, .list m => some (.list (l ++ m))
    | _, _ => arithmetic? (fun m n => some (m + n)) (· + ·) a b
  | sub => arithmetic? (fun m n => some (m - n)) (· - ·) a b
  | mul =>
    match a, b with
    | .text _, .whole n | .list _, .whole n => repeat? a n
    | .whole n, .text _ | .whole n, .list _ => repeat? b n
    | _, _ => arithmetic? (fun m n => some (m * n)) (· * ·) a b
  | div => do return .decimal ((← a.float?) / (← b.float?))
  | floorDiv =>
    arithmetic? (fun m n => if n = 0 then none else some (m / n)) quotientFloat a b
  | rem =>
    arithmetic? (fun m n => if n = 0 then none else some (m % n)) remainderFloat a b
  | pow => arithmetic? (fun m n => if n < 0 ∨ 1024 < n then none else some (Int.pow m n.toNat)) Float.pow a b
  | join => some (.text (a.write ++ b.write))
  | eq => some (.truth (a.same b))
  | ne => some (.truth (!a.same b))
  | lt => some (.truth (a.compare b == .lt))
  | le => some (.truth (a.compare b != .gt))
  | gt => some (.truth (a.compare b == .gt))
  | ge => some (.truth (a.compare b != .lt))
  | isIn => (a.isIn? b).map .truth

end Operator

namespace Value

def negate? : Value → Option Value
  | whole n => wholeOf? (-n)
  | decimal x => some (decimal (-x))
  | _ => Option.none

def sliceBound? (size given : Nat) : Value → Option Nat
  | none | undefined => some given
  | whole n => some (if 0 ≤ n then min n.toNat size else size - n.natAbs)
  | _ => Option.none

def everyNth {α : Type} (step : Nat) (items : List α) : List α :=
  (items.zipIdx.filter fun (_, i) => i % step = 0).map Prod.fst

def slice? (v start stop step : Value) : Option Value := do
  let step ← match step with
    | none | undefined => some 1
    | whole n => if 0 < n then some n.toNat else Option.none
    | _ => Option.none
  let cut {α : Type} (items : List α) : Option (List α) := do
    let first ← sliceBound? items.length 0 start
    let last ← sliceBound? items.length items.length stop
    return everyNth step ((items.take last).drop first)
  match v with
  | none | undefined => return list []
  | text s => return text (String.ofList (← cut s.toList))
  | list items => return list (← cut items)
  | _ => failure

def escapedChar (c : Char) : String :=
  match c with
  | '<' => "&lt;"
  | '>' => "&gt;"
  | '&' => "&amp;"
  | '"' => "&quot;"
  | '\'' => "&#x27;"
  | '/' => "&#x2f;"
  | c => String.singleton c

def escaped (s : String) : String := String.join (s.toList.map escapedChar)

def ofChars (cs : List Char) : Value := text (String.ofList cs)

def looseKey : Value → Value
  | text s => text (lowered s)
  | v => v

def sorted (l : List Value) : List Value :=
  l.mergeSort fun a b => a.looseKey.compare b.looseKey != .gt

def distinct (l : List Value) : List Value :=
  l.foldl (fun kept v => if kept.any (·.looseKey.same v.looseKey) then kept else kept ++ [v]) []

def toWhole? : Value → Option Value
  | none | undefined => some (whole 0)
  | truth b => some (whole (if b then 1 else 0))
  | whole n => some (whole n)
  | decimal x => some (whole (if x < 0 then -((-x).floor.toUInt64.toNat : Int) else x.floor.toUInt64.toNat))
  | text s => (Numeral.int? s.toList).bind wholeOf?
  | _ => Option.none

def trimmedOf (marks : List Char) (cs : List Char) : List Char :=
  ((cs.dropWhile marks.contains).reverse.dropWhile marks.contains).reverse

end Value

namespace Filter

open Value

def onText? : String → Option (String → Value)
  | "humanize" => some fun s => text (humanized s)
  | "upper" => some fun s => text (uppered s)
  | "lower" => some fun s => text (lowered s)
  | "title" => some fun s => text (titled s)
  | "capitalize" => some fun s => text (capitalized s)
  | "trim" => some fun s => text (trimmed s)
  | "escape" | "e" => some fun s => text (escaped s)
  | "safe" | "string" => some text
  | "lines" => some fun s => list ((linesOf s).map text)
  | "split" => some fun s => list ((wordsOf s.toList).map ofChars)
  | _ => Option.none

def plain? (name : String) (v : Value) : Option Value :=
  match onText? name with
  | some f => some (f v.write)
  | Option.none =>
    match name with
    | "length" | "count" => v.length?.map fun n => whole n
    | "default" | "d" => some (match v with
      | undefined => text ""
      | v => v)
    | "join" => (v.items?).map fun l => text (String.join (l.map write))
    | "first" => match v with
      | text _ | list _ | map _ => v.items?.map fun l => l.head?.getD undefined
      | _ => Option.none
    | "last" => match v with
      | text _ | list _ => v.items?.map fun l => l.getLast?.getD undefined
      | _ => Option.none
    | "reverse" => match v with
      | text s => some (ofChars s.toList.reverse)
      | list l => some (list l.reverse)
      | _ => Option.none
    | "list" => v.items?.map list
    | "sort" => v.items?.map fun l => list (sorted l)
    | "unique" => v.items?.map fun l => list (distinct l)
    | "min" => v.items?.map fun l => (l.mergeSort fun a b => a.compare b != .gt).head?.getD undefined
    | "max" => v.items?.map fun l =>
      (l.mergeSort fun a b => a.compare b != .gt).getLast?.getD undefined
    | "sum" => do (← v.items?).foldlM (fun a b => Operator.add.result? a b) (whole 0)
    | "bool" => some (truth v.holds)
    | "int" => v.toWhole?
    | "float" => v.float?.map decimal
    | "abs" => match v with
      | whole n => wholeOf? n.natAbs
      | decimal x => some (decimal x.abs)
      | _ => Option.none
    | "round" => match v with
      | whole n => some (whole n)
      | decimal x => some (decimal x.round)
      | _ => Option.none
    | "items" | "dictsort" => match v with
      | map es => some (list (es.map fun (k, w) => list [k, w]))
      | _ => Option.none
    | _ => Option.none

def result? (name : String) (v : Value) (args : List Value) : Option Value :=
  match name, args with
  | _, [] => plain? name v
  | "default", [w] | "d", [w] => some (match v with
    | undefined => w
    | v => v)
  | "default", [w, strict] | "d", [w, strict] =>
    some (if strict.holds && !v.holds then w else match v with
      | undefined => w
      | v => v)
  | "join", [sep] => (v.items?).map fun l => text (sep.write.intercalate (l.map write))
  | "replace", [old, new] =>
    some (ofChars (replaced old.write.toList new.write.toList 0 v.write.toList))
  | "trim", [marks] => some (ofChars (trimmedOf marks.write.toList v.write.toList))
  | "split", [sep] =>
    if sep.write.isEmpty then Option.none
    else some (list ((splitAtText sep.write.toList 0 v.write.toList).map ofChars))
  | "attr", [key] => v.item? key
  | "map", [f] => do return list (← (← v.items?).mapM (plain? f.write))
  | _, _ => Option.none

end Filter

namespace Test

open Value

def plain? (name : String) (v : Value) : Option Bool :=
  match name with
  | "defined" => some (match v with
    | undefined => false
    | _ => true)
  | "undefined" => some (match v with
    | undefined => true
    | _ => false)
  | "none" => some (v.rank == 1)
  | "boolean" => some (v.rank == 2)
  | "number" => some (v.rank == 3)
  | "integer" => some (match v with
    | whole _ => true
    | _ => false)
  | "float" => some (match v with
    | decimal _ => true
    | _ => false)
  | "string" => some (v.rank == 4)
  | "sequence" => some (v.rank == 5)
  | "mapping" => some (v.rank == 6)
  | "iterable" => some (4 ≤ v.rank)
  | "true" => some (match v with
    | truth b => b
    | _ => false)
  | "false" => some (match v with
    | truth b => !b
    | _ => false)
  | "odd" => some (match v with
    | whole n => n % 2 = 1
    | _ => false)
  | "even" => some (match v with
    | whole n => n % 2 = 0
    | _ => false)
  | "lower" => some (v.write == lowered v.write)
  | "upper" => some (v.write == uppered v.write)
  | "safe" | "escaped" => some false
  | _ => Option.none

def result? (name : String) (v : Value) (args : List Value) : Option Bool :=
  match name, args with
  | _, [] => plain? name v
  | "eq", [w] | "equalto", [w] | "sameas", [w] => some (v.same w)
  | "ne", [w] => some (!v.same w)
  | "lt", [w] | "lessthan", [w] => some (v.compare w == .lt)
  | "le", [w] => some (v.compare w != .gt)
  | "gt", [w] | "greaterthan", [w] => some (v.compare w == .gt)
  | "ge", [w] => some (v.compare w != .lt)
  | "in", [w] => v.isIn? w
  | "divisibleby", [whole n] => some (match v with
    | whole m => n ≠ 0 && m % n = 0
    | _ => false)
  | "startingwith", [w] => some (w.write.toList.isPrefixOf v.write.toList)
  | "endingwith", [w] => some (w.write.toList.isSuffixOf v.write.toList)
  | _, _ => Option.none

end Test

def call? (name : String) (args : List Value) : Option Value :=
  let numbers (start count : Int) (step : Int) : Value :=
    .list ((List.range count.toNat).map fun (i : Nat) => .whole (start + i * step))
  match name, args with
  | "range", [.whole stop] => if stop ≤ 10000 then some (numbers 0 stop 1) else none
  | "range", [.whole start, .whole stop] =>
    if stop - start ≤ 10000 then some (numbers start (stop - start) 1) else none
  | "range", [.whole start, .whole stop, .whole step] =>
    let count := (stop - start + step - 1) / step
    if 0 < step ∧ count ≤ 10000 then some (numbers start count step) else none
  | "dict", [] => some (.map [])
  | "dict", [.map es] => some (.map es)
  | _, _ => none

end Followup.Template
