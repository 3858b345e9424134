import Followup.Text.Decimal
import Followup.Text.LetterCase
import Followup.Text.Numeral

/-! The values that a template works with, their order, and the text that each one prints as. What
is not there is a value as well, and prints as nothing. -/

namespace Followup.Template

open Text

inductive Value where
  | undefined
  | none
  | truth (b : Bool)
  | whole (n : Int)
  | decimal (x : Float)
  | text (s : String)
  | list (items : List Value)
  | map (entries : List (Value × Value))

namespace Value

def quotedChar (c : Char) : List Char :=
  match c with
  | '"' => ['\\', '"']
  | '\\' => ['\\', '\\']
  | '\n' => ['\\', 'n']
  | '\x0d' => ['\\', 'r']
  | '\t' => ['\\', 't']
  | '\x00' => ['\\', '0']
  | c =>
    if c.toNat < 32 ∨ c.toNat = 127 then
      '\\' :: 'u' :: '\x7b' :: (Nat.toDigits 16 c.toNat ++ ['\x7d'])
    else [c]

def quoted (s : String) : String := "\"" ++ String.ofList (s.toList.flatMap quotedChar) ++ "\""

mutual

def writeInner : Value → String
  | undefined => "undefined"
  | none => "None"
  | truth b => if b then "True" else "False"
  | whole n => toString n
  | decimal x => Decimal.write x
  | text s => quoted s
  | list items => "[" ++ writeItems items ++ "]"
  | map entries => "\x7b" ++ writeEntries entries ++ "\x7d"

def writeItems : List Value → String
  | [] => ""
  | [v] => writeInner v
  | v :: vs => writeInner v ++ ", " ++ writeItems vs

def writeEntries : List (Value × Value) → String
  | [] => ""
  | [(k, v)] => writeInner k ++ ": " ++ writeInner v
  | (k, v) :: es => writeInner k ++ ": " ++ writeInner v ++ ", " ++ writeEntries es

end

def write : Value → String
  | undefined => ""
  | text s => s
  | v => v.writeInner

def holds : Value → Bool
  | undefined | none => false
  | truth b => b
  | whole n => n ≠ 0
  | decimal x => x != 0
  | text s => !s.isEmpty
  | list items => !items.isEmpty
  | map entries => !entries.isEmpty

def rank : Value → Nat
  | undefined => 0
  | none => 1
  | truth _ => 2
  | whole _ | decimal _ => 3
  | text _ => 4
  | list _ => 5
  | map _ => 6

def whole? : Value → Option Int
  | whole n => some n
  | truth b => some (if b then 1 else 0)
  | _ => Option.none

def float? : Value → Option Float
  | decimal x => some x
  | v => v.whole?.map Float.ofInt

def compareFloat (x y : Float) : Ordering :=
  if x < y then .lt else if x == y then .eq else .gt

mutual

def compare : Value → Value → Ordering
  | whole a, whole b => Ord.compare a b
  | truth a, truth b => Ord.compare a b
  | whole a, decimal b => compareFloat (Float.ofInt a) b
  | decimal a, whole b => compareFloat a (Float.ofInt b)
  | decimal a, decimal b => compareFloat a b
  | text a, text b => if a < b then .lt else if a = b then .eq else .gt
  | list a, list b => compareItems a b
  | map a, map b => compareEntries a b
  | a, b => Ord.compare a.rank b.rank

def compareItems : List Value → List Value → Ordering
  | [], [] => .eq
  | [], _ :: _ => .lt
  | _ :: _, [] => .gt
  | a :: as, b :: bs => (compare a b).then (compareItems as bs)

def compareEntries : List (Value × Value) → List (Value × Value) → Ordering
  | [], [] => .eq
  | [], _ :: _ => .lt
  | _ :: _, [] => .gt
  | (k, a) :: as, (l, b) :: bs => ((compare k l).then (compare a b)).then (compareEntries as bs)

end

/-- Equality holds across kinds where truth values and numbers meet. -/
def same (a b : Value) : Bool :=
  match a, b with
  | truth _, whole _ | whole _, truth _ => a.whole? == b.whole?
  | truth _, decimal _ | decimal _, truth _ =>
    match a.float?, b.float? with
    | some x, some y => x == y
    | _, _ => false
  | _, _ => a.compare b == .eq

def insertEntry (k v : Value) : List (Value × Value) → List (Value × Value)
  | [] => [(k, v)]
  | (l, w) :: es =>
    match compare k l with
    | .lt => (k, v) :: (l, w) :: es
    | .eq => (l, v) :: es
    | .gt => (l, w) :: insertEntry k v es

def mapOf (entries : List (Value × Value)) : Value :=
  map (entries.foldl (fun es (k, v) => insertEntry k v es) [])

def record (fields : List (String × Value)) : Value :=
  mapOf (fields.map fun (k, v) => (text k, v))

def lookup (k : Value) (entries : List (Value × Value)) : Value :=
  match entries.find? fun (l, _) => k.compare l == .eq with
  | some (_, v) => v
  | Option.none => undefined

def attribute? (v : Value) (name : String) : Option Value :=
  match v with
  | undefined => Option.none
  | map entries => some (lookup (text name) entries)
  | _ => some undefined

def place? (n : Int) (size : Nat) : Option Nat :=
  if 0 ≤ n then some n.toNat
  else if n.natAbs ≤ size then some (size - n.natAbs) else Option.none

def char (c : Char) : Value := text (String.singleton c)

def item? (v key : Value) : Option Value :=
  match v, key with
  | undefined, _ => Option.none
  | map entries, k => some (lookup k entries)
  | list items, whole n => some (((place? n items.length).bind (items[·]?)).getD undefined)
  | text s, whole n =>
    some ((((place? n s.length).bind (s.toList[·]?)).map char).getD undefined)
  | _, _ => some undefined

def items? : Value → Option (List Value)
  | undefined | none => some []
  | list items => some items
  | map entries => some (entries.map Prod.fst)
  | text s => some (s.toList.map char)
  | _ => Option.none

def length? : Value → Option Nat
  | list items => some items.length
  | map entries => some entries.length
  | text s => some s.length
  | _ => Option.none

def contains (part : List Char) : List Char → Bool
  | [] => part.isEmpty
  | c :: cs => part.isPrefixOf (c :: cs) || contains part cs

def isIn? (v container : Value) : Option Bool :=
  match container with
  | undefined | none => some false
  | text s => some (contains v.write.toList s.toList)
  | list items => some (items.any v.same)
  | map entries => some (entries.any fun (k, _) => v.compare k == .eq)
  | _ => Option.none

end Value

end Followup.Template
