import Followup.Text.Split
import Followup.Text.Numeral

/-! Web addresses: who is asked, and for which path. Characters that may not stand in a path are
written as percent and two digits for each of their bytes. -/

namespace Followup

open Text

structure Address where
  authority : String
  path : String
deriving DecidableEq

namespace Address

def isSlash (c : Char) : Bool := c == '/' || c == '\\'

def escapedByte (b : UInt8) : List Char :=
  let digit (n : Nat) : Char := ("0123456789ABCDEF".toList)[n]?.getD '0'
  ['%', digit (b.toNat / 16), digit (b.toNat % 16)]

def escaped (marks : List Char) (cs : List Char) : List Char :=
  cs.flatMap fun c =>
    if c.toNat ≤ 32 ∨ 127 ≤ c.toNat ∨ marks.contains c then
      (String.singleton c).toUTF8.toList.flatMap escapedByte
    else [c]

def pathMarks : List Char := "\"#<>?\x60\x7b\x7d".toList

def queryMarks : List Char := "\"#<>'".toList

def isDots (count : Nat) (part : List Char) : Bool :=
  go count (String.ofList part).toLower.toList
where
  go : Nat → List Char → Bool
    | 0, cs => cs.isEmpty
    | n + 1, '.' :: cs => go n cs
    | n + 1, '%' :: '2' :: 'e' :: cs => go n cs
    | _ + 1, _ => false

/-- Follows the parts of a path from a folder, whose parts stand in reverse. -/
def walk : (folder : List (List Char)) → List (List Char) → List (List Char)
  | folder, [] => folder
  | folder, [part] =>
    if isDots 2 part then [] :: folder.drop 1
    else if isDots 1 part then [] :: folder
    else escaped pathMarks part :: folder
  | folder, part :: parts =>
    if isDots 2 part then walk (folder.drop 1) parts
    else if isDots 1 part then walk folder parts
    else walk (escaped pathMarks part :: folder) parts

def normalPath (cs : List Char) : List Char :=
  let parts := split '/' (cs.map fun c => if c = '\\' then '/' else c)
  (walk [] (if cs.head?.any isSlash then parts.drop 1 else parts)).reverse.flatMap ('/' :: ·)

def port? (digits : List Char) : Option Nat :=
  if digits.isEmpty then some 0 else (Numeral.nat? 10 digits).filter (· < 65536)

def isAuthority (cs : List Char) : Bool :=
  let host := cs.takeWhile (· ≠ ':')
  let rest := cs.drop host.length
  !host.isEmpty && host.all (fun c => 32 < c.toNat && !"%<>^|\"\x60\x7b\x7d[]".toList.contains c) &&
    (rest.isEmpty || (port? (rest.drop 1)).isSome)

def scheme? (cs : List Char) : Option (String × List Char) :=
  (cut? ':' cs).map fun (scheme, rest) => ((String.ofList scheme).toLower, rest)

def read? (text : String) : Option Address := do
  let isOuter (c : Char) : Bool := c.toNat ≤ 32
  let cs := ((text.toList.dropWhile isOuter).reverse.dropWhile isOuter).reverse
  let cs := cs.filter fun c => c ≠ '\t' && c ≠ '\n' && c ≠ '\x0d'
  let (scheme, rest) ← scheme? cs
  if scheme ≠ "http" ∧ scheme ≠ "https" then none
  let rest := (rest.dropWhile isSlash).takeWhile (· ≠ '#')
  let authority := rest.takeWhile fun c => !isSlash c && c ≠ '?'
  if isAuthority authority then
    let (path, query) := match cut? '?' (rest.drop authority.length) with
      | some (path, query) => (path, '?' :: escaped queryMarks query)
      | none => (rest.drop authority.length, [])
    return ⟨String.ofList authority, String.ofList (normalPath path ++ query)⟩
  else none

end Address

end Followup
