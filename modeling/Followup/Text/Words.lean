import Followup.Text.Blank
import Followup.Text.LetterCase
import Followup.Text.Split

/-! Words and lines of a text, and the text with some of its parts replaced. -/

namespace Followup.Text

def humanized (s : String) : String :=
  lowered (String.ofList (s.toList.map fun c => if c = '_' then ' ' else c))

def capitalized (s : String) : String :=
  match s.toList with
  | [] => ""
  | c :: cs => uppered (String.singleton c) ++ lowered (String.ofList cs)

def isPunctuation (c : Char) : Bool :=
  33 ≤ c.toNat && c.toNat ≤ 126 && !c.isAlphanum

def titled (s : String) : String :=
  let rec go (first : Bool) : List Char → List String
    | [] => []
    | c :: cs =>
      if isPunctuation c || isBlank c then String.singleton c :: go true cs
      else if first then uppered (String.singleton c) :: go false cs
      else lowered (String.singleton c) :: go false cs
  String.join (go true s.toList)

def replaced (old new : List Char) : (skip : Nat) → List Char → List Char
  | _, [] => if old.isEmpty then new else []
  | skip + 1, _ :: cs => replaced old new skip cs
  | 0, c :: cs =>
    if old.isEmpty then new ++ c :: replaced old new 0 cs
    else if old.isPrefixOf (c :: cs) then new ++ replaced old new (old.length - 1) cs
    else c :: replaced old new 0 cs

def linesOf (s : String) : List String :=
  let pieces := split '\n' s.toList
  let pieces := if pieces.getLast? = some [] then pieces.dropLast else pieces
  pieces.map fun l => String.ofList (if l.getLast? = some '\x0d' then l.dropLast else l)

def wordsOf (cs : List Char) : List (List Char) :=
  (split ' ' (cs.map fun c => if isBlank c then ' ' else c)).filter (!·.isEmpty)

def splitAtText (sep : List Char) : (skip : Nat) → List Char → List (List Char)
  | _, [] => [[]]
  | skip + 1, _ :: cs => splitAtText sep skip cs
  | 0, c :: cs =>
    if sep.isPrefixOf (c :: cs) then [] :: splitAtText sep (sep.length - 1) cs
    else match splitAtText sep 0 cs with
      | [] => [[c]]
      | piece :: pieces => (c :: piece) :: pieces

end Followup.Text
