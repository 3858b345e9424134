import Followup.Text.LetterCase.Table

/-! The case of letters in whole texts. A capital sigma at the end of a word has a lower case of
its own, so the lower case of a text is more than that of its characters. -/

namespace Followup.Text

def inRanges (n : Nat) : List (Nat × Nat) → Bool
  | [] => false
  | (first, last) :: rest => first ≤ n && (n ≤ last || inRanges n rest)

def isCased (c : Char) : Bool := inRanges c.toNat casedRanges

def isIgnorable (c : Char) : Bool := inRanges c.toNat ignorableRanges

def lowerChar (c : Char) : List Char :=
  if c = 'İ' then ['i', Char.ofNat 0x307] else [Char.ofNat (CaseRun.apply CaseRun.toLower c.toNat)]

def reachesCased (cs : List Char) : Bool :=
  match cs.dropWhile isIgnorable with
  | [] => false
  | c :: _ => isCased c

/-- The lower case of what follows the characters `before`, which stand in reverse. -/
def lowerAfter (before : List Char) : List Char → List Char
  | [] => []
  | c :: cs =>
    if c = 'Σ' ∧ reachesCased before ∧ ¬ reachesCased cs then 'ς' :: lowerAfter (c :: before) cs
    else lowerChar c ++ lowerAfter (c :: before) cs

def lowered (s : String) : String := String.ofList (lowerAfter [] s.toList)

def upperChar (c : Char) : List Char :=
  match longUpper.lookup c.toNat with
  | some ns => ns.map Char.ofNat
  | none => [Char.ofNat (CaseRun.apply CaseRun.toUpper c.toNat)]

def uppered (s : String) : String := String.ofList (s.toList.flatMap upperChar)

end Followup.Text
