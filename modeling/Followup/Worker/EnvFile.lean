import Followup.Settings
import Followup.Text.Blank
import Followup.Text.LetterCase

/-! Files that set variables, one `NAME=value` a line. Values may be quoted, over several lines as
well, and may refer to variables; what follows a blank and a hash sign is a comment. A variable
that is set already stays as it is, and reading ends at the first line that makes no sense. -/

namespace Followup.Worker.EnvFile

open Text Settings

inductive Mode where
  | plain
  | gap
  | escape (quote : Option Char)
  | quoted (quote : Char)
deriving DecidableEq

def Mode.next : Mode → Char → Mode
  | .escape none, _ => .plain
  | .escape (some q), _ => .quoted q
  | .quoted q, c => if c = '\\' then .escape (some q) else if c = q then .plain else .quoted q
  | mode, c =>
    if c = '\\' then .escape none
    else if c = '"' ∨ c = '\'' then .quoted c
    else if mode = .plain ∧ isBlank c ∧ c ≠ '\n' ∧ c ≠ '\x0d' then .gap
    else .plain

/-- The characters of an entry up to the line break or comment that ends it, and what follows its
last line. Nothing, where the text ends before the entry does. -/
def statement? (mode : Mode) : List Char → Option (List Char × List Char)
  | [] => if mode = .plain then some ([], []) else none
  | c :: cs =>
    if mode = .gap ∧ c = '#' then some ([], (cs.dropWhile (· ≠ '\n')).drop 1)
    else
      let next := mode.next c
      if c = '\n' ∧ next = .plain then some ([], cs)
      else (statement? next cs).map fun (text, rest) => (c :: text, rest)

def isKeyStart (c : Char) : Bool := c.isAlpha || c == '_'

def isKeyPart (c : Char) : Bool := c.isAlphanum || c == '_' || c == '.'

def key? (cs : List Char) : Option (List Char × List Char) :=
  if cs.head?.any isKeyStart then
    let key := cs.takeWhile isKeyPart
    some (key, trimLeft (cs.drop key.length))
  else none

def equals? : List Char → Option (List Char)
  | '=' :: cs => some cs
  | _ => none

def assignment? (cs : List Char) : Option (String × List Char) := do
  let (key, rest) ← key? cs
  let (key, rest) ← if key = "export".toList ∧ (equals? rest).isNone then key? rest
    else some (key, rest)
  return (String.ofList key, trimLeft (← equals? rest))

inductive Place where
  | free (isQuoted : Bool)
  | escaped (isQuoted : Bool)
  | singleQuoted
  | name (isQuoted : Bool) (read : List Char)
  | braced (isQuoted : Bool) (read : List Char)
  | behind

def Place.isEnd : Place → Bool
  | free isQuoted | escaped isQuoted | name isQuoted _ => !isQuoted
  | singleQuoted | braced .. => false
  | behind => true

def valueOf (env : Environment) (name : List Char) : List Char :=
  ((env.lookup (String.ofList name)).getD "").toList

def escaped? : Char → Option Char
  | 'n' => some '\n'
  | c => if ['\\', '\'', '"', '$', ' '].contains c then some c else none

/-- The value from a place on, with the variables of the surroundings in the place of references.
Names outside braces are of ASCII letters and digits. -/
def value? (env : Environment) : Place → List Char → Option (List Char)
  | place, [] =>
    if place.isEnd then
      match place with
      | .name _ name => some (valueOf env name)
      | _ => some []
    else none
  | .behind, c :: cs =>
    if c = ' ' ∨ c = '\t' then value? env .behind cs else if c = '#' then some [] else none
  | .escaped q, c :: cs => do return (← escaped? c) :: (← value? env (.free q) cs)
  | .singleQuoted, c :: cs =>
    if c = '\'' then value? env (.free false) cs else (value? env .singleQuoted cs).map (c :: ·)
  | .name q read, c :: cs =>
    if c.isAlphanum then value? env (.name q (read ++ [c])) cs
    else if c = '\x7b' ∧ read.isEmpty then value? env (.braced q []) cs
    else if c = '$' then (value? env (.name q []) cs).map (valueOf env read ++ ·)
    else (value? env (.free q) cs).map fun rest => valueOf env read ++ c :: rest
  | .braced q read, c :: cs =>
    if c = '\x7d' then (value? env (.free q) cs).map (valueOf env read ++ ·)
    else value? env (.braced q (read ++ [c])) cs
  | .free q, c :: cs =>
    if c = '$' then value? env (.name q []) cs
    else if c = '\\' then value? env (.escaped q) cs
    else if c = '"' then value? env (.free !q) cs
    else if c = '\'' ∧ ¬ q then value? env .singleQuoted cs
    else if (c = ' ' ∨ c = '\t') ∧ ¬ q then value? env .behind cs
    else (value? env (.free q) cs).map (c :: ·)

def apply (env : Environment) (entry : List Char) : Option Environment :=
  match trim entry with
  | [] => some env
  | '#' :: _ => some env
  | cs => do
    let (key, text) ← assignment? cs
    let value ← if text.head?.all (· = '#') then some [] else value? env (.free false) text
    return if (env.lookup key).isSome then env else env ++ [(key, String.ofList value)]

def isComment (cs : List Char) : Bool :=
  (trimLeft (cs.takeWhile (· ≠ '\n'))).head? == some '#'

def loadFrom : (steps : Nat) → Environment → List Char → Environment
  | 0, env, _ | _, env, [] => env
  | steps + 1, env, cs =>
    if isComment cs then loadFrom steps env ((cs.dropWhile (· ≠ '\n')).drop 1)
    else match statement? .plain cs with
      | none => env
      | some (text, rest) =>
        match apply env text with
        | none => env
        | some env => loadFrom steps env rest

def load (env : Environment) (text : String) : Environment :=
  let cs := text.toList
  let cs := if cs.head? = some '\ufeff' then cs.drop 1 else cs
  loadFrom (cs.length + 1) env cs

end Followup.Worker.EnvFile
