/-! JSON values, and their text without blanks. A number that is no whole one of 64 bits has a
value of its own, which nothing here asks for. -/

namespace Followup

inductive JsonValue where
  | null
  | truth (b : Bool)
  | whole (n : Int)
  | number
  | text (s : String)
  | list (items : List JsonValue)
  | record (members : List (String × JsonValue))

namespace JsonValue

def quotedChar (c : Char) : List Char :=
  match c with
  | '"' => ['\\', '"']
  | '\\' => ['\\', '\\']
  | '\n' => ['\\', 'n']
  | '\x0d' => ['\\', 'r']
  | '\t' => ['\\', 't']
  | '\x08' => ['\\', 'b']
  | '\x0c' => ['\\', 'f']
  | c =>
    if c.toNat < 32 then
      ['\\', 'u', '0', '0', if c.toNat < 16 then '0' else '1',
        (Nat.toDigits 16 (c.toNat % 16)).headD '0']
    else [c]

def quoted (s : String) : String := "\"" ++ String.ofList (s.toList.flatMap quotedChar) ++ "\""

mutual

def write : JsonValue → String
  | null => "null"
  | truth b => if b then "true" else "false"
  | whole n => toString n
  | number => "0.0"
  | text s => quoted s
  | list items => "[" ++ writeItems items ++ "]"
  | record members => "\x7b" ++ writeMembers members ++ "\x7d"

def writeItems : List JsonValue → String
  | [] => ""
  | [v] => v.write
  | v :: vs => v.write ++ "," ++ writeItems vs

def writeMembers : List (String × JsonValue) → String
  | [] => ""
  | [(k, v)] => quoted k ++ ":" ++ v.write
  | (k, v) :: ms => quoted k ++ ":" ++ v.write ++ "," ++ writeMembers ms

end

end JsonValue

end Followup
