import Followup.Calendar.Stamp

/-! Facts: the typed values that rules compare and that they put out. -/

namespace Followup

inductive FactType where
  | string | boolean | integer | timestamp
deriving DecidableEq

namespace FactType

def name : FactType → String
  | string => "string" | boolean => "boolean" | integer => "integer" | timestamp => "timestamp"

def ofName? (name : String) : Option FactType :=
  [string, boolean, integer, timestamp].find? (·.name == name)

end FactType

inductive Fact where
  | bool (b : Bool)
  | int (n : Int)
  | stamp (t : Instant)
  | text (s : String)
deriving DecidableEq

namespace Fact

def type : Fact → FactType
  | bool _ => .boolean
  | int _ => .integer
  | stamp _ => .timestamp
  | text _ => .string

def text? : Fact → Option String
  | text s => some s
  | _ => none

def isOrdered : Fact → Bool
  | int _ | stamp _ => true
  | _ => false

def compare? : Fact → Fact → Option Ordering
  | int a, int b => some (compare a b)
  | stamp a, stamp b => some (if a < b then .lt else if a = b then .eq else .gt)
  | _, _ => none

def write : Fact → String
  | bool b => if b then "true" else "false"
  | int n => toString n
  | stamp t => Stamp.writeWithOffset t
  | text s => s

end Fact

end Followup
