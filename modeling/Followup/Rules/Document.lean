import Followup.Rules.Check
import Followup.Yaml.Meaning

/-! Tables, predicates and facts written as YAML documents. -/

namespace Followup

open Yaml

abbrev FromDocument := Except RuleError

namespace Document

variable {α : Type}

def text : Node → FromDocument String
  | .scalar s => .ok s.text
  | _ => .error .unreadable

def text? : Node → FromDocument (Option String)
  | .scalar s =>
    if s.style = .quoted then .ok (some s.text)
    else match s.tag with
      | none => .ok (if s.text = "" ∨ Meaning.isNull s.text then none else some s.text)
      | some tag =>
        if tag ≠ coreTag "null" then .ok (some s.text)
        else if Meaning.isNull s.text then .ok none
        else .error .unreadable
  | .void => .ok none
  | _ => .error .unreadable

def isBlank : Node → Bool
  | .scalar s => s.style = .plain && s.text = ""
  | .void => true
  | _ => false

def entries (n : Node) : FromDocument (List (Node × Node)) :=
  match n with
  | .mapping _ es => .ok es
  | _ => if isBlank n then .ok [] else .error .unreadable

def items (n : Node) : FromDocument (List Node) :=
  match n with
  | .sequence _ ns => .ok ns
  | _ => if isBlank n then .ok [] else .error .unreadable

/-- One of a set of words, written plainly or as a tag on nothing. -/
def word (n : Node) : FromDocument String :=
  match n with
  | .scalar s =>
    match localTag? s.tag with
    | none => .ok s.text
    | some name => if s.text = "" ∨ Meaning.isNull s.text then .ok name else .error .unreadable
  | _ => .error .unreadable

/-- Columns in the order of their first mention, with the value mentioned last. -/
def columns (value : Node → FromDocument α) (n : Node) : FromDocument (Columns α) := do
  (← entries n).foldlM (fun c (k, v) => do return c.put (← text k) (← value v)) .empty

def fact (n : Node) : FromDocument Fact :=
  match n with
  | .scalar s =>
    match s.meaning with
    | .truth b => .ok (.bool b)
    | .whole n => if Text.Numeral.fits 64 n then .ok (.int n) else .error .unreadable
    | .text t =>
      match Stamp.read? t with
      | some instant => .ok (.stamp instant)
      | none => .ok (.text t)
    | _ => .error .unreadable
  | _ => .error .unreadable

structure Operators where
  equals : Option (Option Fact)
  notEquals : Option (Option (List Fact))
  greaterThan : Option (Option Fact)
  lessThan : Option (Option Fact)

namespace Operators

def none : Operators := ⟨.none, .none, .none, .none⟩

def isNull : Node → Bool
  | .scalar s => s.meaning = .null
  | .void => true
  | _ => false

def fact? (n : Node) : FromDocument (Option Fact) :=
  if isNull n then .ok .none else (fact n).map some

def facts? (n : Node) : FromDocument (Option (List Fact)) :=
  if isNull n then .ok .none
  else match n with
    | .sequence tag ns =>
      if (localTag? tag).isSome then .error .unreadable else (ns.mapM fact).map some
    | _ => (fact n).map fun f => some [f]

def set (o : Operators) (place : Nat) (n : Node) : FromDocument Operators :=
  match place with
  | 0 => if o.equals.isSome then .error .unreadable
    else do return { o with equals := some (← fact? n) }
  | 1 => if o.notEquals.isSome then .error .unreadable
    else do return { o with notEquals := some (← facts? n) }
  | 2 => if o.greaterThan.isSome then .error .unreadable
    else do return { o with greaterThan := some (← fact? n) }
  | 3 => if o.lessThan.isSome then .error .unreadable
    else do return { o with lessThan := some (← fact? n) }
  | _ => .error .unreadable

def place (key : Node) : FromDocument Nat :=
  match key with
  | .scalar s =>
    match s.meaning with
    | .text "equals" => .ok 0
    | .text "not_equals" => .ok 1
    | .text "greater_than" => .ok 2
    | .text "less_than" => .ok 3
    | .whole n => if 0 ≤ n then .ok n.toNat else .error .unreadable
    | _ => .error .unreadable
  | _ => .error .unreadable

def read (n : Node) : FromDocument Operators :=
  match n with
  | .mapping tag es =>
    if (localTag? tag).isSome then .error .unreadable
    else es.foldlM (fun o (k, v) => do o.set (← place k) v) none
  | .sequence tag ns =>
    if (localTag? tag).isSome then .error .unreadable
    else ns.zipIdx.foldlM (fun o (v, i) => o.set i v) none
  | _ => .error .unreadable

def predicates (o : Operators) : List Predicate :=
  (o.equals.join.map Predicate.equals).toList ++ (o.notEquals.join.map Predicate.notIn).toList ++
    (o.greaterThan.join.map Predicate.greaterThan).toList ++
    (o.lessThan.join.map Predicate.lessThan).toList

end Operators

/-- A condition with exactly one operator, or a bare value, which is compared with; the words `any`
and `-` are wildcards. -/
def predicate (n : Node) : FromDocument Predicate :=
  match n with
  | .scalar _ => do
    match ← fact n with
    | .text "any" | .text "-" => return .any
    | f => return .equals f
  | _ => do
    match (← Operators.read n).predicates with
    | [p] => return p
    | ps => throw (.operators ps.length)

def once (old : Option α) (new : FromDocument α) : FromDocument (Option α) :=
  if old.isSome then .error .unreadable else new.map some

def required : Option α → FromDocument α
  | some a => .ok a
  | none => .error .unreadable

structure RuleDraft where
  description : Option (Option String)
  conditions : Option (Columns Predicate)
  output : Option (Columns Fact)

def rule (n : Node) : FromDocument Rule := do
  let draft ← (← entries n).foldlM (fun (d : RuleDraft) (k, v) => do
    match ← text k with
    | "description" => return { d with description := ← once d.description (text? v) }
    | "when" => return { d with conditions := ← once d.conditions (columns predicate v) }
    | "then" => return { d with output := ← once d.output (columns fact v) }
    | _ => throw .unreadable) ⟨none, none, none⟩
  return ⟨draft.description.join, draft.conditions.getD .empty, ← required draft.output⟩

structure Metadata where
  id : Option String
  name : Option String
  description : Option (Option String)

def metadata (n : Node) : FromDocument (String × String × Option String) := do
  let draft ← (← entries n).foldlM (fun (d : Metadata) (k, v) => do
    match ← text k with
    | "id" => return { d with id := ← once d.id (text v) }
    | "name" => return { d with name := ← once d.name (text v) }
    | "description" => return { d with description := ← once d.description (text? v) }
    | _ => return d) ⟨none, none, none⟩
  return (← required draft.id, ← required draft.name, draft.description.join)

def inputType (n : Node) : FromDocument FactType := do
  required (FactType.ofName? (← word n))

def hitPolicy (n : Node) : FromDocument Unit := do
  if (← word n) = "FIRST" then return else throw .unreadable

structure TableDraft where
  apiVersion : Option String
  kind : Option String
  metadata : Option (String × String × Option String)
  hitPolicy : Option Unit
  inputs : Option (Columns FactType)
  rules : Option (List Rule)

def table (n : Node) : FromDocument Table := do
  let d ← (← entries n).foldlM (fun (d : TableDraft) (k, v) => do
    match ← text k with
    | "apiVersion" => return { d with apiVersion := ← once d.apiVersion (text v) }
    | "kind" => return { d with kind := ← once d.kind (text v) }
    | "metadata" => return { d with metadata := ← once d.metadata (Document.metadata v) }
    | "hitPolicy" => return { d with hitPolicy := ← once d.hitPolicy (Document.hitPolicy v) }
    | "inputs" => return { d with inputs := ← once d.inputs (columns inputType v) }
    | "rules" => return { d with rules := ← once d.rules do (← items v).mapM rule }
    | _ => return d) ⟨none, none, none, none, none, none⟩
  let (id, name, description) ← required d.metadata
  return {
    apiVersion := ← required d.apiVersion
    kind := ← required d.kind
    id, name, description
    inputs := d.inputs.getD .empty
    rules := ← required d.rules }

/-- Reads the first document of a text. What it says counts before what is wrong behind it. -/
def read (value : Node → FromDocument α) (text : String) : FromDocument α := do
  let d := Yaml.Document.ofText text
  let a ← value d.root
  if d.whole then return a else throw .unreadable

end Document

namespace Table

def readUnchecked (text : String) : Except RuleError Table := Document.read Document.table text

/-- A table that can be used: of the right kind, with an id, and laid out well. -/
def read (text : String) : Except RuleError Table := do
  let t ← readUnchecked text
  if t.kind ≠ RuleError.tableKind then throw (.wrongKind t.kind)
  if (Text.trim t.id.toList).isEmpty then throw .emptyId
  t.validate
  return t

end Table

end Followup
