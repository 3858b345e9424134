import Followup.Rules.Builtin
import Followup.Rules.Document
import Followup.Rules.Evaluation
import Followup.Rules.FileTree

/-! Catalogs: sets of tables by id, which are filled one by one or from a folder. A table that is
not laid out well is never taken in, and one with an id that is there already replaces the old
one. -/

namespace Followup

structure Catalog where
  tables : Columns Table

namespace Catalog

def empty : Catalog := ⟨.empty⟩

def put (c : Catalog) (t : Table) : Catalog := ⟨c.tables.put t.id t⟩

def builtin : Catalog := Table.builtin.foldl put empty

def ids (c : Catalog) : List String := c.tables.names.mergeSort fun a b => decide (a ≤ b)

def size (c : Catalog) : Nat := c.tables.size

def get? (c : Catalog) (id : String) : Option Table := c.tables.get? id

def require (c : Catalog) (id : String) : Except RuleError Table :=
  match c.get? id with
  | some t => .ok t
  | none => .error (.notLoaded id)

inductive LoadStatus where
  | loaded (id : String)
  | hidden
  | notYaml
  | failed (cause : RuleError)

structure LoadReport where
  path : String
  status : LoadStatus

/-- What a file's name ends with behind the last dot, unless the name begins with that dot. -/
def suffix? (name : String) : Option String :=
  let reversed := name.toList.reverse
  let ending := reversed.takeWhile (· ≠ '.')
  match reversed.drop ending.length with
  | _ :: _ :: _ => some (String.ofList ending.reverse)
  | _ => none

def isYaml (name : String) : Bool := suffix? name == some "yml" || suffix? name == some "yaml"

end Catalog

open Catalog

/-- Works on a catalog in place. What it has done before it fails stays done. -/
abbrev Loading (α : Type) := ExceptT RuleError (StateM Catalog) α

instance : MonadLift (Except RuleError) Loading := ⟨liftExcept⟩

namespace Loading

def insert (t : Table) : Loading Unit := do
  t.validate
  modify (·.put t)

def text (text : Option String) : Loading String :=
  match text with
  | none => throw .io
  | some text => do
    let t ← Table.read text
    insert t
    return t.id

def file (root : List FileTree) (path : String) : Loading String :=
  text (FileTree.textAt? path root)

def found (f : FoundFile) : Loading LoadReport :=
  if FileTree.isHidden f.name then return ⟨f.path, .hidden⟩
  else if !isYaml f.name then return ⟨f.path, .notYaml⟩
  else do
    let status ← try pure (LoadStatus.loaded (← text f.text)) catch e => pure (.failed e)
    return ⟨f.path, status⟩

def scanned (fs : List (Option FoundFile)) : Loading (List LoadReport) :=
  fs.mapM fun
    | some f => found f
    | none => throw .io

def folder (root : List FileTree) (path : String) : Loading (List LoadReport) :=
  match FileTree.folderAt? path root with
  | some entries => scanned (FileTree.scan ("/".intercalate (FileTree.segments path)) entries)
  | none => throw .io

end Loading

namespace Catalog

variable {α : Type}

def run (c : Catalog) (work : Loading α) : Except RuleError α × Catalog := StateT.run work.run c

def after (c : Catalog) (work : Loading α) : Except RuleError (Catalog × α) :=
  let (result, c) := c.run work
  result.map (c, ·)

def insert (c : Catalog) (t : Table) : Except RuleError Catalog :=
  (c.after (.insert t)).map Prod.fst

def loadFile (c : Catalog) (root : List FileTree) (path : String) :
    Except RuleError (Catalog × String) :=
  c.after (.file root path)

def loadFolder (c : Catalog) (root : List FileTree) (path : String) :
    Except RuleError (Catalog × List LoadReport) :=
  c.after (.folder root path)

end Catalog

end Followup
