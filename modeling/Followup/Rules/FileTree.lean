import Followup.Text.Split

/-! Trees of files, and the order in which a scan of a folder meets the files in it: by name within
each folder, and all of a folder before the next name. Folders whose name begins with a dot are
not looked into, and one whose entries cannot be listed ends the scan. -/

namespace Followup

inductive FileTree where
  | file (name : String) (text : Option String)
  | folder (name : String) (entries : List FileTree)
  | locked (name : String)

structure FoundFile where
  path : String
  name : String
  text : Option String

namespace FileTree

def name : FileTree → String
  | file name _ | folder name _ | locked name => name

def isHidden (name : String) : Bool := name.toList.head? == some '.'

def join (folder name : String) : String := if folder = "" then name else folder ++ "/" ++ name

mutual

/-- The files that a scan meets at an entry of a folder, with `none` in the place of a folder that
cannot be listed. -/
def found (path : String) : FileTree → List (Option FoundFile)
  | file name text => [some ⟨join path name, name, text⟩]
  | folder name entries =>
    if isHidden name then []
    else
      let parts := foundIn (join path name) entries
      (parts.mergeSort fun a b => decide (a.1 ≤ b.1)).flatMap (·.2)
  | locked name => if isHidden name then [] else [none]

def foundIn (path : String) : List FileTree → List (String × List (Option FoundFile))
  | [] => []
  | e :: es => (e.name, e.found path) :: foundIn path es

end

def scan (path : String) (entries : List FileTree) : List (Option FoundFile) :=
  ((foundIn path entries).mergeSort fun a b => decide (a.1 ≤ b.1)).flatMap (·.2)

def addAt (content : Option (Option String)) : (path : List String) → List FileTree → List FileTree
  | [], es => es
  | [name], es =>
    match content with
    | some text => es ++ [file name text]
    | none => if es.any (·.name == name) then es else es ++ [folder name []]
  | name :: rest, es => addBelow name (addAt content rest) es
where
  addBelow (name : String) (add : List FileTree → List FileTree) : List FileTree → List FileTree
    | [] => [folder name (add [])]
    | folder n inner :: es =>
      if n = name then folder n (add inner) :: es else folder n inner :: addBelow name add es
    | e :: es => e :: addBelow name add es

def segments (path : String) : List String :=
  ((Text.split '/' path.toList).filter fun s => !s.isEmpty && s ≠ ['.']).map String.ofList

/-- The entries of the root of a tree that holds files at paths. A path that ends in a slash is an
empty folder. -/
def ofFiles (files : List (String × Option String)) : List FileTree :=
  files.foldl (fun es (path, text) =>
    addAt (if path.toList.getLast? = some '/' then none else some text) (segments path) es) []

def ofFolder (path : String) (entries : List FileTree) : List FileTree :=
  (segments path).foldr (fun name inner => [folder name inner]) entries

def find? : (path : List String) → List FileTree → Option FileTree
  | [], _ => none
  | [name], es => es.find? (·.name == name)
  | name :: rest, es =>
    match es.find? (·.name == name) with
    | some (folder _ inner) => find? rest inner
    | _ => none

def folderAt? (path : String) (root : List FileTree) : Option (List FileTree) :=
  match segments path with
  | [] => some root
  | names =>
    match find? names root with
    | some (folder _ entries) => some entries
    | _ => none

def textAt? (path : String) (root : List FileTree) : Option String :=
  match find? (segments path) root with
  | some (file _ text) => text
  | _ => none

end FileTree

end Followup
