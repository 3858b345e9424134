import Followup.Rules.FileTree
import Mathlib.Data.List.Sort
import Mathlib.Data.List.Lex

/-! What a scan of a folder meets. Where all folders can be listed, a scan meets every file that is
not below a hidden folder, and no other. The names on the way to a file, taken as one word, tell
where it stands: the words come up in their order, so no file comes up twice. -/

namespace Followup

theorem pairwise_mergeSort_lt {α : Type} {name : α → String} {l : List α}
    (hnames : (l.map name).Nodup) :
    (l.mergeSort fun a b => decide (name a ≤ name b)).Pairwise fun a b => name a < name b := by
  have htrans : ∀ a b c : α, decide (name a ≤ name b) = true → decide (name b ≤ name c) = true →
      decide (name a ≤ name c) = true := by
    simpa only [decide_eq_true_iff] using fun a b c => String.le_trans
  have htotal : ∀ a b : α, (decide (name a ≤ name b) || decide (name b ≤ name a)) = true := by
    simpa only [Bool.or_eq_true, decide_eq_true_iff] using fun a b => String.le_total _ _
  have hordered := List.pairwise_mergeSort htrans htotal l
  have hperm := List.mergeSort_perm l fun a b => decide (name a ≤ name b)
  have hdistinct := List.pairwise_map.1 ((hperm.map name).nodup_iff.2 hnames)
  refine hordered.imp₂ (fun a b hab hne => ?_) hdistinct
  exact String.not_le.1 fun hba => hne (String.le_antisymm (of_decide_eq_true hab) hba)

namespace FileTree

/-- A file below some entries: the names of the folders on the way to it, and its own. -/
structure Leaf where
  folders : List String
  name : String
  text : Option String

namespace Leaf

def place (l : Leaf) : List String := l.folders ++ [l.name]

def path (start : String) (l : Leaf) : String := l.place.foldl join start

def found (start : String) (l : Leaf) : FoundFile := ⟨l.path start, l.name, l.text⟩

/-- No folder on the way is hidden. The file itself may be. -/
def Open (l : Leaf) : Prop := ∀ folder ∈ l.folders, isHidden folder = false

def below (folder : String) (l : Leaf) : Leaf := { l with folders := folder :: l.folders }

theorem place_below (folder : String) (l : Leaf) :
    (l.below folder).place = folder :: l.place := rfl

theorem open_below {folder : String} {l : Leaf} :
    (l.below folder).Open ↔ isHidden folder = false ∧ l.Open := List.forall_mem_cons

end Leaf

variable {e : FileTree} {es entries : List FileTree} {l : Leaf} {ls ms : List Leaf}
  {name path : String} {fs gs : List (Option FoundFile)}

inductive Holds : List FileTree → Leaf → Prop
  | file {es : List FileTree} {name : String} {text : Option String} (h : file name text ∈ es) :
    Holds es ⟨[], name, text⟩
  | folder {es inner : List FileTree} {name : String} {l : Leaf} (h : folder name inner ∈ es)
    (hl : Holds inner l) : Holds es (l.below name)

inductive Listable : FileTree → Prop
  | file (name : String) (text : Option String) : Listable (file name text)
  | folder (name : String) {entries : List FileTree} (hnames : (entries.map FileTree.name).Nodup)
    (h : ∀ e ∈ entries, Listable e) : Listable (folder name entries)

theorem Holds.mono (h : Holds es l) (hsub : es ⊆ entries) : Holds entries l := by
  cases h with
  | file h => exact .file (hsub h)
  | folder h hl => exact .folder (hsub h) hl

theorem holds_iff : Holds es l ↔ ∃ e ∈ es, Holds [e] l := by
  constructor
  · intro h
    cases h with
    | file h => exact ⟨_, h, .file (.head _)⟩
    | folder h hl => exact ⟨_, h, .folder (.head _) hl⟩
  · rintro ⟨e, he, h⟩
    exact h.mono (List.cons_subset.2 ⟨he, List.nil_subset _⟩)

theorem holds_file {text : Option String} :
    Holds [file name text] l ↔ l = ⟨[], name, text⟩ := by
  constructor
  · intro h
    cases h with
    | file h =>
      cases List.mem_singleton.1 h
      rfl
    | folder h => cases List.mem_singleton.1 h
  · rintro rfl
    exact .file (.head _)

theorem holds_folder :
    Holds [folder name entries] l ↔ ∃ m, Holds entries m ∧ l = m.below name := by
  constructor
  · intro h
    cases h with
    | file h => cases List.mem_singleton.1 h
    | folder h hl =>
      cases List.mem_singleton.1 h
      exact ⟨_, hl, rfl⟩
  · rintro ⟨m, hm, rfl⟩
    exact .folder (.head _) hm

theorem Holds.exists_place (h : Holds [e] l) : ∃ rest, l.place = e.name :: rest := by
  cases e with
  | file =>
    obtain rfl := holds_file.1 h
    exact ⟨[], rfl⟩
  | folder =>
    obtain ⟨m, -, rfl⟩ := holds_folder.1 h
    exact ⟨_, m.place_below _⟩
  | locked =>
    cases h with
    | file h => cases List.mem_singleton.1 h
    | folder h => cases List.mem_singleton.1 h

/-- The files below some entries that are not below a hidden folder, each once and in order, as a
scan has found them. -/
structure Lists (path : String) (es : List FileTree) (fs : List (Option FoundFile))
    (ls : List Leaf) : Prop where
  found : fs = ls.map fun l => some (l.found path)
  ordered : ls.Pairwise fun l m => l.place < m.place
  mem_iff : ∀ l, l ∈ ls ↔ Holds es l ∧ l.Open

theorem Lists.nil (path : String) : Lists path [] [] [] where
  found := rfl
  ordered := .nil
  mem_iff l := by
    refine iff_of_false (List.not_mem_nil) ?_
    rintro ⟨h, -⟩
    obtain ⟨e, he, -⟩ := holds_iff.1 h
    cases he

theorem Lists.cons (he : Lists path [e] fs ls) (hes : Lists path es gs ms)
    (hlt : ∀ d ∈ es, e.name < d.name) : Lists path (e :: es) (fs ++ gs) (ls ++ ms) where
  found := by rw [he.found, hes.found, List.map_append]
  ordered := by
    refine List.pairwise_append.2 ⟨he.ordered, hes.ordered, fun l hl m hm => ?_⟩
    obtain ⟨rest, hl⟩ := ((he.mem_iff l).1 hl).1.exists_place
    obtain ⟨d, hd, hholds⟩ := holds_iff.1 ((hes.mem_iff m).1 hm).1
    obtain ⟨rest', hm⟩ := hholds.exists_place
    rw [hl, hm]
    exact .rel (hlt d hd)
  mem_iff l := by
    rw [List.mem_append, he.mem_iff, hes.mem_iff, ← or_and_right]
    refine and_congr_left fun _ => ?_
    rw [@holds_iff (e :: es), @holds_iff es, List.exists_mem_cons_iff]

theorem Lists.perm (h : Lists path es fs ls) (hperm : es.Perm entries) :
    Lists path entries fs ls where
  found := h.found
  ordered := h.ordered
  mem_iff l := by
    rw [h.mem_iff]
    refine and_congr_left fun _ => ?_
    exact ⟨fun hl => hl.mono hperm.subset, fun hl => hl.mono hperm.symm.subset⟩

theorem foundIn_eq (path : String) (es : List FileTree) :
    foundIn path es = es.map fun e => (e.name, e.found path) := by
  induction es with
  | nil => rfl
  | cons e es ih => rw [foundIn, ih, List.map_cons]

def inOrder (es : List FileTree) : List FileTree :=
  es.mergeSort fun a b => decide (a.name ≤ b.name)

theorem scan_eq (path : String) (entries : List FileTree) :
    scan path entries = (inOrder entries).flatMap (·.found path) := by
  have hmap := List.map_mergeSort (l := entries) (r := fun a b => decide (a.name ≤ b.name))
    (s := fun a b => decide (a.1 ≤ b.1)) (f := fun e : FileTree => (e.name, e.found path))
    (fun _ _ _ _ => rfl)
  rw [scan, foundIn_eq, ← hmap, List.flatMap_map]
  rfl

theorem found_folder (path name : String) (entries : List FileTree) :
    (folder name entries).found path =
      if isHidden name then [] else scan (join path name) entries := by
  rw [found]
  rfl

theorem exists_lists_flatMap (hes : es.Pairwise fun a b => a.name < b.name)
    (h : ∀ e ∈ es, ∃ ls, Lists path [e] (e.found path) ls) :
    ∃ ls, Lists path es (es.flatMap (·.found path)) ls := by
  induction es with
  | nil => exact ⟨[], .nil path⟩
  | cons e es ih =>
    obtain ⟨hlt, hes⟩ := List.pairwise_cons.1 hes
    obtain ⟨hfirst, hrest⟩ := List.forall_mem_cons.1 h
    obtain ⟨ls, hls⟩ := hfirst
    obtain ⟨ms, hms⟩ := ih hes hrest
    exact ⟨ls ++ ms, hls.cons hms hlt⟩

theorem exists_lists_scan (hnames : (entries.map FileTree.name).Nodup)
    (h : ∀ e ∈ entries, ∃ ls, Lists path [e] (e.found path) ls) :
    ∃ ls, Lists path entries (scan path entries) ls := by
  have hperm : (inOrder entries).Perm entries := List.mergeSort_perm _ _
  obtain ⟨ls, hls⟩ := exists_lists_flatMap (pairwise_mergeSort_lt hnames)
    fun e he => h e (hperm.subset he)
  exact ⟨ls, scan_eq path entries ▸ hls.perm hperm⟩

theorem Lists.below (h : Lists (join path name) entries fs ls) (hname : isHidden name = false) :
    Lists path [folder name entries] fs (ls.map (Leaf.below name)) where
  found := by
    rw [h.found, List.map_map]
    rfl
  ordered := List.pairwise_map.2 (h.ordered.imp fun hlt => .cons hlt)
  mem_iff l := by
    rw [List.mem_map, holds_folder]
    constructor
    · rintro ⟨m, hm, rfl⟩
      obtain ⟨hholds, hopen⟩ := (h.mem_iff m).1 hm
      exact ⟨⟨m, hholds, rfl⟩, Leaf.open_below.2 ⟨hname, hopen⟩⟩
    · rintro ⟨⟨m, hholds, rfl⟩, hopen⟩
      exact ⟨m, (h.mem_iff m).2 ⟨hholds, (Leaf.open_below.1 hopen).2⟩, rfl⟩

theorem Lists.hidden (path : String) (entries : List FileTree) (hname : isHidden name = true) :
    Lists path [folder name entries] [] [] where
  found := rfl
  ordered := .nil
  mem_iff l := by
    refine iff_of_false (List.not_mem_nil) ?_
    rintro ⟨h, hopen⟩
    obtain ⟨m, -, rfl⟩ := holds_folder.1 h
    exact Bool.false_ne_true ((Leaf.open_below.1 hopen).1.symm.trans hname)

theorem Lists.file (path name : String) (text : Option String) :
    Lists path [file name text] ((FileTree.file name text).found path) [⟨[], name, text⟩] where
  found := by
    rw [FileTree.found]
    rfl
  ordered := List.pairwise_singleton _ _
  mem_iff l := by
    rw [List.mem_singleton, holds_file]
    refine ⟨fun h => ⟨h, ?_⟩, And.left⟩
    subst h
    exact List.forall_mem_nil _

theorem Listable.exists_lists (h : e.Listable) (path : String) :
    ∃ ls, Lists path [e] (e.found path) ls := by
  induction h generalizing path with
  | file name text => exact ⟨_, .file path name text⟩
  | folder name hnames _ ih =>
    rw [found_folder]
    split
    · next hname => exact ⟨[], .hidden path _ hname⟩
    · next hname =>
      obtain ⟨ls, hls⟩ := exists_lists_scan hnames fun e he => ih e he (join path name)
      exact ⟨_, hls.below (Bool.eq_false_iff.2 hname)⟩

end FileTree

end Followup
