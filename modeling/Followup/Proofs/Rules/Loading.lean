import Followup.Proofs.Rules.Catalog

/-! What the scan of a folder does to a catalog. Every file that is met is reported, in order, and
no report ends the scan. Of the tables that were taken in under an id the last one stays, and an id
under which none was taken in keeps the table that it had. -/

namespace Followup

open FileTree (Leaf isHidden)

variable {c c₁ c₂ : Catalog} {l : Leaf} {ls : List Leaf} {t u : Table} {id name ending : String}
  {text : Option String}

namespace Table

theorem validate_of_read {text : String} (h : read text = .ok t) : t.validate = .ok () := by
  obtain ⟨u, -, h⟩ := bind_eq_ok.1 h
  dsimp only at h
  split at h
  · cases h
  · split at h
    · cases h
    · obtain ⟨⟨⟩, hv, h⟩ := bind_eq_ok.1 h
      obtain rfl := Except.ok.inj h
      exact hv

def inFile : Option String → Except RuleError Table
  | some text => read text
  | none => .error .io

end Table

namespace Catalog

theorem get?_put (c : Catalog) (t : Table) (id : String) :
    (c.put t).get? id = if id = t.id then some t else c.get? id :=
  Columns.get?_put c.tables t.id t id

def HasYamlEnding (name : String) : Prop :=
  ∃ stem, stem ≠ "" ∧ (name = stem ++ ".yml" ∨ name = stem ++ ".yaml")

theorem suffix?_eq_some (hdot : '.' ∉ ending.toList) :
    suffix? name = some ending ↔ ∃ stem, stem ≠ "" ∧ name = stem ++ "." ++ ending := by
  constructor
  · intro h
    have hsplit := List.takeWhile_append_dropWhile (p := (· ≠ '.')) (l := name.toList.reverse)
    have hdrop : name.toList.reverse.drop
        (name.toList.reverse.takeWhile (· ≠ '.')).length =
          name.toList.reverse.dropWhile (· ≠ '.') := by
      nth_rewrite 2 [← hsplit]
      exact List.drop_left
    have hhead := List.head?_dropWhile_not (· ≠ '.') name.toList.reverse
    simp only [suffix?, hdrop] at h
    split at h
    · next dot c cs hrest =>
      rw [hrest] at hsplit hhead
      obtain rfl : dot = '.' := by simpa using hhead
      have hend := Option.some.inj h
      refine ⟨String.ofList (c :: cs).reverse, by simp, ?_⟩
      rw [← String.toList_inj, ← hend]
      simpa using congrArg List.reverse hsplit.symm
    · cases h
  · rintro ⟨stem, hstem, rfl⟩
    obtain ⟨c, cs, hcs⟩ : ∃ c cs, stem.toList.reverse = c :: cs :=
      List.exists_cons_of_ne_nil (by simpa using hstem)
    have hrev : (stem ++ "." ++ ending).toList.reverse =
        ending.toList.reverse ++ '.' :: c :: cs := by
      rw [← hcs]
      simp
    have htake : (ending.toList.reverse ++ '.' :: c :: cs).takeWhile (· ≠ '.') =
        ending.toList.reverse := by
      rw [List.takeWhile_append_of_pos, List.takeWhile_cons_of_neg (by simp), List.append_nil]
      intro d hd
      exact decide_eq_true fun heq => hdot (heq ▸ List.mem_reverse.1 hd)
    simp only [suffix?, hrev, htake, List.drop_left, List.reverse_reverse, String.ofList_toList]

theorem isYaml_iff : isYaml name = true ↔ HasYamlEnding name := by
  rw [isYaml, Bool.or_eq_true, beq_iff_eq, beq_iff_eq, suffix?_eq_some (by decide),
    suffix?_eq_some (by decide), HasYamlEnding]
  simp only [String.append_assoc]
  constructor
  · rintro (⟨stem, hstem, h⟩ | ⟨stem, hstem, h⟩)
    · exact ⟨stem, hstem, .inl h⟩
    · exact ⟨stem, hstem, .inr h⟩
  · rintro ⟨stem, hstem, h | h⟩
    · exact .inl ⟨stem, hstem, h⟩
    · exact .inr ⟨stem, hstem, h⟩

structure Loads (l : Leaf) (t : Table) : Prop where
  visible : isHidden l.name = false
  yaml : HasYamlEnding l.name
  table : Table.inFile l.text = .ok t

inductive Reported (l : Leaf) : LoadStatus → Prop
  | hidden (h : isHidden l.name = true) : Reported l .hidden
  | notYaml (h : isHidden l.name = false) (hname : ¬ HasYamlEnding l.name) : Reported l .notYaml
  | loaded {t : Table} (h : Loads l t) : Reported l (.loaded t.id)
  | failed {cause : RuleError} (h : isHidden l.name = false) (hname : HasYamlEnding l.name)
    (hcause : Table.inFile l.text = .error cause) : Reported l (.failed cause)

def NoneLoaded (ls : List Leaf) (id : String) : Prop := ∀ l ∈ ls, ∀ t, Loads l t → t.id ≠ id

/-- The table is the last one with the id that is taken in from the files. -/
def LastLoaded (ls : List Leaf) (id : String) (t : Table) : Prop :=
  ∃ before l after, ls = before ++ l :: after ∧ Loads l t ∧ t.id = id ∧ NoneLoaded after id

/-- Under each id the second catalog has the last table from the files, or without one that of the
first catalog. -/
def After (c : Catalog) (ls : List Leaf) (c' : Catalog) : Prop :=
  ∀ id t, c'.get? id = some t ↔ LastLoaded ls id t ∨ NoneLoaded ls id ∧ c.get? id = some t

theorem Loads.unique (ht : Loads l t) (hu : Loads l u) : t = u :=
  Except.ok.inj (ht.table.symm.trans hu.table)

theorem noneLoaded_nil : NoneLoaded [] id := List.forall_mem_nil _

theorem noneLoaded_cons :
    NoneLoaded (l :: ls) id ↔ (∀ t, Loads l t → t.id ≠ id) ∧ NoneLoaded ls id :=
  List.forall_mem_cons

theorem not_lastLoaded_nil : ¬ LastLoaded [] id t := by
  rintro ⟨before, l, after, h, -⟩
  cases List.append_eq_nil_iff.1 h.symm |>.2

theorem lastLoaded_cons : LastLoaded (l :: ls) id t ↔
    LastLoaded ls id t ∨ NoneLoaded ls id ∧ Loads l t ∧ t.id = id := by
  constructor
  · rintro ⟨before, m, after, hls, hm, hid, hnone⟩
    cases before with
    | nil =>
      obtain ⟨rfl, rfl⟩ := List.cons.inj hls
      exact .inr ⟨hnone, hm, hid⟩
    | cons d before =>
      obtain ⟨-, rfl⟩ := List.cons.inj hls
      exact .inl ⟨before, m, after, rfl, hm, hid, hnone⟩
  · rintro (⟨before, m, after, rfl, hm, hid, hnone⟩ | ⟨hnone, hl, hid⟩)
    · exact ⟨l :: before, m, after, rfl, hm, hid, hnone⟩
    · exact ⟨[], l, ls, rfl, hl, hid, hnone⟩

theorem After.nil (c : Catalog) : c.After [] c :=
  fun _ _ => ⟨fun h => .inr ⟨noneLoaded_nil, h⟩,
    fun h => h.elim (absurd · not_lastLoaded_nil) And.right⟩

theorem After.cons (hl : c.After [l] c₁) (hls : c₁.After ls c₂) : c.After (l :: ls) c₂ := by
  intro id t
  have hfirst := hl id t
  rw [lastLoaded_cons, noneLoaded_cons] at hfirst
  simp only [not_lastLoaded_nil, noneLoaded_nil, false_or, true_and, and_true] at hfirst
  rw [hls id t, hfirst, lastLoaded_cons, noneLoaded_cons]
  tauto

theorem After.same (h : ∀ t, ¬ Loads l t) : c.After [l] c := by
  intro id t
  rw [lastLoaded_cons, noneLoaded_cons]
  simp only [not_lastLoaded_nil, noneLoaded_nil, h, false_or, and_false, false_and, and_true,
    IsEmpty.forall_iff, implies_true, true_and]

theorem After.put (h : Loads l t) : c.After [l] (c.put t) := by
  intro id u
  rw [get?_put, lastLoaded_cons, noneLoaded_cons]
  simp only [not_lastLoaded_nil, noneLoaded_nil, false_or, true_and, and_true]
  by_cases hid : id = t.id
  · subst hid
    rw [if_pos rfl, Option.some_inj]
    constructor
    · rintro rfl
      exact .inl ⟨h, rfl⟩
    · rintro (⟨hu, -⟩ | ⟨hnone, -⟩)
      · exact h.unique hu
      · exact absurd rfl (hnone t h)
  · rw [if_neg hid]
    constructor
    · intro hget
      refine .inr ⟨fun v hv => ?_, hget⟩
      rw [hv.unique h]
      exact Ne.symm hid
    · rintro (⟨hu, hid'⟩ | ⟨-, hget⟩)
      · exact absurd (hu.unique h ▸ hid'.symm) hid
      · exact hget

theorem run_text (c : Catalog) (text : Option String) :
    c.run (.text text) =
      match Table.inFile text with
      | .ok t => (.ok t.id, c.put t)
      | .error cause => (.error cause, c) := by
  cases text with
  | none => rfl
  | some text =>
    rw [Loading.text, run_bind, run_lift, Table.inFile]
    cases hread : Table.read text with
    | error cause => rfl
    | ok t =>
      dsimp only
      rw [run_bind, run_insert, Table.validate_of_read hread]
      rfl

theorem run_found_hidden (c : Catalog) {f : FoundFile} (hname : isHidden f.name = true) :
    c.run (.found f) = (.ok ⟨f.path, .hidden⟩, c) := by
  rw [Loading.found, if_pos hname]
  rfl

theorem run_found_notYaml (c : Catalog) {f : FoundFile} (hname : isHidden f.name = false)
    (hyaml : isYaml f.name = false) : c.run (.found f) = (.ok ⟨f.path, .notYaml⟩, c) := by
  rw [Loading.found, hname, hyaml]
  rfl

theorem run_found_yaml (c : Catalog) {f : FoundFile} (hname : isHidden f.name = false)
    (hyaml : isYaml f.name = true) :
    c.run (.found f) =
      match Table.inFile f.text with
      | .ok t => (.ok ⟨f.path, .loaded t.id⟩, c.put t)
      | .error cause => (.ok ⟨f.path, .failed cause⟩, c) := by
  rw [Loading.found, hname, hyaml, if_neg Bool.false_ne_true, if_neg (by decide), run_bind,
    run_tryCatch, run_bind, run_text]
  cases Table.inFile f.text <;> rfl

theorem exists_run_found (c : Catalog) (start : String) (l : Leaf) :
    ∃ status c', c.run (.found (l.found start)) = (.ok ⟨l.path start, status⟩, c') ∧
      Reported l status ∧ c.After [l] c' := by
  cases hname : isHidden l.name with
  | true =>
    refine ⟨.hidden, c, run_found_hidden c hname, .hidden hname, .same fun t ht => ?_⟩
    exact Bool.false_ne_true (ht.visible.symm.trans hname)
  | false =>
    cases hyaml : isYaml l.name with
    | false =>
      have hother : ¬ HasYamlEnding l.name := mt isYaml_iff.2 (Bool.eq_false_iff.1 hyaml)
      exact ⟨.notYaml, c, run_found_notYaml c hname hyaml, .notYaml hname hother,
        .same fun t ht => hother ht.yaml⟩
    | true =>
      have hrun := run_found_yaml c (f := l.found start) hname hyaml
      have hending := isYaml_iff.1 hyaml
      cases htable : Table.inFile (l.found start).text with
      | ok t =>
        rw [htable] at hrun
        have hloads : Loads l t := ⟨hname, hending, htable⟩
        exact ⟨.loaded t.id, c.put t, hrun, .loaded hloads, .put hloads⟩
      | error cause =>
        rw [htable] at hrun
        refine ⟨.failed cause, c, hrun, .failed hname hending htable, .same fun t ht => ?_⟩
        cases htable.symm.trans ht.table

def Reports (start : String) (ls : List Leaf) (rs : List LoadReport) : Prop :=
  List.Forall₂ (fun l r => r.path = l.path start ∧ Reported l r.status) ls rs

theorem run_scanned_cons {f : FoundFile} {fs : List (Option FoundFile)} {r : LoadReport}
    {rs : List LoadReport} (hfound : c.run (.found f) = (.ok r, c₁))
    (hrest : c₁.run (.scanned fs) = (.ok rs, c₂)) :
    c.run (.scanned (some f :: fs)) = (.ok (r :: rs), c₂) := by
  rw [Loading.scanned] at hrest ⊢
  rw [List.mapM_cons, run_bind, hfound]
  dsimp only
  rw [run_bind, hrest]
  rfl

theorem exists_run_scanned (c : Catalog) (start : String) (ls : List Leaf) :
    ∃ rs c', c.run (.scanned (ls.map fun l => some (l.found start))) = (.ok rs, c') ∧
      Reports start ls rs ∧ c.After ls c' := by
  induction ls generalizing c with
  | nil => exact ⟨[], c, rfl, .nil, .nil c⟩
  | cons l ls ih =>
    obtain ⟨status, c₁, hrun, hstatus, hafter⟩ := exists_run_found c start l
    obtain ⟨rs, c₂, hrun', hreports, hafter'⟩ := ih c₁
    exact ⟨⟨l.path start, status⟩ :: rs, c₂, run_scanned_cons hrun hrun',
      .cons ⟨rfl, hstatus⟩ hreports, hafter.cons hafter'⟩

/-- The scan of a folder in which all folders can be listed does not fail. There is one report on
each file that is not below a hidden folder, and the reports come in the order of the ways to the
files. Under each id the catalog then has the last table that was taken in, or else the one that it
had. -/
theorem folder_reported {root entries : List FileTree} {path : String}
    (hfolder : FileTree.folderAt? path root = some entries)
    (hlistable : (FileTree.folder path entries).Listable) (c : Catalog) :
    ∃ ls rs c', c.run (.folder root path) = (.ok rs, c') ∧
      ls.Pairwise (fun l m => l.place < m.place) ∧
      (∀ l, l ∈ ls ↔ FileTree.Holds entries l ∧ l.Open) ∧
      Reports ("/".intercalate (FileTree.segments path)) ls rs ∧ c.After ls c' := by
  cases hlistable with
  | folder _ hnames h =>
    let start := "/".intercalate (FileTree.segments path)
    obtain ⟨ls, hls⟩ :=
      FileTree.exists_lists_scan hnames fun e he => (h e he).exists_lists start
    obtain ⟨rs, c', hrun, hreports, hafter⟩ := exists_run_scanned c start ls
    refine ⟨ls, rs, c', ?_, hls.ordered, hls.mem_iff, hreports, hafter⟩
    rw [Loading.folder, hfolder, ← hrun, ← hls.found]

def tableText (name : String) : String :=
  "apiVersion: v1\nkind: DecisionTable\nmetadata:\n  id: reasons\n  name: " ++ name ++
    "\nrules:\n  - then:\n      reason: LOST\n"

theorem exists_inFile (name : String)
    (h : (Table.inFile (some (tableText name))).toOption.map (fun t => (t.id, t.name)) =
      some ("reasons", name)) :
    ∃ t, Table.inFile (some (tableText name)) = .ok t ∧ t.id = "reasons" ∧ t.name = name := by
  cases hread : Table.inFile (some (tableText name)) with
  | error cause =>
    rw [hread] at h
    cases h
  | ok t =>
    rw [hread] at h
    exact ⟨t, rfl, Prod.mk.inj (Option.some.inj h)⟩

def archived : List FileTree :=
  [.file ".draft.yml" (some ""), .folder ".old" [.file "a.yml" none],
    .file "first.yml" (some (tableText "First")), .folder "intake" [.file "b.yaml" none],
    .file "notes.txt" (some ""), .file "second.yaml" (some (tableText "Second")),
    .file "yml" none]

def archive : List FileTree := [.folder "rules" archived]

theorem listable_archived : (FileTree.folder "rules" archived).Listable := by
  have hinner (name file : String) (text : Option String) :
      (FileTree.folder name [.file file text]).Listable :=
    .folder name (List.nodup_singleton _) (List.forall_mem_singleton.2 (.file file text))
  refine .folder "rules" (by decide) ?_
  simp only [archived, List.forall_mem_cons]
  exact ⟨.file _ _, hinner _ _ _, .file _ _, hinner _ _ _, .file _ _, .file _ _, .file _ _,
    List.forall_mem_nil _⟩

theorem scan_archived :
    FileTree.scan "rules" archived =
      [some ⟨"rules/.draft.yml", ".draft.yml", some ""⟩,
        some ⟨"rules/first.yml", "first.yml", some (tableText "First")⟩,
        some ⟨"rules/intake/b.yaml", "b.yaml", none⟩,
        some ⟨"rules/notes.txt", "notes.txt", some ""⟩,
        some ⟨"rules/second.yaml", "second.yaml", some (tableText "Second")⟩,
        some ⟨"rules/yml", "yml", none⟩] := by
  have hintake : (FileTree.folder "intake" [.file "b.yaml" none]).found "rules" =
      [some ⟨"rules/intake/b.yaml", "b.yaml", none⟩] := by
    rw [FileTree.found_folder, if_neg (by decide), FileTree.scan_eq, FileTree.inOrder,
      List.mergeSort_singleton]
    rfl
  rw [FileTree.scan_eq, FileTree.inOrder, List.mergeSort_of_pairwise (by decide), archived]
  simp only [List.flatMap_cons, hintake]
  rfl

def archiveReports : List LoadReport :=
  [⟨"rules/.draft.yml", .hidden⟩, ⟨"rules/first.yml", .loaded "reasons"⟩,
    ⟨"rules/intake/b.yaml", .failed .io⟩, ⟨"rules/notes.txt", .notYaml⟩,
    ⟨"rules/second.yaml", .loaded "reasons"⟩, ⟨"rules/yml", .notYaml⟩]

theorem run_archive (hfirst : Table.inFile (some (tableText "First")) = .ok t)
    (hsecond : Table.inFile (some (tableText "Second")) = .ok u) (ht : t.id = "reasons")
    (hu : u.id = "reasons") (c : Catalog) :
    c.run (.folder archive "rules") = (.ok archiveReports, (c.put t).put u) := by
  have hloads : c.run (.found ⟨"rules/first.yml", "first.yml", some (tableText "First")⟩) =
      (.ok ⟨"rules/first.yml", .loaded "reasons"⟩, c.put t) := by
    rw [run_found_yaml c rfl rfl, hfirst, ← ht]
  have hfails : (c.put t).run (.found ⟨"rules/intake/b.yaml", "b.yaml", none⟩) =
      (.ok ⟨"rules/intake/b.yaml", .failed .io⟩, c.put t) := by
    rw [run_found_yaml _ rfl rfl]
    rfl
  have hreplaces : (c.put t).run
      (.found ⟨"rules/second.yaml", "second.yaml", some (tableText "Second")⟩) =
      (.ok ⟨"rules/second.yaml", .loaded "reasons"⟩, (c.put t).put u) := by
    rw [run_found_yaml _ rfl rfl, hsecond, ← hu]
  change c.run (Loading.scanned (FileTree.scan "rules" archived)) = _
  rw [scan_archived]
  exact run_scanned_cons (run_found_hidden c rfl) (run_scanned_cons hloads
    (run_scanned_cons hfails (run_scanned_cons (run_found_notYaml _ rfl rfl)
      (run_scanned_cons hreplaces (run_scanned_cons (run_found_notYaml _ rfl rfl) rfl)))))

theorem folder_reported_archive :
    FileTree.folderAt? "rules" archive = some archived ∧
      (FileTree.folder "rules" archived).Listable ∧
      ∃ ls c' t, (∀ l, l ∈ ls ↔ FileTree.Holds archived l ∧ l.Open) ∧
        Reports "rules" ls archiveReports ∧ builtin.After ls c' ∧
        LastLoaded ls "reasons" t ∧ t.name = "Second" ∧ c'.get? "reasons" = some t := by
  have hfolder : FileTree.folderAt? "rules" archive = some archived := rfl
  obtain ⟨t, hfirst, ht, -⟩ := exists_inFile "First" (by decide +kernel)
  obtain ⟨u, hsecond, hu, hname⟩ := exists_inFile "Second" (by decide +kernel)
  obtain ⟨ls, rs, c', hrun, -, hmem, hreports, hafter⟩ :=
    folder_reported hfolder listable_archived builtin
  obtain ⟨hrs, hc⟩ := Prod.mk.inj ((run_archive hfirst hsecond ht hu builtin).symm.trans hrun)
  obtain rfl := Except.ok.inj hrs
  have hget : c'.get? "reasons" = some u := by
    rw [← hc, get?_put, if_pos hu.symm]
  have hlast : LastLoaded ls "reasons" u := by
    rcases (hafter "reasons" u).1 hget with hlast | ⟨-, hold⟩
    · exact hlast
    · cases hold
  exact ⟨hfolder, listable_archived, ls, c', u, hmem, hreports, hafter, hlast, hname, hget⟩

end Catalog

end Followup
