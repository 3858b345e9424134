import Followup.Proofs.Rules.Builtin
import Followup.Proofs.Rules.Columns
import Followup.Proofs.Rules.Listing
import Followup.Rules.Catalog

/-! Catalogs stay valid. Whatever is done to one, every table in it stands under its own id and is
laid out well, because a table is put in at one place only, after its check, and because work that
fails there has not changed anything yet. -/

namespace Followup

namespace Catalog

variable {α β : Type} {c : Catalog} {t : Table} {work : Loading α}

/-- Every table stands under its own id and is laid out well. -/
def Valid (c : Catalog) : Prop := ∀ e ∈ c.tables.entries, e.2.id = e.1 ∧ e.2.validate = .ok ()

theorem valid_empty : empty.Valid := List.forall_mem_nil _

theorem Valid.put (hc : c.Valid) (ht : t.validate = .ok ()) : (c.put t).Valid := by
  intro e he
  rcases Columns.mem_putIn he with rfl | he
  · exact ⟨rfl, ht⟩
  · exact hc e he

theorem Valid.foldl_put {ts : List Table} (hc : c.Valid)
    (hts : ∀ t ∈ ts, t.validate = .ok ()) : (ts.foldl Catalog.put c).Valid := by
  induction ts generalizing c with
  | nil => exact hc
  | cons t ts ih =>
    obtain ⟨ht, hts⟩ := List.forall_mem_cons.1 hts
    exact ih (hc.put ht) hts

theorem valid_builtin : builtin.Valid := valid_empty.foldl_put Table.builtin_valid

theorem Valid.get? {id : String} (hc : c.Valid) (h : c.get? id = some t) :
    t.id = id ∧ t.validate = .ok () :=
  hc (id, t) (Columns.mem_of_get? h)

theorem get?_of_require {id : String} (h : c.require id = .ok t) : c.get? id = some t := by
  rw [require] at h
  split at h
  · next hget => rw [hget, Except.ok.inj h]
  · exact nomatch h

theorem mem_ids {id : String} : id ∈ c.ids ↔ ∃ t, c.get? id = some t :=
  List.mem_mergeSort.trans Columns.mem_names

theorem length_ids (c : Catalog) : c.ids.length = c.size :=
  (List.length_mergeSort _).trans (List.length_map _)

theorem pairwise_ids (c : Catalog) : c.ids.Pairwise (· < ·) := by
  have hdistinct : (c.tables.names.map id).Nodup := by
    rw [List.map_id]
    exact c.tables.distinct
  exact pairwise_mergeSort_lt hdistinct

theorem run_bind (work : Loading α) (next : α → Loading β) :
    c.run (work >>= next) =
      match c.run work with
      | (.ok a, c') => c'.run (next a)
      | (.error e, c') => (.error e, c') := by
  unfold run ExceptT.run StateT.run
  simp only [bind, ExceptT.bind, ExceptT.mk, StateT.bind, ExceptT.bindCont]
  cases work c with
  | mk result left => cases result <;> rfl

theorem run_tryCatch (work : Loading α) (rescue : RuleError → Loading α) :
    c.run (tryCatch work rescue) =
      match c.run work with
      | (.ok a, c') => (.ok a, c')
      | (.error e, c') => c'.run (rescue e) := by
  unfold run ExceptT.run StateT.run
  simp only [tryCatch, tryCatchThe, MonadExceptOf.tryCatch, ExceptT.tryCatch, ExceptT.mk, bind,
    StateT.bind]
  cases work c with
  | mk result left => cases result <;> rfl

theorem run_lift (r : Except RuleError α) : c.run (liftM r) = (r, c) := by
  cases r <;> rfl

theorem run_insert (c : Catalog) (t : Table) :
    c.run (.insert t) =
      match t.validate with
      | .ok _ => (.ok (), c.put t)
      | .error e => (.error e, c) := by
  rw [Loading.insert, run_bind, run_lift]
  cases t.validate <;> rfl

end Catalog

namespace Loading

variable {α β : Type} {work : Loading α} {next : α → Loading β}

def Keeps (work : Loading α) : Prop := ∀ c : Catalog, c.Valid → (c.run work).2.Valid

theorem keeps_pure (a : α) : Keeps (pure a) := fun _ hc => hc

theorem keeps_throw (e : RuleError) : Keeps (throw e : Loading α) := fun _ hc => hc

theorem keeps_lift (r : Except RuleError α) : Keeps (liftM r) := by
  intro c hc
  rwa [Catalog.run_lift]

theorem Keeps.bind (hwork : Keeps work) (hnext : ∀ a, Keeps (next a)) : Keeps (work >>= next) := by
  intro c hc
  have hleft := hwork c hc
  rw [Catalog.run_bind]
  cases h : c.run work with
  | mk result left =>
    rw [h] at hleft
    cases result with
    | ok a => exact hnext a left hleft
    | error e => exact hleft

theorem Keeps.tryCatch {rescue : RuleError → Loading α} (hwork : Keeps work)
    (hrescue : ∀ e, Keeps (rescue e)) : Keeps (tryCatch work rescue) := by
  intro c hc
  have hleft := hwork c hc
  rw [Catalog.run_tryCatch]
  cases h : c.run work with
  | mk result left =>
    rw [h] at hleft
    cases result with
    | ok a => exact hleft
    | error e => exact hrescue e left hleft

theorem keeps_insert (t : Table) : Keeps (insert t) := by
  intro c hc
  rw [Catalog.run_insert]
  cases ht : t.validate with
  | ok _ => exact hc.put ht
  | error e => exact hc

theorem keeps_text (s : Option String) : Keeps (text s) := by
  cases s with
  | none => exact keeps_throw _
  | some s => exact (keeps_lift _).bind fun t => (keeps_insert t).bind fun _ => keeps_pure _

theorem keeps_found (f : FoundFile) : Keeps (found f) := by
  rw [found]
  split
  · exact keeps_pure _
  split
  · exact keeps_pure _
  · refine Keeps.bind ?_ fun _ => keeps_pure _
    exact ((keeps_text _).bind fun _ => keeps_pure _).tryCatch fun _ => keeps_pure _

theorem keeps_scanned (fs : List (Option FoundFile)) : Keeps (scanned fs) := by
  induction fs with
  | nil => exact keeps_pure _
  | cons f fs ih =>
    rw [scanned, List.mapM_cons]
    refine Keeps.bind ?_ fun _ => ih.bind fun _ => keeps_pure _
    cases f with
    | none => exact keeps_throw _
    | some f => exact keeps_found f

theorem keeps_folder (root : List FileTree) (path : String) : Keeps (folder root path) := by
  rw [folder]
  split
  · exact keeps_scanned _
  · exact keeps_throw _

/-- Work that has changed nothing when it fails. -/
def Steady (work : Loading α) : Prop :=
  ∀ (c : Catalog) (e : RuleError), (c.run work).1 = .error e → (c.run work).2 = c

theorem steady_throw (e : RuleError) : Steady (throw e : Loading α) := fun _ _ _ => rfl

theorem steady_lift (r : Except RuleError α) (hnext : ∀ a, Steady (next a)) :
    Steady (liftM r >>= next) := by
  intro c e h
  rw [Catalog.run_bind, Catalog.run_lift] at h ⊢
  cases r with
  | ok a => exact hnext a c e h
  | error _ => rfl

theorem Steady.bind_pure (hwork : Steady work) (f : α → β) :
    Steady (work >>= fun a => pure (f a)) := by
  intro c e h
  have hleft := hwork c
  rw [Catalog.run_bind] at h ⊢
  cases hrun : c.run work with
  | mk result left =>
    rw [hrun] at h hleft
    cases result with
    | ok _ => exact nomatch h
    | error d => exact hleft d rfl

theorem steady_insert (t : Table) : Steady (insert t) :=
  steady_lift _ fun _ _ _ h => nomatch h

theorem steady_text (s : Option String) : Steady (text s) := by
  cases s with
  | none => exact steady_throw _
  | some s => exact steady_lift _ fun t => (steady_insert t).bind_pure fun _ => t.id

end Loading

namespace Catalog

inductive Call where
  | insert (t : Table)
  | loadFile (root : List FileTree) (path : String)
  | loadFolder (root : List FileTree) (path : String)

def Call.work : Call → Loading Unit
  | insert t => .insert t
  | loadFile root path => do let _ ← Loading.file root path
  | loadFolder root path => do let _ ← Loading.folder root path

def afterCalls (c : Catalog) (calls : List Call) : Catalog :=
  calls.foldl (fun c call => (c.run call.work).2) c

variable {start c : Catalog} {calls : List Call}

theorem Call.keeps (call : Call) : Loading.Keeps call.work := by
  cases call with
  | insert t => exact Loading.keeps_insert t
  | loadFile root path => exact (Loading.keeps_text _).bind fun _ => Loading.keeps_pure _
  | loadFolder root path =>
    exact (Loading.keeps_folder root path).bind fun _ => Loading.keeps_pure _

theorem Valid.afterCalls (hc : c.Valid) (calls : List Call) : (c.afterCalls calls).Valid := by
  induction calls generalizing c with
  | nil => exact hc
  | cons call calls ih => exact ih (call.keeps c hc)

/-- Whatever is called on the empty or the built-in catalog: a table is found under its own id and
has an answer to all facts, the ids are those of the tables in order, and no call on a single table
changes anything when it fails. -/
theorem stays_valid (hstart : start = .empty ∨ start = .builtin)
    (hc : start.afterCalls calls = c) :
    c.Valid ∧
      (∀ id t, c.get? id = some t ∨ c.require id = .ok t →
        t.id = id ∧ ∀ facts, ∃ r, t.evaluate facts = .ok r) ∧
      c.ids.Pairwise (· < ·) ∧ c.ids.length = c.size ∧
      c.ids.Perm (c.tables.entries.map fun e => e.2.id) ∧
      (∀ id, id ∈ c.ids ↔ ∃ t, c.get? id = some t) ∧
      (∀ t e, (c.run (.insert t)).1 = .error e → (c.run (.insert t)).2 = c) ∧
      ∀ root path e, (c.run (.file root path)).1 = .error e → (c.run (.file root path)).2 = c := by
  have hvalid : c.Valid := by
    subst hc
    rcases hstart with rfl | rfl
    · exact valid_empty.afterCalls calls
    · exact valid_builtin.afterCalls calls
  have hkeys : c.tables.names = c.tables.entries.map fun e => e.2.id :=
    List.map_congr_left fun e he => (hvalid e he).1.symm
  refine ⟨hvalid, ?_, pairwise_ids c, length_ids c, ?_, fun _ => mem_ids,
    fun t => Loading.steady_insert t c, fun root path => Loading.steady_text _ c⟩
  · intro id t hfound
    obtain ⟨hid, ht⟩ := hvalid.get? (hfound.elim (fun h => h) get?_of_require)
    exact ⟨hid, t.exists_evaluate ht⟩
  · exact hkeys ▸ List.mergeSort_perm _ _

def shelf : List FileTree := [.folder "rules" [.file "a.yml" none, .locked "b"]]

theorem run_shelf (c : Catalog) : c.run (.folder shelf "rules") = (.error .io, c) := by
  have hscan : FileTree.scan "rules" [.file "a.yml" none, .locked "b"] =
      [some ⟨"rules/a.yml", "a.yml", none⟩, none] := by
    rw [FileTree.scan, List.mergeSort_of_pairwise (by decide)]
    rfl
  change c.run (Loading.scanned (FileTree.scan "rules" _)) = _
  rw [hscan]
  rfl

def renamed : Table := { Table.applicationValidation with name := "Intake validation" }

def unruly : Table := { Table.notificationAction with rules := [] }

def sweep : List Call :=
  [.insert renamed, .insert unruly, .loadFile shelf "rules/c.yml", .loadFolder shelf "rules"]

theorem afterCalls_sweep : builtin.afterCalls sweep = builtin.put renamed := by
  change ((builtin.put renamed).run (Call.loadFolder shelf "rules").work).2 = _
  rw [Call.work, run_bind, run_shelf]

theorem stays_valid_swept :
    builtin.afterCalls sweep = builtin.put renamed ∧ (builtin.put renamed).Valid ∧
      (builtin.put renamed).ids = ["application-validation", "notification-action"] ∧
      ((builtin.put renamed).run (.insert unruly)).2 = builtin.put renamed ∧
      ∀ facts, ∃ r, renamed.evaluate facts = .ok r := by
  obtain ⟨hvalid, hfound, -, -, -, -, hinsert, -⟩ := stays_valid (.inr rfl) afterCalls_sweep
  have hget : (builtin.put renamed).get? "application-validation" = some renamed := rfl
  exact ⟨afterCalls_sweep, hvalid, List.mergeSort_of_pairwise (by decide),
    hinsert unruly _ rfl, (hfound _ _ (.inl hget)).2⟩

end Catalog

end Followup
