import Followup.Proofs.Settings.Lookup
import Followup.Proofs.Text.Pieces

/-! What a list of weekdays in text stands for. Each entry is a day, or a range of days that goes
forward around the week; the business days are those of all entries, however often, in whichever
order and with whatever blanks they are written. A text that is no such list is refused. -/

namespace Followup

open Text

namespace Weekday

variable {a b d : Weekday} {cs first last : List Char} {css : List (List Char)} {text : String}

/-! ## Ranges of days -/

def daysUntil (a b : Weekday) : Nat := (b.index + 7 - a.index) % 7

theorem daysUntil_self (a : Weekday) : a.daysUntil a = 0 := by cases a <;> rfl

theorem daysUntil_eq_zero : a.daysUntil b = 0 ↔ a = b := by
  constructor
  · intro h
    have ha := a.index_lt
    have hb := b.index_lt
    have hindex : a.index = b.index := by
      rw [daysUntil] at h
      omega
    rw [← ofIndex_index a, hindex, ofIndex_index]
  · rintro rfl
    exact a.daysUntil_self

theorem daysUntil_le (a b : Weekday) : a.daysUntil b ≤ 6 := by
  rw [daysUntil]
  omega

theorem daysUntil_next (h : a ≠ b) : a.daysUntil b = a.next.daysUntil b + 1 := by
  cases a <;> cases b <;> first | rfl | exact absurd rfl h

theorem mem_walk {steps : Nat} (h : a.daysUntil b ≤ steps) :
    d ∈ walk steps a b ↔ a.daysUntil d ≤ a.daysUntil b := by
  -- With each step both ways, to `b` and to `d`, are one day shorter, until the first one is over.
  induction steps generalizing a with
  | zero =>
    obtain rfl := daysUntil_eq_zero.1 (Nat.le_zero.1 h)
    rw [walk, List.mem_singleton, daysUntil_self, Nat.le_zero, daysUntil_eq_zero, eq_comm]
  | succ steps ih =>
    rw [walk]
    split
    · next hsame =>
      subst hsame
      rw [List.mem_singleton, daysUntil_self, Nat.le_zero, daysUntil_eq_zero, eq_comm]
    · next hne =>
      rw [daysUntil_next hne] at h ⊢
      rw [List.mem_cons, ih (Nat.le_of_succ_le_succ h)]
      by_cases hd : a = d
      · subst hd
        simp [daysUntil_self]
      · rw [daysUntil_next hd, or_iff_right (Ne.symm hd), Nat.add_le_add_iff_right]

/-! ## Entries -/

inductive Entry where
  | day (d : Weekday)
  | range (first last : Weekday)
deriving DecidableEq

namespace Entry

/-- An entry stands for its day, or for all days on the way forward from the first to the last. -/
def Covers : Entry → Weekday → Prop
  | day d', d => d = d'
  | range first last, d => first.daysUntil d ≤ first.daysUntil last

instance : (e : Entry) → (d : Weekday) → Decidable (e.Covers d)
  | day d', d => inferInstanceAs (Decidable (d = d'))
  | range first last, d =>
    inferInstanceAs (Decidable (first.daysUntil d ≤ first.daysUntil last))

def days : Entry → List Weekday
  | day d => [d]
  | range first last => walk 6 first last

theorem mem_days {e : Entry} : d ∈ e.days ↔ e.Covers d := by
  cases e with
  | day d' => exact List.mem_singleton
  | range first last => exact mem_walk (daysUntil_le first last)

theorem days_ne_nil (e : Entry) : e.days ≠ [] := by
  cases e with
  | day d => exact List.cons_ne_nil _ _
  | range first last => exact List.ne_nil_of_mem (mem_days.2 (Nat.le_refl (first.daysUntil last)))

end Entry

def Spelled (name : List Char) (d : Weekday) : Prop :=
  (trim name).map Char.toLower = d.short.toList.map Char.toLower ∨
    (trim name).map Char.toLower = d.long.toList.map Char.toLower

instance (name : List Char) (d : Weekday) : Decidable (Spelled name d) :=
  inferInstanceAs (Decidable (_ ∨ _))

/-- What an entry says: the name of a day, or two names with a hyphen between them. -/
inductive Says : List Char → Entry → Prop
  | day {name : List Char} {d : Weekday} (h : Spelled name d) : Says name (.day d)
  | range {first last : List Char} {a b : Weekday} (hfirst : Spelled first a)
    (hlast : Spelled last b) : Says (first ++ '-' :: last) (.range a b)

/-- The pieces of a list, some of them entries, in this order, and all others blank. -/
inductive Pieces : List (List Char) → List Entry → Prop
  | nil : Pieces [] []
  | blank {cs : List Char} {css : List (List Char)} {es : List Entry} (h : AreBlank cs)
    (hrest : Pieces css es) : Pieces (cs :: css) es
  | entry {cs : List Char} {css : List (List Char)} {e : Entry} {es : List Entry} (h : Says cs e)
    (hrest : Pieces css es) : Pieces (cs :: css) (e :: es)

def Lists (text : String) (es : List Entry) : Prop :=
  ∃ css, text.toList = [','].intercalate css ∧ Pieces css es

/-! ## Reading entries -/

theorem read_eq_ok_iff : read cs = .ok d ↔ Spelled cs d := by
  constructor
  · intro h
    simp only [read, ofName?, toLower_beq, String.toList_ofList] at h
    split at h
    · next found hfound =>
      cases h
      have hsame := List.find?_some hfound
      simp only [Bool.or_eq_true, beq_iff_eq] at hsame
      exact hsame.imp Eq.symm Eq.symm
    · cases h
  · intro h
    refine read_eq_ok ?_
    rcases h with h | h
    · rw [h]
      cases d <;> decide +kernel
    · rw [h]
      cases d <;> decide +kernel

theorem read_eq_error {e : SettingError} (h : read cs = .error e) :
    ∃ name, e = .unknownWeekday name ∧ ∀ d, ¬ Spelled name.toList d := by
  refine ⟨String.ofList (trim cs), ?_, fun d hd => ?_⟩
  · simp only [read] at h
    split at h
    · cases h
    · cases h
      rfl
  · rw [Spelled, String.toList_ofList, trim_trim] at hd
    cases h.symm.trans (read_eq_ok_iff.2 hd)

theorem read_congr (h : trim cs = trim first) : read cs = read first := by
  rw [read, read, h]

theorem Spelled.notMem {c : Char} (h : Spelled cs d) (hblank : isBlank c = false)
    (hletter : c.toLower.isAlpha = false) : c ∉ cs := by
  intro hmem
  have hlower : c.toLower ∈ (trim cs).map Char.toLower := List.mem_map_of_mem (mem_trim hmem hblank)
  have hletters : ∀ d ∈ all, (d.short.toList.map Char.toLower).all Char.isAlpha = true ∧
      (d.long.toList.map Char.toLower).all Char.isAlpha = true := by decide +kernel
  have hname : c.toLower.isAlpha = true := by
    rcases h with h | h
    · exact List.all_eq_true.1 (hletters d d.mem_all).1 _ (h ▸ hlower)
    · exact List.all_eq_true.1 (hletters d d.mem_all).2 _ (h ▸ hlower)
  cases hname.symm.trans hletter

theorem Spelled.trim_ne_nil (h : Spelled cs d) : trim cs ≠ [] := by
  intro hnil
  rw [Spelled, hnil] at h
  revert h
  cases d <;> decide +kernel

theorem readEntry_of_cut (h : cut? '-' cs = some (first, last)) :
    readEntry cs = (do return walk 6 (← read first) (← read last)) := by
  rw [readEntry, h]

theorem readEntry_of_not_cut (h : '-' ∉ cs) : readEntry cs = (do return [← read cs]) := by
  rw [readEntry, cut?_eq_none.2 h]

theorem readEntry_eq_ok_iff {days : List Weekday} :
    readEntry cs = .ok days ↔ ∃ e, Says cs e ∧ days = e.days := by
  constructor
  · intro h
    cases hcut : cut? '-' cs with
    | none =>
      rw [readEntry_of_not_cut (cut?_eq_none.1 hcut)] at h
      obtain ⟨d, hd, h⟩ := bind_eq_ok.1 h
      exact ⟨.day d, .day (read_eq_ok_iff.1 hd), (Except.ok.inj h).symm⟩
    | some parts =>
      obtain ⟨first, last⟩ := parts
      rw [readEntry_of_cut hcut] at h
      obtain ⟨a, ha, h⟩ := bind_eq_ok.1 h
      obtain ⟨b, hb, h⟩ := bind_eq_ok.1 h
      rw [(cut?_eq_some hcut).1]
      exact ⟨.range a b, .range (read_eq_ok_iff.1 ha) (read_eq_ok_iff.1 hb), (Except.ok.inj h).symm⟩
  · rintro ⟨e, hentry, rfl⟩
    cases hentry with
    | day h =>
      rw [readEntry_of_not_cut (h.notMem (by decide) (by decide)), read_eq_ok_iff.2 h]
      rfl
    | @range first last a b hfirst hlast =>
      have hcut := cut?_append (hfirst.notMem (c := '-') (by decide) (by decide)) last
      rw [readEntry_of_cut hcut, read_eq_ok_iff.2 hfirst, read_eq_ok_iff.2 hlast]
      rfl

theorem readEntry_eq_error {e : SettingError} (h : readEntry cs = .error e) :
    ∃ name, e = .unknownWeekday name ∧ ∀ d, ¬ Spelled name.toList d := by
  cases hcut : cut? '-' cs with
  | none =>
    rw [readEntry_of_not_cut (cut?_eq_none.1 hcut)] at h
    rcases bind_eq_error.1 h with h | ⟨d, -, h⟩
    · exact read_eq_error h
    · cases h
  | some parts =>
    obtain ⟨first, last⟩ := parts
    rw [readEntry_of_cut hcut] at h
    rcases bind_eq_error.1 h with h | ⟨a, -, h⟩
    · exact read_eq_error h
    · rcases bind_eq_error.1 h with h | ⟨b, -, h⟩
      · exact read_eq_error h
      · cases h

theorem readEntry_trim (cs : List Char) : readEntry (trim cs) = readEntry cs := by
  obtain ⟨before, after, hbefore, hafter, hcs⟩ := exists_trim cs
  have hread (name : List Char) : read (before ++ name) = read name :=
    read_congr (trim_blank_append hbefore name)
  have hread' (name : List Char) : read (name ++ after) = read name :=
    read_congr (trim_append_blank hafter name)
  have hno {blanks : List Char} (h : AreBlank blanks) : '-' ∉ blanks :=
    fun hin => absurd (h '-' hin) (by decide)
  -- The blanks hold no hyphen, so the entry is cut at the same one with them and without.
  cases hcut : cut? '-' (trim cs) with
  | none =>
    have htrim := cut?_eq_none.1 hcut
    have hwhole : '-' ∉ cs := by
      rw [hcs]
      simp [hno hbefore, hno hafter, htrim]
    rw [readEntry_of_not_cut htrim, readEntry_of_not_cut hwhole, read_congr (trim_trim cs)]
  | some parts =>
    obtain ⟨first, last⟩ := parts
    obtain ⟨htrim, hfirst⟩ := cut?_eq_some hcut
    have hwhole : cut? '-' cs = some (before ++ first, last ++ after) := by
      rw [hcs, htrim, List.append_assoc, List.cons_append, ← List.append_assoc]
      exact cut?_append (by simp [hno hbefore, hfirst]) _
    rw [readEntry_of_cut hcut, readEntry_of_cut hwhole, hread, hread']

/-! ## Reading lists -/

theorem Says.trim_ne_nil {e : Entry} (h : Says cs e) : trim cs ≠ [] := by
  cases h with
  | day h => exact h.trim_ne_nil
  | range =>
    exact List.ne_nil_of_mem (mem_trim (List.mem_append_right _ (.head _)) (by decide))

theorem Says.notMem {e : Entry} (h : Says cs e) : ',' ∉ cs := by
  cases h with
  | day h => exact h.notMem (by decide) (by decide)
  | range hfirst hlast =>
    have hno := hfirst.notMem (c := ',') (by decide) (by decide)
    have hno' := hlast.notMem (c := ',') (by decide) (by decide)
    simp [hno, hno']

theorem Pieces.notMem {es : List Entry} (h : Pieces css es) : ∀ cs ∈ css, ',' ∉ cs := by
  induction h with
  | nil => exact List.forall_mem_nil _
  | blank h _ ih => exact List.forall_mem_cons.2 ⟨fun hin => absurd (h ',' hin) (by decide), ih⟩
  | entry h _ ih => exact List.forall_mem_cons.2 ⟨h.notMem, ih⟩

theorem lists_iff {es : List Entry} : Lists text es ↔ Pieces (split ',' text.toList) es := by
  constructor
  · rintro ⟨css, htext, hpieces⟩
    by_cases hne : css = []
    · subst hne
      cases hpieces
      rw [htext]
      exact .blank (List.forall_mem_nil _) .nil
    · rwa [htext, split_intercalate hne hpieces.notMem]
  · intro h
    exact ⟨_, (intercalate_split ',' _).symm, h⟩

def entriesOf (css : List (List Char)) : List (List Char) := (css.map trim).filter (!·.isEmpty)

theorem entriesOf_blank (h : AreBlank cs) (css : List (List Char)) :
    entriesOf (cs :: css) = entriesOf css := by
  rw [entriesOf, List.map_cons, trim_eq_nil.2 h]
  rfl

theorem entriesOf_cons (h : trim cs ≠ []) (css : List (List Char)) :
    entriesOf (cs :: css) = trim cs :: entriesOf css := by
  rw [entriesOf, List.map_cons, List.filter_cons_of_pos (by simpa using h)]
  rfl

theorem mapM_of_pieces {es : List Entry} (h : Pieces css es) :
    (entriesOf css).mapM readEntry = .ok (es.map Entry.days) := by
  induction h with
  | nil => rfl
  | blank h _ ih => rw [entriesOf_blank h, ih]
  | entry h _ ih =>
    rw [entriesOf_cons h.trim_ne_nil, List.mapM_cons, readEntry_trim,
      readEntry_eq_ok_iff.2 ⟨_, h, rfl⟩, ok_bind, ih]
    rfl

theorem pieces_or_error (css : List (List Char)) :
    (∃ es, Pieces css es) ∨ ∃ name, (entriesOf css).mapM readEntry = .error (.unknownWeekday name) ∧
      ∀ d, ¬ Spelled name.toList d := by
  induction css with
  | nil => exact .inl ⟨[], .nil⟩
  | cons cs css ih =>
    by_cases hblank : AreBlank cs
    · rw [entriesOf_blank hblank]
      exact ih.imp_left fun ⟨es, hes⟩ => ⟨es, .blank hblank hes⟩
    · rw [entriesOf_cons (mt trim_eq_nil.1 hblank), List.mapM_cons, readEntry_trim]
      cases hread : readEntry cs with
      | error e =>
        obtain ⟨name, rfl, hname⟩ := readEntry_eq_error hread
        exact .inr ⟨name, rfl, hname⟩
      | ok days =>
        obtain ⟨e, he, -⟩ := readEntry_eq_ok_iff.1 hread
        rcases ih with ⟨es, hes⟩ | ⟨name, herror, hname⟩
        · exact .inl ⟨e :: es, .entry he hes⟩
        · rw [ok_bind, herror]
          exact .inr ⟨name, rfl, hname⟩

theorem readList_of_lists {es : List Entry} (h : Lists text es) (hne : es ≠ []) :
    readList text = .ok (es.flatMap Entry.days) := by
  have hmap : (entries text).mapM readEntry = .ok (es.map Entry.days) :=
    mapM_of_pieces (lists_iff.1 h)
  obtain ⟨e, es, rfl⟩ := List.exists_cons_of_ne_nil hne
  have hsome : ((e :: es).map Entry.days).flatten ≠ [] := by
    rw [List.map_cons, List.flatten_cons]
    exact List.append_ne_nil_of_left_ne_nil e.days_ne_nil _
  rw [readList, hmap, ok_bind, if_neg (mt List.isEmpty_iff.1 hsome), List.flatMap_def]
  rfl

theorem readList_of_blank (h : Lists text []) : readList text = .error (.noWeekday text) := by
  have hmap : (entries text).mapM readEntry = .ok [] := mapM_of_pieces (lists_iff.1 h)
  rw [readList, hmap]
  rfl

theorem readList_of_stray (h : ∀ es, ¬ Lists text es) :
    ∃ name, readList text = .error (.unknownWeekday name) ∧ ∀ d, ¬ Spelled name.toList d := by
  rcases pieces_or_error (split ',' text.toList) with ⟨es, hes⟩ | ⟨name, herror, hname⟩
  · exact absurd (lists_iff.2 hes) (h es)
  · have hmap : (entries text).mapM readEntry = .error (.unknownWeekday name) := herror
    refine ⟨name, ?_, hname⟩
    rw [readList, hmap, error_bind]

/-! ## Days in order -/

theorem sorted_increasing (days : List Weekday) :
    (sorted days).Pairwise fun a b => a.index < b.index := by
  have hall : all.Pairwise fun a b => a.index < b.index := by decide
  exact hall.filter _

theorem sorted_congr {days days' : List Weekday} (h : ∀ d, d ∈ days ↔ d ∈ days') :
    sorted days = sorted days' := by
  refine List.filter_congr fun d _ => ?_
  rw [Bool.eq_iff_iff, List.contains_iff_mem, List.contains_iff_mem, h]

theorem mem_sorted_days {es : List Entry} :
    d ∈ sorted (es.flatMap Entry.days) ↔ ∃ e ∈ es, e.Covers d := by
  simp only [mem_sorted, List.mem_flatMap, Entry.mem_days]

theorem sorted_days_ne_nil {es : List Entry} (hne : es ≠ []) :
    sorted (es.flatMap Entry.days) ≠ [] := by
  obtain ⟨e, he⟩ := List.exists_mem_of_ne_nil es hne
  obtain ⟨d, hd⟩ := List.exists_mem_of_ne_nil e.days e.days_ne_nil
  exact List.ne_nil_of_mem (mem_sorted.2 (List.mem_flatMap.2 ⟨e, he, hd⟩))

theorem sorted_days_congr {es es' : List Entry} (h : ∀ e, e ∈ es' ↔ e ∈ es) :
    sorted (es'.flatMap Entry.days) = sorted (es.flatMap Entry.days) := by
  refine sorted_congr fun d => ?_
  simp only [List.mem_flatMap, h]

end Weekday

namespace BusinessHours

open Weekday Fallible

variable {text start finish zone : String} {t u : TimeOfDay} {z : Zone} {days : List Weekday}

/-- The texts of a window: two times of day, one before the other, and a zone. -/
structure IsWindow (start finish zone : String) (t u : TimeOfDay) (z : Zone) : Prop where
  start_eq : TimeOfDay.read start = .ok t
  finish_eq : TimeOfDay.read finish = .ok u
  zone_eq : (Zone.read zone).run = .ok (.ok z)
  lt : t < u

theorem read_of_days (hdays : readList text = .ok days) (hwindow : IsWindow start finish zone t u z)
    (hne : sorted days ≠ []) :
    (read text start finish zone).run = .ok (.ok ⟨sorted days, t, u, z, hne, hwindow.lt⟩) := by
  rw [read, bind_of_ok (liftExcept_eq_ok.2 hdays), bind_of_ok (liftExcept_eq_ok.2 hwindow.start_eq),
    bind_of_ok (liftExcept_eq_ok.2 hwindow.finish_eq), bind_of_ok hwindow.zone_eq]
  refine liftExcept_eq_ok.2 ?_
  rw [build, dif_pos hne, dif_pos hwindow.lt]

theorem read_of_no_days {e : SettingError} (h : readList text = .error e) :
    (read text start finish zone).run = .ok (.error e) := by
  rw [read, h]
  rfl

/-- A list of weekdays is read with any window. The days are in their order, and they are those that
the entries stand for, so lists with the same entries are the same. A text without entries is
refused, and so is one with anything else between its commas. -/
theorem days_of_lists (text start finish zone : String) :
    (∀ es t u z, Lists text es → es ≠ [] → IsWindow start finish zone t u z →
      ∃ hours, (read text start finish zone).run = .ok (.ok hours) ∧
        hours.days.Pairwise (fun a b => a.index < b.index) ∧
        (∀ d, d ∈ hours.days ↔ ∃ e ∈ es, e.Covers d) ∧
        (hours.start = t ∧ hours.finish = u ∧ hours.zone = z) ∧
        ∀ text' es', Lists text' es' → (∀ e, e ∈ es' ↔ e ∈ es) →
          (read text' start finish zone).run = .ok (.ok hours)) ∧
      (Lists text [] → (read text start finish zone).run = .ok (.error (.noWeekday text))) ∧
      ((∀ es, ¬ Lists text es) →
        ∃ name, (read text start finish zone).run = .ok (.error (.unknownWeekday name)) ∧
          ∀ d, ¬ Spelled name.toList d) := by
  refine ⟨fun es t u z hlists hne hwindow => ?_, fun h => ?_, fun h => ?_⟩
  · have hdays := readList_of_lists hlists hne
    have hsorted := sorted_days_ne_nil hne
    refine ⟨_, read_of_days hdays hwindow hsorted, sorted_increasing _, fun d => mem_sorted_days,
      ⟨rfl, rfl, rfl⟩, fun text' es' hlists' hsame => ?_⟩
    have hne' : es' ≠ [] := by
      obtain ⟨e, he⟩ := List.exists_mem_of_ne_nil es hne
      exact List.ne_nil_of_mem ((hsame e).2 he)
    rw [read_of_days (readList_of_lists hlists' hne') hwindow (sorted_days_ne_nil hne')]
    simp only [sorted_days_congr hsame]
  · exact read_of_no_days (readList_of_blank h)
  · obtain ⟨name, herror, hname⟩ := readList_of_stray h
    exact ⟨name, read_of_no_days herror, hname⟩

theorem lists_weekend :
    Lists " Fri - mon,, WEDNESDAY,mon " [.range .fri .mon, .day .wed, .day .mon] := by
  have hrange : Weekday.Says (" Fri ".toList ++ '-' :: " mon".toList) (.range .fri .mon) :=
    .range (by decide +kernel) (by decide +kernel)
  have hwed : Weekday.Says " WEDNESDAY".toList (.day .wed) := .day (by decide +kernel)
  have hmon : Weekday.Says "mon ".toList (.day .mon) := .day (by decide +kernel)
  exact ⟨_, by decide +kernel,
    .entry hrange (.blank (List.forall_mem_nil _) (.entry hwed (.entry hmon .nil)))⟩

theorem not_lists_funday (es : List Entry) : ¬ Lists "mon-funday" es := by
  have hsplit : split ',' "mon-funday".toList = ["mon-funday".toList] := by decide +kernel
  have hcut : cut? '-' "mon-funday".toList = some ("mon".toList, "funday".toList) := by
    decide +kernel
  have hfunday : ∀ d ∈ all, ¬ Spelled "funday".toList d := by decide +kernel
  have hwhole : ∀ d ∈ all, ¬ Spelled "mon-funday".toList d := by decide +kernel
  rw [lists_iff, hsplit]
  -- A long text is slow to compare, and its characters are not needed from here on.
  generalize hcs : "mon-funday".toList = cs at *
  rintro (_ | ⟨hblank, -⟩ | ⟨hentry, -⟩)
  · have hm : 'm' ∈ cs := by
      rw [← hcs]
      decide +kernel
    exact absurd (hblank 'm' hm) (by decide)
  · cases hentry with
    | day h => exact hwhole _ (mem_all _) h
    | range hfirst hlast =>
      rw [cut?_append (hfirst.notMem (by decide) (by decide))] at hcut
      obtain ⟨-, rfl⟩ := Prod.mk.inj (Option.some.inj hcut)
      exact hfunday _ (mem_all _) hlast

theorem isWindow_standard :
    IsWindow "06:00" "22:00" "UTC" standard.start standard.finish .utc :=
  ⟨by decide +kernel, by decide +kernel, Zone.read_utc, by decide⟩

theorem days_of_lists_weekend :
    (Lists " Fri - mon,, WEDNESDAY,mon " [.range .fri .mon, .day .wed, .day .mon] ∧
      IsWindow "06:00" "22:00" "UTC" standard.start standard.finish .utc ∧
      ∃ hours, (read " Fri - mon,, WEDNESDAY,mon " "06:00" "22:00" "UTC").run = .ok (.ok hours) ∧
        .sun ∈ hours.days ∧ .thu ∉ hours.days) ∧
      (Lists " ," [] ∧ (read " ," "06:00" "22:00" "UTC").run = .ok (.error (.noWeekday " ,"))) ∧
      (∀ es, ¬ Lists "mon-funday" es) ∧
        ∃ name, (read "mon-funday" "06:00" "22:00" "UTC").run = .ok (.error (.unknownWeekday name)) := by
  have hblank : Lists " ," [] :=
    ⟨[[' '], []], by decide +kernel, .blank (by decide +kernel) (.blank (List.forall_mem_nil _) .nil)⟩
  obtain ⟨hours, hread, -, hmem, -⟩ :=
    (days_of_lists _ _ _ _).1 _ _ _ _ lists_weekend (List.cons_ne_nil _ _) isWindow_standard
  obtain ⟨name, herror, -⟩ :=
    (days_of_lists "mon-funday" "06:00" "22:00" "UTC").2.2 not_lists_funday
  exact ⟨⟨lists_weekend, isWindow_standard, hours, hread, (hmem _).2 (by decide),
    mt (hmem _).1 (by decide)⟩, ⟨hblank, (days_of_lists _ _ _ _).2.1 hblank⟩, not_lists_funday, name,
    herror⟩

end BusinessHours

end Followup
