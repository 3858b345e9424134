import Followup.Proofs.Calendar.LocalTime

/-! Stretches of local time that no change of the clocks touches. A change skips or repeats what lies
between the two readings that the clocks show at it, the one before and the one after; away from
these a zone is like one with a fixed offset. -/

namespace Followup

namespace History

variable {history : History} {base : Offset} {first last : Int}

def readingsFrom (base : Offset) : List (Int × Offset) → List (Int × Int)
  | [] => []
  | (turn, next) :: rest =>
    (turn + base.seconds, turn + next.seconds) :: readingsFrom next rest

def readings (history : History) : List (Int × Int) := readingsFrom history.base history.changes

def Ordered (history : History) : Prop := (history.changes.map Prod.fst).Pairwise (· ≤ ·)

instance (history : History) : Decidable history.Ordered :=
  inferInstanceAs (Decidable (List.Pairwise _ _))

def Apart (first last : Int) (shown : Int × Int) : Prop :=
  last < Min.min shown.1 shown.2 ∨ Max.max shown.1 shown.2 ≤ first

theorem all_since {since? : Option Int} {second : Int}
    (hsince : ∀ since ∈ since?, since ≤ first - base.seconds) (hle : first ≤ second) :
    since?.all (· ≤ second - base.seconds) = true := by
  cases since? with
  | none => rfl
  | some since =>
    have hfirst := hsince since rfl
    rw [Option.all_some, decide_eq_true_iff]
    omega

theorem exists_offsetFrom (hle : first ≤ last) (changes : List (Int × Offset)) (base : Offset)
    (since? : Option Int) (hsince : ∀ since ∈ since?, since ≤ first - base.seconds)
    (hordered : (since?.toList ++ changes.map Prod.fst).Pairwise (· ≤ ·))
    (hapart : ∀ shown ∈ readingsFrom base changes, Apart first last shown) :
    ∃ o : Offset, (∀ since ∈ since?, since ≤ first - o.seconds) ∧
      localFrom? since? base first changes = some o ∧
      localFrom? since? base last changes = some o ∧
      ∀ utc, first - o.seconds ≤ utc → utc ≤ last - o.seconds → offsetFrom base utc changes = o := by
  induction changes generalizing base since? with
  | nil =>
    refine ⟨base, hsince, ?_, ?_, fun utc _ _ => rfl⟩
    · rw [localFrom?, if_pos (all_since hsince (Int.le_refl first))]
    · rw [localFrom?, if_pos (all_since hsince hle)]
  | cons change rest ih =>
    obtain ⟨turn, next⟩ := change
    -- Either the change comes behind the stretch, and the walk stops here,
    -- or all of the stretch comes behind the change.
    rcases hapart _ (List.mem_cons_self ..) with hbefore | hafter
    · have hlast : last - base.seconds < turn := by
        dsimp only at hbefore
        omega
      refine ⟨base, hsince, ?_, ?_, fun utc _ hutc => ?_⟩
      · rw [localFrom?, if_pos ⟨all_since hsince (Int.le_refl first), by omega⟩]
      · rw [localFrom?, if_pos ⟨all_since hsince hle, hlast⟩]
      · rw [offsetFrom, if_pos (by omega)]
    · have hturn : turn ≤ first - base.seconds ∧ turn ≤ first - next.seconds := by
        dsimp only at hafter
        omega
      have hsorted : (turn :: rest.map Prod.fst).Pairwise (· ≤ ·) :=
        (List.pairwise_append.1 hordered).2.1
      obtain ⟨o, hfrom, hfirst, hlast, hutc⟩ := ih next (some turn)
        (fun since hmem => Option.mem_some.1 hmem ▸ hturn.2) hsorted
        (fun shown hmem => hapart shown (List.mem_cons_of_mem _ hmem))
      have hturno : turn ≤ first - o.seconds := hfrom turn rfl
      refine ⟨o, fun since hmem => ?_, ?_, ?_, fun utc hle hge => ?_⟩
      · have hst : since ≤ turn := (List.pairwise_append.1 hordered).2.2 since
          (Option.mem_toList.2 hmem) turn (List.mem_cons_self ..)
        omega
      · rw [localFrom?, if_neg (by omega)]
        exact hfirst
      · rw [localFrom?, if_neg (by omega)]
        exact hlast
      · rw [offsetFrom, if_neg (by omega)]
        exact hutc utc hle hge

end History

namespace Zone

variable {zone : Zone} {history : History} {first last : WallTime}

/-- On a stretch of local time, its two ends included, the clocks of a zone keep one offset. -/
structure Steady (zone : Zone) (first last : WallTime) (offset : Offset) : Prop where
  of_first : zone.resolve first = Reading.checked ⟨first.second - offset.seconds, first.nano⟩
  of_last : zone.resolve last = Reading.checked ⟨last.second - offset.seconds, last.nano⟩
  between : ∀ t : Instant, first.second - offset.seconds ≤ t.second →
    t.second ≤ last.second - offset.seconds → zone.offsetAt t = offset

theorem steady_fixed (offset : Offset) (first last : WallTime) :
    (fixed offset).Steady first last offset := ⟨rfl, rfl, fun _ _ _ => rfl⟩

theorem steady_named (name : String) (hordered : history.Ordered)
    (hle : first.second ≤ last.second)
    (hapart : ∀ shown ∈ history.readings, History.Apart first.second last.second shown) :
    ∃ offset, (named name history).Steady first last offset := by
  obtain ⟨o, -, hfirst, hlast, hutc⟩ := History.exists_offsetFrom hle history.changes history.base
    none (fun _ hmem => nomatch hmem) hordered hapart
  have hfirst : history.localOffset? first.second = some o := hfirst
  have hlast : history.localOffset? last.second = some o := hlast
  refine ⟨o, ?_, ?_, fun t hle hge => hutc t.second hle hge⟩
  · simp only [resolve, hfirst]
  · simp only [resolve, hlast]

end Zone

end Followup
