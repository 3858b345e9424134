import Followup.Calendar.Instant
import Followup.Calendar.Offset

/-! Time zones: a fixed offset, or a name with the history of its offset. A wall-clock reading that
a zone shows twice stands for the earlier instant; one that it skips is read with the offset that
was in force a day before. -/

namespace Followup

/-- The offset at the beginning, and each later change with the second of UTC at which it takes
effect, in order. -/
structure History where
  base : Offset
  changes : List (Int × Offset)
deriving DecidableEq

namespace History

def offsetFrom (base : Offset) (utc : Int) : List (Int × Offset) → Offset
  | [] => base
  | (since, next) :: rest => if utc < since then base else offsetFrom next utc rest

def offsetAt (h : History) (utc : Int) : Offset := offsetFrom h.base utc h.changes

/-- The first offset that is in force at the instant which it gives to a local second. Offsets
before `since?` have been tried. -/
def localFrom? (since? : Option Int) (base : Offset) (second : Int) :
    List (Int × Offset) → Option Offset
  | [] => if since?.all (· ≤ second - base.seconds) then some base else none
  | (upto, next) :: rest =>
    if since?.all (· ≤ second - base.seconds) ∧ second - base.seconds < upto then some base
    else localFrom? (some upto) next second rest

def localOffset? (h : History) (second : Int) : Option Offset :=
  localFrom? none h.base second h.changes

def alternating (first second : Int) (turns : List Int) : History :=
  { base := .ofMinutes first, changes := go second first turns }
where
  go (next other : Int) : List Int → List (Int × Offset)
    | [] => []
    | t :: ts => (t, .ofMinutes next) :: go other next ts

end History

inductive Zone where
  | fixed (offset : Offset)
  | named (name : String) (history : History)
deriving DecidableEq

namespace Zone

def utc : Zone := fixed .utc

def write : Zone → String
  | fixed offset => if offset.seconds = 0 then "UTC" else offset.write
  | named name _ => name

def offsetAt : Zone → Instant → Offset
  | fixed offset, _ => offset
  | named _ history, t => history.offsetAt t.second

def wallTime (zone : Zone) (t : Instant) : Checked WallTime :=
  Reading.checked ⟨t.second + (zone.offsetAt t).seconds, t.nano⟩

def resolve : Zone → WallTime → Checked Instant
  | fixed offset, w => Reading.checked ⟨w.second - offset.seconds, w.nano⟩
  | named _ history, w =>
    match history.localOffset? w.second with
    | some offset => Reading.checked ⟨w.second - offset.seconds, w.nano⟩
    | none => do
      -- A reading that the clock skips is taken by the offset of the day before.
      let dayBefore ← w.sub (.ofDays 1)
      w.sub (.ofSeconds (history.offsetAt dayBefore.second).seconds)

end Zone

end Followup
