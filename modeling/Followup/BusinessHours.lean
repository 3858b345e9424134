import Followup.Calendar.Zone
import Followup.SettingError

/-! Business hours: on each of some weekdays a window of local time, which holds its start and not
its end. Time outside the windows does not count as business time. -/

namespace Followup

def Weekday.sorted (days : List Weekday) : List Weekday := Weekday.all.filter days.contains

theorem Weekday.mem_sorted {d : Weekday} {days : List Weekday} : d ∈ sorted days ↔ d ∈ days := by
  simp only [sorted, List.mem_filter, d.mem_all, true_and, List.contains_iff_mem]

structure BusinessHours where
  days : List Weekday
  start : TimeOfDay
  finish : TimeOfDay
  zone : Zone
  days_ne_nil : days ≠ []
  start_lt_finish : start < finish
deriving DecidableEq

namespace BusinessHours

def build (days : List Weekday) (start finish : TimeOfDay) (zone : Zone) :
    Except SettingError BusinessHours :=
  if hd : Weekday.sorted days ≠ [] then
    if ht : start < finish then .ok ⟨Weekday.sorted days, start, finish, zone, hd, ht⟩
    else .error (.startNotBeforeEnd start finish)
  else .error .emptyWeek

theorem of_build {days : List Weekday} {start finish : TimeOfDay} {zone : Zone}
    {h : BusinessHours} (hnew : build days start finish zone = .ok h) :
    (∀ d, d ∈ h.days ↔ d ∈ days) ∧ h.start = start ∧ h.finish = finish ∧ h.zone = zone := by
  rw [build] at hnew
  split at hnew
  · split at hnew
    · cases hnew
      exact ⟨fun d => Weekday.mem_sorted, rfl, rfl, rfl⟩
    · cases hnew
  · cases hnew

def standard : BusinessHours where
  days := [.mon, .tue, .wed, .thu, .fri]
  start := ⟨21600, 0, by decide, by decide⟩
  finish := ⟨79200, 0, by decide, by decide⟩
  zone := .utc
  days_ne_nil := by decide
  start_lt_finish := by decide

def isBusinessDay (h : BusinessHours) (date : Date) : Bool := h.days.contains date.weekday

def localDate (h : BusinessHours) (t : Instant) : Checked Date := do
  return (← h.zone.wallTime t).date

def startOn (h : BusinessHours) (date : Date) : Checked Instant :=
  h.zone.resolve (.ofDate date h.start)

def finishOn (h : BusinessHours) (date : Date) : Checked Instant :=
  h.zone.resolve (.ofDate date h.finish)

def isOpen (h : BusinessHours) (t : Instant) : Checked Bool := do
  let date ← h.localDate t
  if h.isBusinessDay date then
    if (← h.startOn date) ≤ t then return decide (t < (← h.finishOn date))
    else return false
  else return false

def scan (h : BusinessHours) (t : Instant) : (days : Nat) → Date → Checked Instant
  | 0, _ => .error .endless
  | days + 1, date => do
    if h.isBusinessDay date then
      let start ← h.startOn date
      if t ≤ start then return start
    scan h t days (← date.next)

/-- No search passes this many dates: offsets move a window by fewer than two days, and every
week has a business day. -/
def scanLimit : Nat := 16

def nextStart (h : BusinessHours) (t : Instant) : Checked Instant := do
  h.scan t scanLimit (← h.localDate t)

def firstOpen (h : BusinessHours) (t : Instant) : Checked Instant := do
  if ← h.isOpen t then return t else h.nextStart t

def spend (h : BusinessHours) : (rounds : Nat) → Instant → Span → Checked Instant
  | 0, _, _ => .error .endless
  | rounds + 1, cursor, remaining => do
    if remaining ≤ Span.zero then return cursor
    let close ← h.finishOn (← h.localDate cursor)
    let available := close.since cursor
    if remaining < available then cursor.add remaining
    else spend h rounds (← h.nextStart close) (remaining - available)

/-- No walk that ends has more rounds: all but the first begin at the window starts of different
dates, and a walk that comes to a start again has no less to use up there, and goes round for
ever. -/
def spendLimit : Nat := (Date.lastDay - Date.firstDay).toNat + 2

/-- The first open instant at which an amount of business time has passed. -/
def add (h : BusinessHours) (t : Instant) (amount : Span) : Checked Instant := do
  h.spend spendLimit (← h.firstOpen t) amount

def share (h : BusinessHours) (t u : Instant) (date : Date) : Checked Span := do
  if h.isBusinessDay date then
    let low := (← h.startOn date).max t
    let high := (← h.finishOn date).min u
    return if low < high then high.since low else .zero
  else return .zero

def collect (h : BusinessHours) (t u : Instant) : (days : Nat) → Date → Span → Checked Span
  | 0, _, total => .ok total
  | days + 1, date, total => do
    let part ← h.share t u date
    collect h t u days (← date.next) (total + part)

/-- The business time from one instant to another, zero when the second is not later. -/
def between (h : BusinessHours) (t u : Instant) : Checked Span := do
  if u ≤ t then return .zero
  let first ← h.localDate t
  let last ← h.localDate u
  h.collect t u (last.day - first.day + 1).toNat first .zero

end BusinessHours

end Followup
