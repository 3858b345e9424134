import Followup.Proofs.BusinessHours.Membership
import Followup.Proofs.Engine.Run

/-! Nothing is sent, and nothing wakes, outside business hours. Whatever the table asks for, a send
waits for the hours to be open; and a wake-up is armed for the start of a window, for the end of a
wait, which is in a window too, or for the time of a send itself. -/

namespace Followup

namespace Engine

variable {e e' e₀ : Engine} {c c' : Case} {id : CaseId} {stage : Stage} {now first wakeAt : Instant}
  {p : Plan} {reason : WakeReason} {target : Option Stage} {op : Operation}
  {r : Except EngineError Reply} {l : List Step} {offset : Offset}

section Wake

variable (hd : e.settings.hours.Daily) (hf : e.settings.hours.finish.nano ≤ 1000000000)
include hd hf

theorem nextStageAt_covers (ho : e.settings.hours.isOpen now = .ok true)
    (hn : e.nextStageAt stage first now = .ok (some wakeAt)) :
    now ≤ wakeAt ∧ e.settings.hours.Covers wakeAt := by
  have latest {v : Instant} (hv : e.settings.hours.Covers v) (hmax : v.max now = wakeAt) :
      now ≤ wakeAt ∧ e.settings.hours.Covers wakeAt := by
    subst hmax
    refine ⟨(Reading.le_max v now).2, ?_⟩
    rw [Reading.max]
    split
    · exact ((hd.isOpen_ends now).of_eq_ok ho).1 rfl
    · exact hv
  simp only [nextStageAt] at hn
  split at hn
  · cases hn
  · split at hn
    · obtain ⟨v, hadd, hn⟩ := bind_eq_ok.1 hn
      exact latest ((hd.add_ends hf now _).of_eq_ok hadd).2 (Option.some.inj (Except.ok.inj hn))
    · obtain ⟨v, hadd, hn⟩ := bind_eq_ok.1 hn
      exact latest ((hd.add_ends hf first _).of_eq_ok hadd).2 (Option.some.inj (Except.ok.inj hn))

theorem wake_of_plan (hp : e.plan c stage now = .ok p) (hw : p.wake? = some (reason, wakeAt)) :
    now ≤ wakeAt ∧ e.settings.hours.Covers wakeAt := by
  have hg := grounds_of_plan hp
  cases p with
  | defer kind at' =>
    cases hw
    exact (hd.nextStart_ends now).of_eq_ok hg.2
  | send kind at' =>
    cases hw
    exact nextStageAt_covers hd hf hg.2.1 hg.2.2
  | fail | conclude | sendLast => cases hw

theorem Moved.armed_covers (hm : Moved e c now target e' c') :
    e'.timers.armed = e.timers.armed ∨ ∃ q : WakeRequest,
      e'.timers.armed = e.timers.armed ++ [q] ∧ now ≤ q.wakeAt ∧
        e.settings.hours.Covers q.wakeAt := by
  cases hm with
  | @rearmed stage p reason wakeAt hp hw =>
    refine .inr ⟨⟨c.id, e.lastSeq + 1, wakeAt⟩, ?_, wake_of_plan hd hf hp hw⟩
    rw [tell_timers]
    exact TimerBook.armed_rearm ..
  | closed => exact .inl (by rw [tell_timers]; exact TimerBook.armed_release ..)
  | ended => exact .inl (by rw [tell_timers]; exact TimerBook.armed_release ..)

end Wake

def sentAt? : Command → Option Instant
  | .notify _ _ _ .sendNow _ at' => some at'
  | _ => none

def SentOpen (h : BusinessHours) (cs : List Command) : Prop :=
  ∀ cmd ∈ cs, ∀ t ∈ sentAt? cmd, h.isOpen t = .ok true

theorem sentOpen_notices (hp : e.plan c stage now = .ok p) (d : Case) :
    SentOpen e.settings.hours (p.notices d now) := by
  have hg := grounds_of_plan hp
  intro cmd hcmd t ht
  cases p with
  | fail => cases hcmd
  | conclude | defer =>
    obtain rfl := List.mem_singleton.1 hcmd
    cases ht
  | send | sendLast =>
    obtain rfl := List.mem_singleton.1 hcmd
    obtain rfl := Option.some.inj ht
    exact hg.2.1

theorem sentOpen_ending (h : BusinessHours) (id : CaseId) (outcome : Outcome)
    (diagnostic : Option String) (now : Instant) :
    SentOpen h [.resolved id outcome diagnostic now] := by
  intro cmd hcmd t ht
  obtain rfl := List.mem_singleton.1 hcmd
  cases ht

theorem Moved.sentOpen (hm : Moved e c now target e' c') (hl : e.listening = true)
    (hs : SentOpen e.settings.hours e.commands) : SentOpen e.settings.hours e'.commands := by
  have told {e₁ : Engine} {ds : List Command} (hl : e₁.listening = true)
      (hs : SentOpen e.settings.hours e₁.commands) (hds : SentOpen e.settings.hours ds) :
      SentOpen e.settings.hours (e₁.tell ds).commands := by
    simp only [tell, hl, if_true]
    exact List.forall_mem_append.2 ⟨hs, hds⟩
  cases hm with
  | rearmed hp => exact told hl hs (sentOpen_notices hp _)
  | closed hp =>
    exact told hl hs (List.forall_mem_append.2 ⟨sentOpen_notices hp _, sentOpen_ending _ _ _ _ _⟩)
  | ended => exact told hl hs (sentOpen_ending _ _ _ _ _)

/-- The time at which a step looks at a case: the one given to a start, or the reading of the clock
for a firing. -/
def Step.Reads (x : Step) (now : Instant) : Prop :=
  (∃ id reason, x.op = .start id reason now) ∨
    x.op.firing?.isSome ∧ x.before.clock.read = .ok now

def Step.Arms (x : Step) (q : WakeRequest) : Prop :=
  x.after.timers.armed = x.before.timers.armed ++ [q] ∧
    ∃ now, x.Reads now ∧ now ≤ q.wakeAt ∧ x.before.settings.hours.Covers q.wakeAt

theorem Performed.sentOpen (h : Performed e op r e') (hl : e.listening = true)
    (hs : SentOpen e.settings.hours e.commands) : SentOpen e.settings.hours e'.commands := by
  cases h with
  | failed | idle | outside | evicted => exact hs
  | woken _ _ _ _ _ hm => exact hm.sentOpen hl hs
  | resumed => exact (Moved.resumed e _ _).sentOpen hl hs
  | started hm => exact hm.sentOpen hl hs

theorem firing_of_wakes (hw : e.wakes? op = some c) : op.firing?.isSome := by
  cases hop : op.firing? with
  | none => cases hw.symm.trans (wakes?_eq_none hop)
  | some firing => rfl

theorem Performed.armed (hd : e.settings.hours.Daily)
    (hf : e.settings.hours.finish.nano ≤ 1000000000) (h : Performed e op r e') :
    e'.timers.armed = e.timers.armed ∨ ∃ q, Step.Arms ⟨e, op, r, e'⟩ q := by
  have arms {e₁ : Engine} {now : Instant} {c c₁ : Case} {target : Option Stage}
      (hm : Moved e c now target e₁ c₁) (hreads : Step.Reads ⟨e, op, r, e'⟩ now)
      (hsame : e'.timers = e₁.timers) :
      e'.timers.armed = e.timers.armed ∨ ∃ q, Step.Arms ⟨e, op, r, e'⟩ q := by
    have harmed := hm.armed_covers hd hf
    rw [← hsame] at harmed
    exact harmed.imp_right fun ⟨q, hq, hle, hcovers⟩ => ⟨q, hq, now, hreads, hle, hcovers⟩
  cases h with
  | failed | idle | outside | evicted => exact .inl rfl
  | woken hw _ _ _ hclock hm => exact arms hm (.inr ⟨firing_of_wakes hw, hclock⟩) rfl
  | resumed =>
    left
    rw [tell_timers]
    exact TimerBook.armed_release ..
  | started hm => exact arms hm (.inl ⟨_, _, rfl⟩) rfl

/-- What a run with such settings has sent, and what it has armed. -/
structure HoursKept (s : Settings) (l : List Step) (e : Engine) : Prop where
  settings : e.settings = s
  sent : SentOpen s.hours e.commands
  armed : ∀ q ∈ e.timers.armed, ∃ x ∈ l, x.before.settings = s ∧ x.Arms q

theorem hoursKept_of_initial (h₀ : Initial e₀) : HoursKept e₀.settings [] e₀ := by
  obtain ⟨-, hentries, -, hcommands, -⟩ := initial_cases h₀
  refine ⟨rfl, fun cmd hcmd => ?_, fun q hq => ?_⟩
  · rw [hcommands] at hcmd
    cases hcmd
  · rw [TimerBook.armed, hentries] at hq
    cases hq

theorem HoursKept.step {s : Settings} (hd : s.hours.Daily) (hf : s.hours.finish.nano ≤ 1000000000)
    (hl : e.listening = true) (hk : HoursKept s l e) (h : Performed e op r e') :
    HoursKept s (l ++ [⟨e, op, r, e'⟩]) e' := by
  obtain ⟨rfl, hsent, harmed⟩ := hk
  refine ⟨h.settings_eq, h.sentOpen hl hsent, fun q hq => ?_⟩
  rw [exists_mem_snoc]
  rcases h.armed hd hf with hsame | ⟨q', hq'⟩
  · exact .inl (harmed q (hsame ▸ hq))
  · rw [hq'.1] at hq
    rcases List.mem_append.1 hq with hq | hq
    · exact .inl (harmed q hq)
    · exact .inr ⟨rfl, List.mem_singleton.1 hq ▸ hq'⟩

/-- At a fixed offset every notice was sent while hours were open, and every wake-up that was ever
armed was armed for an instant within them, which is no earlier than the time at which the step that
armed it looked at the case. Where the program can tell whether hours are open, it goes by the
clocks. Hours whose end is noted as a fraction of a leap second are left aside; none are read from a
text. -/
theorem sent_and_armed_in_hours (h₀ : Initial e₀) (hz : e₀.settings.hours.zone = .fixed offset)
    (hf : e₀.settings.hours.finish.nano ≤ 1000000000) (hids : (startsOf l).Nodup)
    (h : Runs e₀ l e) :
    (∀ t b, e₀.settings.hours.isOpen t = .ok b → (b = true ↔ e₀.settings.hours.InHours t)) ∧
    (∀ id reason stage kind t, .notify id reason stage .sendNow kind t ∈ e.commands →
      e₀.settings.hours.isOpen t = .ok true) ∧
    (∀ q ∈ e.timers.armed, ∃ x ∈ l, x.after.timers.armed = x.before.timers.armed ++ [q] ∧
      ∃ now, x.Reads now ∧ now ≤ q.wakeAt ∧ e₀.settings.hours.InHours q.wakeAt ∧
        (e₀.settings.hours.isOpen q.wakeAt).Ends (· = true)) := by
  have hd : e₀.settings.hours.Daily := BusinessHours.daily_of_fixed hz
  have hkept : HoursKept e₀.settings l e := by
    refine (h.invariant (registry_of_initial h₀) (hoursKept_of_initial h₀) ?_ hids).2
    intro l e op r e' _ hreg _ hk hdone
    exact hk.step hd hf hreg.listening hdone
  refine ⟨fun t b => BusinessHours.isOpen_iff_inHours hz, fun id reason stage kind t hmem => ?_,
    fun q hq => ?_⟩
  · exact hkept.sent _ hmem t rfl
  · obtain ⟨x, hx, hset, harms, now, hreads, hle, hcovers⟩ := hkept.armed q hq
    rw [hset] at hcovers
    exact ⟨x, hx, harms, now, hreads, hle, hcovers.inHours hz, hd.isOpen hcovers⟩

theorem sent_and_armed_in_hours_reminded :
    Initial standard ∧ standard.settings.hours.zone = .fixed .utc ∧
      standard.settings.hours.finish.nano ≤ 1000000000 ∧ (startsOf toReminded).Nodup ∧
      Runs standard toReminded reminded ∧
      standard.settings.hours.isOpen ⟨1792407600, 0⟩ = .ok true ∧
      standard.settings.hours.InHours ⟨1792418400, 0⟩ := by
  have hids : (startsOf toReminded).Nodup := List.nodup_singleton (⟨1⟩ : CaseId)
  have hzone : standard.settings.hours.zone = .fixed .utc := rfl
  have hfinish : standard.settings.hours.finish.nano ≤ 1000000000 := by decide
  obtain ⟨-, hsent, harmed⟩ :=
    sent_and_armed_in_hours initial_standard hzone hfinish hids runs_toReminded
  obtain ⟨x, -, -, now, -, -, hin, -⟩ := harmed ⟨⟨1⟩, 2, ⟨1792418400, 0⟩⟩ (.tail _ (.head _))
  exact ⟨initial_standard, hzone, hfinish, hids, runs_toReminded,
    hsent _ _ _ _ _ (.tail _ (.head _)), hin⟩

end Engine

end Followup
