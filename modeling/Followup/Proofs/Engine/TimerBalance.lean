import Followup.Proofs.Engine.Run

/-! The timer book against the registry: the live entries of the book are the wake-ups of the open
cases, one for each, and nothing else. -/

namespace Followup

def Case.request? (c : Case) : Option WakeRequest := c.wake.map fun w => ⟨c.id, w.seq, w.wakeAt⟩

theorem Case.id_of_request? {c : Case} {r : WakeRequest} (h : c.request? = some r) :
    r.id = c.id := by
  obtain ⟨w, -, rfl⟩ := Option.map_eq_some_iff.1 h
  rfl

namespace TimerBook

variable {b : TimerBook} {c : Case} {cs ds : List Case} {r : WakeRequest}

/-- The live entries are the wake-ups of the given cases, each under the handle that its case
keeps. -/
structure Serves (b : TimerBook) (cs : List Case) : Prop where
  entry : ∀ c ∈ cs, ∀ w, c.wake = some w →
    b.entries[w.handle]? = some (⟨c.id, w.seq, w.wakeAt⟩, false)
  live : b.live.Perm (cs.filterMap Case.request?)

theorem Serves.perm (h : b.Serves cs) (hp : cs.Perm ds) : b.Serves ds :=
  ⟨fun c hc => h.entry c (hp.mem_iff.2 hc), h.live.trans (hp.filterMap _)⟩

theorem live_cancel {handle : Nat} (h : b.entries[handle]? = some (r, false)) :
    b.live.Perm (r :: (b.cancel handle).live) := by
  simp only [cancel, live]
  revert h
  generalize b.entries = l
  induction l generalizing handle with
  | nil => simp
  | cons e l ih =>
    intro h
    cases handle with
    | zero =>
      simp only [List.getElem?_cons_zero, Option.some.injEq] at h
      simp [h]
    | succ handle =>
      have ih := ih h
      obtain ⟨q, cancelled⟩ := e
      cases cancelled with
      | true => simpa using ih
      | false =>
        simp only [List.modify_succ_cons, Bool.not_false, List.filter_cons_of_pos, List.map_cons]
        exact (ih.cons q).trans (.swap ..)

theorem getElem?_cancel {handle other : Nat} (h : other ≠ handle) :
    (b.cancel handle).entries[other]? = b.entries[other]? := by
  exact List.getElem?_modify_ne _ _ (Ne.symm h)

theorem live_append (b : TimerBook) (r : WakeRequest) :
    live { b with entries := b.entries ++ [(r, false)] } = b.live ++ [r] := by
  simp [live]

theorem length_release (b : TimerBook) (w : Option Wake) :
    (b.release w).entries.length = b.entries.length := by
  cases w <;> simp [release, cancel]

theorem Serves.release (h : b.Serves (c :: cs)) (hne : ∀ d ∈ cs, d.id ≠ c.id) :
    (b.release c.wake).Serves cs := by
  have hlive := h.live
  simp only [List.filterMap_cons, Case.request?] at hlive
  cases hw : c.wake with
  | none =>
    simp only [hw, Option.map_none] at hlive
    exact ⟨fun d hd => h.entry d (List.mem_cons_of_mem _ hd), hlive⟩
  | some w =>
    simp only [hw, Option.map_some] at hlive
    have hc := h.entry c (List.mem_cons_self ..) w hw
    refine ⟨fun d hd v hv => ?_, ((live_cancel hc).symm.trans hlive).cons_inv⟩
    have hd' := h.entry d (List.mem_cons_of_mem _ hd) v hv
    -- Two cases with one handle would be one case.
    have : v.handle ≠ w.handle := by
      intro heq
      rw [heq, hc] at hd'
      have : c.id = d.id := by simpa using congrArg (fun p => p.map (·.1.id)) hd'
      exact hne d hd this.symm
    exact (getElem?_cancel this).trans hd'

theorem Serves.arm (h : b.Serves cs) {reason : WakeReason} {wakeAt : Instant} {seq : Nat}
    (hc : c.wake = some ⟨reason, wakeAt, seq, b.entries.length⟩) :
    TimerBook.Serves { b with entries := b.entries ++ [(⟨c.id, seq, wakeAt⟩, false)] }
      (c :: cs) := by
  refine ⟨fun d hd v hv => ?_, ?_⟩
  · rcases List.mem_cons.1 hd with rfl | hd
    · rw [hc, Option.some.injEq] at hv
      subst hv
      simp
    · have hv := h.entry d hd v hv
      have hlt : v.handle < b.entries.length := (List.getElem?_eq_some_iff.1 hv).1
      simpa [List.getElem?_append_left hlt] using hv
  · rw [live_append, List.filterMap_cons, Case.request?, hc]
    exact List.perm_append_comm.trans (h.live.cons _)

theorem rearm_eq {w : Option Wake} (h : ∀ v, w = some v → v.handle < b.entries.length) :
    b.rearm w r = { b with entries := (b.release w).entries ++ [(r, false)] } := by
  cases w with
  | none => rfl
  | some v =>
    have hlt := h v rfl
    simp only [rearm, release, cancel]
    congr 1
    refine List.ext_getElem? fun i => ?_
    simp only [List.getElem?_modify, List.getElem?_append, List.length_modify]
    by_cases hi : i < b.entries.length
    · simp only [hi, if_true]
    · simp only [hi, if_false, show v.handle ≠ i by omega, id_map']

theorem Serves.rearm {c' : Case} (h : b.Serves (c :: cs)) (hne : ∀ d ∈ cs, d.id ≠ c.id)
    {reason : WakeReason} {wakeAt : Instant} {seq : Nat} (hid : c'.id = c.id)
    (hc : c'.wake = some ⟨reason, wakeAt, seq, b.entries.length⟩) :
    (b.rearm c.wake ⟨c.id, seq, wakeAt⟩).Serves (c' :: cs) := by
  have hlt : ∀ w, c.wake = some w → w.handle < b.entries.length := fun w hw =>
    (List.getElem?_eq_some_iff.1 (h.entry c (List.mem_cons_self ..) w hw)).1
  -- The new entry comes first and the old one is cancelled after that. The other order is easier
  -- to follow and leaves the same book.
  have harm := (h.release hne).arm (length_release b c.wake ▸ hc)
  rw [rearm_eq hlt, ← hid]
  exact ⟨harm.entry, harm.live⟩

theorem Serves.idle (h : b.Serves cs) (hc : c.wake = none) : b.Serves (c :: cs) := by
  refine ⟨fun d hd w hw => ?_, ?_⟩
  · rcases List.mem_cons.1 hd with rfl | hd
    · rw [hc] at hw
      cases hw
    · exact h.entry d hd w hw
  · simpa only [List.filterMap_cons, Case.request?, hc, Option.map_none] using h.live

theorem Serves.congr {c' : Case} (h : b.Serves (c :: cs)) (hid : c'.id = c.id)
    (hw : c'.wake = c.wake) : b.Serves (c' :: cs) := by
  refine ⟨fun d hd => ?_, ?_⟩
  · rcases List.mem_cons.1 hd with rfl | hd
    · exact hid ▸ hw ▸ h.entry c (List.mem_cons_self ..)
    · exact h.entry d (List.mem_cons_of_mem _ hd)
  · simpa only [List.filterMap_cons, Case.request?, hw, hid] using h.live

theorem Serves.mem_live (h : b.Serves cs) : r ∈ b.live ↔ ∃ c ∈ cs, c.request? = some r := by
  rw [h.live.mem_iff, List.mem_filterMap]

theorem Serves.filter_live (h : b.Serves (c :: cs)) (hne : ∀ d ∈ cs, d.id ≠ c.id) :
    b.live.filter (·.id = c.id) = c.request?.toList := by
  have others : (cs.filterMap Case.request?).filter (·.id = c.id) = [] := by
    refine List.filter_eq_nil_iff.2 fun r hr => ?_
    obtain ⟨d, hd, hreq⟩ := List.mem_filterMap.1 hr
    simpa [Case.id_of_request? hreq] using hne d hd
  have hp := h.live.filter (·.id = c.id)
  rw [List.filterMap_cons] at hp
  cases hreq : c.request? with
  | none =>
    simp only [hreq, others] at hp
    exact hp.eq_nil
  | some r =>
    simp only [hreq, List.filter_cons, Case.id_of_request? hreq, decide_true, if_true, others] at hp
    exact List.perm_singleton.1 hp

theorem Serves.filter (h : b.Serves cs) {keep : Case → Bool}
    (hk : ∀ c ∈ cs, keep c = false → c.wake = none) : b.Serves (cs.filter keep) := by
  refine ⟨fun c hc => h.entry c (List.mem_of_mem_filter hc), ?_⟩
  rw [List.filterMap_filter]
  refine h.live.trans (List.Perm.of_eq (List.filterMap_congr fun c hc => ?_))
  cases hkeep : keep c with
  | true => rfl
  | false => simp [Case.request?, hk c hc hkeep]

end TimerBook

namespace Engine

variable {e e' e₀ : Engine} {c c' : Case} {now : Instant} {target : Option Stage} {cs : List Case}
  {ops : List Operation}

/-- The timers are those of the open cases, and each was armed under a number of its own. -/
structure Balanced (e : Engine) : Prop where
  serves : e.timers.Serves e.cases
  wake : ∀ c ∈ e.cases, c.wake.isSome = c.resolution.isNone
  increasing : (e.timers.armed.map WakeRequest.seq).Pairwise (· < ·)
  bounded : ∀ r ∈ e.timers.armed, r.seq ≤ e.lastSeq

theorem Moved.serves (h : Moved e c now target e' c') (hs : e.timers.Serves (c :: cs))
    (hne : ∀ d ∈ cs, d.id ≠ c.id) : e'.timers.Serves (c' :: cs) := by
  have hid := h.id_eq
  cases h with
  | rearmed hp hw =>
    rw [tell_timers]
    exact hs.rearm hne hid rfl
  | closed hp hw =>
    rw [tell_timers]
    exact (hs.release hne).idle rfl
  | ended =>
    rw [tell_timers]
    exact (hs.release hne).idle rfl

theorem Moved.wake (h : Moved e c now target e' c') (ho : c.resolution = none) :
    c'.wake.isSome = c'.resolution.isNone := by
  cases h with
  | @rearmed stage p => cases p <;> simp [Plan.advance, ho]
  | closed => rfl
  | ended => rfl

theorem Moved.seqs (h : Moved e c now target e' c') (hb : e.Balanced) :
    (e'.timers.armed.map WakeRequest.seq).Pairwise (· < ·) ∧
      ∀ r ∈ e'.timers.armed, r.seq ≤ e'.lastSeq := by
  have hle := h.lastSeq_le
  rcases h.armed with harm | ⟨r, -, hr, hseq, harm⟩
  · rw [harm]
    exact ⟨hb.increasing, fun r hr => Nat.le_trans (hb.bounded r hr) hle⟩
  · rw [harm, List.map_append, List.map_singleton, List.pairwise_append]
    refine ⟨⟨hb.increasing, List.pairwise_singleton _ _, ?_⟩, fun q hq => ?_⟩
    · intro n hn m hm
      obtain ⟨q, hq, rfl⟩ := List.mem_map.1 hn
      have := hb.bounded q hq
      rw [List.mem_singleton.1 hm, hr]
      omega
    · rcases List.mem_append.1 hq with hq | hq
      · exact Nat.le_trans (hb.bounded q hq) hle
      · exact (List.mem_singleton.1 hq).symm ▸ Nat.le_of_eq (hr.trans hseq.symm)

theorem Balanced.step {ids : List CaseId} {started : Option CaseId} (hr : Registry ids e)
    (hnew : ∀ id ∈ started, id ∉ ids) (hb : e.Balanced) (h : Effect e started e') :
    e'.Balanced := by
  cases h with
  | idle clock refusal hn =>
    exact ⟨⟨hb.serves.entry, hb.serves.live⟩, hb.wake, hb.increasing,
      fun r hr => Nat.le_trans (hb.bounded r hr) hn⟩
  | @moved c c₁ now target e₁ before after elapsed hcs hne ho hm ht =>
    obtain ⟨hinc, hbnd⟩ := hm.seqs hb
    have hs := hb.serves
    rw [hcs] at hs
    have hs' : e₁.timers.Serves ({ c₁ with elapsed } :: (before ++ after)) :=
      (hm.serves (hs.perm List.perm_middle) hne).congr rfl rfl
    refine ⟨hs'.perm List.perm_middle.symm, fun d hd => ?_, hinc, hbnd⟩
    rcases List.mem_cons.1 (List.perm_middle.mem_iff.1 hd) with rfl | hd
    · exact hm.wake ho
    · exact hb.wake d (hcs ▸ List.perm_middle.mem_iff.2 (List.mem_cons_of_mem _ hd))
  | @admitted id reason now e₁ c hs hm =>
    obtain ⟨hinc, hbnd⟩ := hm.seqs hb
    have hne : ∀ d ∈ e.cases, d.id ≠ id := fun d hd hid => hnew id hs (hid ▸ hr.known d hd)
    have hs' := hm.serves (hb.serves.idle rfl) hne
    refine ⟨?_, fun d hd => ?_, hinc, hbnd⟩
    · rw [hm.cases_eq]
      exact hs'.perm (List.perm_append_singleton ..).symm
    · rw [hm.cases_eq] at hd
      rcases List.mem_append.1 hd with hd | hd
      · exact hb.wake d hd
      · rw [List.mem_singleton.1 hd]
        exact hm.wake rfl
  | @evicted keep hk =>
    have hwake : ∀ c ∈ e.cases, keep c = false → c.wake = none := by
      intro c hc hkeep
      have hres := hk c hc hkeep
      have hw := hb.wake c hc
      rw [Option.isNone_eq_false_iff.2 hres] at hw
      simpa using hw
    exact ⟨hb.serves.filter hwake, fun c hc => hb.wake c (List.mem_of_mem_filter hc),
      hb.increasing, hb.bounded⟩

theorem balanced_of_initial (h : Initial e) : e.Balanced := by
  obtain ⟨-, hentries, hcases, -⟩ := initial_cases h
  refine ⟨⟨by simp [hcases], ?_⟩, by simp [hcases], ?_, ?_⟩
  · simp [TimerBook.live, hentries, hcases]
  · simp [TimerBook.armed, hentries]
  · simp [TimerBook.armed, hentries]

theorem balanced_of_run (h₀ : Initial e₀) (hids : (startedIds ops).Nodup)
    (h : run ops e₀ = .ok e) : Registry (startedIds ops) e ∧ e.Balanced :=
  run_invariant (P := fun _ => Balanced) h₀ (balanced_of_initial h₀)
    (fun hr hnew hb he => hb.step hr hnew he) hids h

/-- After every run, an open case has exactly one live timer, which is the one that it waits for;
a resolved case waits for nothing; no timer is live for any other id, and no two requests were
armed under one number. -/
theorem live_timers (h₀ : Initial e₀) (hids : (startedIds ops).Nodup) (h : run ops e₀ = .ok e) :
    (∀ c ∈ e.cases, c.resolution = none →
      ∃ w, c.wake = some w ∧ e.timers.live.filter (·.id = c.id) = [⟨c.id, w.seq, w.wakeAt⟩]) ∧
    (∀ c ∈ e.cases, c.isResolved → c.wake = none ∧ ∀ r ∈ e.timers.live, r.id ≠ c.id) ∧
    (∀ r ∈ e.timers.live, ∃ c ∈ e.cases, c.id = r.id ∧ c.resolution = none) ∧
    (e.timers.armed.map WakeRequest.seq).Nodup := by
  obtain ⟨hr, hb⟩ := balanced_of_run h₀ hids h
  have own : ∀ c ∈ e.cases, e.timers.live.filter (·.id = c.id) = c.request?.toList := by
    intro c hc
    obtain ⟨before, after, hcs, hne⟩ := split_of_get? hr.nodup (get?_of_mem hr.nodup hc)
    have hs := hb.serves
    rw [hcs] at hs
    exact (hs.perm List.perm_middle).filter_live hne
  refine ⟨fun c hc ho => ?_, fun c hc hres => ?_, fun r hlive => ?_, ?_⟩
  · have hw := hb.wake c hc
    rw [ho] at hw
    obtain ⟨w, hw⟩ := Option.isSome_iff_exists.1 hw
    refine ⟨w, hw, ?_⟩
    rw [own c hc, Case.request?, hw]
    rfl
  · have hw := hb.wake c hc
    rw [Option.isNone_eq_false_iff.2 hres, Option.isSome_eq_false_iff,
      Option.isNone_iff_eq_none] at hw
    have hnone := own c hc
    rw [Case.request?, hw] at hnone
    exact ⟨hw, fun r hlive => by simpa using List.filter_eq_nil_iff.1 hnone r hlive⟩
  · obtain ⟨c, hc, hreq⟩ := hb.serves.mem_live.1 hlive
    obtain ⟨w, hw, hr⟩ := Option.map_eq_some_iff.1 hreq
    have := hb.wake c hc
    rw [hw] at this
    exact ⟨c, hc, (Case.id_of_request? hreq).symm, Option.isNone_iff_eq_none.1 this.symm⟩
  · exact hb.increasing.imp fun h => Nat.ne_of_lt h

theorem live_timers_of_sample :
    Initial standard ∧ (startedIds sample).Nodup ∧
      ∃ e, run sample standard = .ok e ∧ e.cases.map Case.isResolved = [false, true] ∧
        (∀ c ∈ e.cases, c.resolution = none →
          ∃ w, c.wake = some w ∧ e.timers.live.filter (·.id = c.id) = [⟨c.id, w.seq, w.wakeAt⟩]) ∧
        (∀ c ∈ e.cases, c.isResolved → c.wake = none ∧ ∀ r ∈ e.timers.live, r.id ≠ c.id) ∧
        (∀ r ∈ e.timers.live, ∃ c ∈ e.cases, c.id = r.id ∧ c.resolution = none) ∧
        (e.timers.armed.map WakeRequest.seq).Nodup :=
  have hids : (startedIds sample).Nodup := by decide
  ⟨initial_standard, hids, _, rfl, rfl, live_timers initial_standard hids rfl⟩

end Engine

end Followup
