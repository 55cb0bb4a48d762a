import VirtioScsi.UnitRuns

/-!
# Interrupt coalescing

With EVENT_IDX the device raises the interrupt only when the used index passes
`used_event`.  `GetBuf` stores `last_used_idx` there, and `Harvest` overrides
it with `last_used_idx + (occupied_count - 1)`.
-/

namespace VirtioScsi

namespace RequestQueue

variable {α : Type*} {q q' : RequestQueue α} {free : List (BitVec 16)}
  {chain : BitVec 16 → List (BitVec 16)} {cookie : α} {serial : ℕ}
  {x : BitVec 16 × α} {len : BitVec 32}

/-- How many completions after the last one taken pass without an interrupt. -/
def ahead (q : RequestQueue α) : ℕ :=
  (q.vq.usedEvent - q.vq.lastUsedIdx).toNat

theorem ahead_congr (hevent : q'.vq.usedEvent = q.vq.usedEvent)
    (hlast : q'.vq.lastUsedIdx = q.vq.lastUsedIdx) : q'.ahead = q.ahead := by
  unfold ahead
  rw [hevent, hlast]

theorem AddedTo.ahead (h : q.AddedTo q' cookie) (hi : q.Inv free chain) :
    q'.ahead = q.ahead := by
  refine ahead_congr ?_ h.vring.lastUsedIdx
  unfold Virtqueue.usedEvent
  rw [h.vring.setup.modern, h.vring.setup.num, h.vring.availRing]
  rw [Function.update_of_ne (Nat.mod_lt _ hi.rings.num_pos).ne']

theorem TakenFrom.ahead (h : q.TakenFrom q' serial x len)
    (hevent : q.vq.useEventIdx = true) : q'.ahead = 0 := by
  unfold RequestQueue.ahead Virtqueue.usedEvent
  rw [h.vring.setup.modern, h.vring.setup.num, h.vring.availRing,
    h.vring.lastUsedIdx, if_pos hevent, Function.update_self]
  simp

theorem ahead_setUsedEvent (q : RequestQueue α) {n : BitVec 16}
    (hn : 1 ≤ n.toNat) :
    ahead { q with vq := q.vq.setUsedEvent (q.vq.lastUsedIdx + (n - 1)) } =
      n.toNat - 1 := by
  unfold ahead Virtqueue.usedEvent Virtqueue.setUsedEvent
  dsimp only
  rw [Function.update_self, vr16_vr16, add_sub_cancel_left]
  bv_omega

theorem crossed_of_ahead {total batch : ℕ} (hle : total ≤ q.ahead + batch)
    (hpast : q.ahead < total) (hsmall : total < 2 ^ 16) :
    crossed q.vq.usedEvent (q.vq.lastUsedIdx + BitVec.ofNat 16 total) batch =
      true := by
  unfold crossed
  rw [decide_eq_true_iff]
  unfold ahead at hle hpast
  have hdist : (q.vq.lastUsedIdx + BitVec.ofNat 16 total -
      q.vq.usedEvent - 1).toNat =
        total - (q.vq.usedEvent - q.vq.lastUsedIdx).toNat - 1 := by
    generalize q.vq.usedEvent = event at hpast ⊢
    generalize q.vq.lastUsedIdx = last at hpast ⊢
    bv_omega
  omega

end RequestQueue

namespace Config

open RequestQueue

variable {s s' : Config} {e : Event}

/-- What a step does to `used_event` and to the number of outstanding chains. -/
inductive ThresholdStep (s : Config) (e : Event) (s' : Config) : Prop
  | same (hahead : s'.queue.ahead = s.queue.ahead)
      (hlive : s.queue.hist.live.length ≤ s'.queue.hist.live.length)
  | taken (hahead : s.queue.vq.useEventIdx = true → s'.queue.ahead = 0)
  | coalesced (u : UnitNum) (ch : Choice) (he : e = .task u ch)
      (hpc : s.pc u = .coalesce) (hs : s' = s.coalesce u)

theorem ThresholdStep.of_added {q' : RequestQueue ReqBuf} {b : ReqBuf}
    (hq : s.queue.Ok) (hadd : s.queue.AddedTo q' b)
    (hahead : s'.queue.ahead = q'.ahead) (hhist : s'.queue.hist = q'.hist) :
    ThresholdStep s e s' := by
  obtain ⟨free, chain, hi⟩ := hq
  refine .same (hahead.trans (hadd.ahead hi)) ?_
  rw [hhist, hadd.hist, History.live_addBuf hi.ledger, List.length_append]
  exact Nat.le_add_right _ _

theorem Move.threshold (hm : s.Move e s') (hq : s.queue.Ok) :
    ThresholdStep s e s' := by
  cases hm with
  | quiet u ch s' hquiet =>
      refine .same ?_ ?_ <;> rw [hquiet.queue]
  | take u ch caller serial x len q' hpc hlock htake =>
      exact .taken htake.ahead
  | takeOwn u ch call serial x len q' hpc hlock htake =>
      exact .taken htake.ahead
  | pollTake u ch call left serial x len q' hpc htake =>
      exact .taken htake.ahead
  | probeTake ch call serial x len q' p hrun hprobe htake =>
      exact .taken htake.ahead
  | coalesce u ch hpc => exact .coalesced u ch rfl hpc rfl
  | stash u ch caller c hpc =>
      unfold stashCookie
      split <;> exact .same rfl le_rfl
  | release u ch caller c cu cs r err actual hpc hlock =>
      unfold releaseSlot
      dsimp only
      split <;> exact .same rfl le_rfl
  | leave u ch call result hpc hlock => split <;> exact .same rfl le_rfl
  | add u ch r sl sg q' hpc hlock hadd => exact .of_added hq hadd rfl rfl
  | sync u ch call sg q' hpc hlock hadd => exact .of_added hq hadd rfl rfl
  | probeAdd ch n tries q' hrun hprobe hadd => exact .of_added hq hadd rfl rfl
  | fetch q' hfetch =>
      obtain ⟨free, chain, hi⟩ := hq
      obtain ⟨head, -, rfl, -⟩ := hi.fetch hfetch
      exact .same rfl le_rfl
  | complete i len r serial x q' hpending hcomplete hadded =>
      obtain ⟨free, chain, hi⟩ := hq
      obtain ⟨_, _, -, hhist, -, hvq, -⟩ := hi.complete hcomplete
      refine .same (ahead_congr ?_ ?_) ?_ <;> dsimp only
      · rw [hvq]
        rfl
      · rw [hvq]
      · rw [hhist, History.live_complete hi.ledger]
  | signal q' hsignal =>
      obtain ⟨-, raise, rfl, -⟩ := signal_cases hsignal
      exact .same rfl le_rfl
  | rest q' hrest =>
      obtain ⟨free, chain, hi⟩ := hq
      obtain ⟨-, -, rfl⟩ := hi.rest hrest
      exact .same rfl le_rfl
  | _ => exact .same rfl le_rfl

theorem Move.queue_setup (hm : s.Move e s') (hq : s.queue.Ok) :
    s'.queue.vq.SameSetup s.queue.vq := by
  cases hm with
  | quiet u ch s' hquiet =>
      rw [hquiet.queue]
      exact .refl _
  | take u ch caller serial x len q' hpc hlock htake => exact htake.vring.setup
  | takeOwn u ch call serial x len q' hpc hlock htake => exact htake.vring.setup
  | pollTake u ch call left serial x len q' hpc htake => exact htake.vring.setup
  | probeTake ch call serial x len q' p hrun hprobe htake =>
      exact htake.vring.setup
  | coalesce u ch hpc =>
      dsimp only [Config.coalesce, goto]
      split
      · exact ⟨rfl, rfl, rfl, rfl⟩
      · exact .refl _
  | stash u ch caller c hpc =>
      unfold stashCookie
      split <;> exact .refl _
  | release u ch caller c cu cs r err actual hpc hlock =>
      unfold releaseSlot
      dsimp only
      split <;> exact .refl _
  | leave u ch call result hpc hlock => split <;> exact .refl _
  | add u ch r sl sg q' hpc hlock hadd => exact hadd.vring.setup
  | sync u ch call sg q' hpc hlock hadd => exact hadd.vring.setup
  | probeAdd ch n tries q' hrun hprobe hadd => exact hadd.vring.setup
  | fetch q' hfetch =>
      obtain ⟨free, chain, hi⟩ := hq
      obtain ⟨head, -, rfl, -⟩ := hi.fetch hfetch
      exact .refl _
  | complete i len r serial x q' hpending hcomplete hadded =>
      obtain ⟨free, chain, hi⟩ := hq
      obtain ⟨_, _, -, -, -, hvq, -⟩ := hi.complete hcomplete
      dsimp only
      rw [hvq]
      exact ⟨rfl, rfl, rfl, rfl⟩
  | signal q' hsignal =>
      obtain ⟨-, raise, rfl, -⟩ := signal_cases hsignal
      exact .refl _
  | rest q' hrest =>
      obtain ⟨free, chain, hi⟩ := hq
      obtain ⟨-, -, rfl⟩ := hi.rest hrest
      exact .refl _
  | _ => exact .refl _

/-! ## The override -/

def occupied (s : Config) : ℕ :=
  (BitVec.ofNat 16 s.occupiedCount).toNat

/-- An override asks for no more completions than there are chains to
complete. -/
def CoalesceCovered (s : Config) : Event → Prop
  | .task u _ => s.pc u = .coalesce → s.queue.vq.useEventIdx = true →
      2 ≤ s.occupied → s.occupied ≤ s.queue.hist.live.length
  | _ => True

instance CoalesceCovered.decidable (s : Config) :
    ∀ e, Decidable (s.CoalesceCovered e)
  | .task u _ => inferInstanceAs (Decidable (s.pc u = .coalesce → _))
  | .interrupt => isTrue trivial
  | .fetch => isTrue trivial
  | .complete _ _ _ => isTrue trivial
  | .signal => isTrue trivial
  | .rest => isTrue trivial
  | .putMsg _ _ => isTrue trivial
  | .probe _ => isTrue trivial
  | .start => isTrue trivial

/-- `used_event` is reached by the completions that are still to be taken. -/
def EventWithin (s : Config) : Prop :=
  s.queue.vq.useEventIdx = true →
    s.queue.ahead = 0 ∨ s.queue.ahead < s.queue.hist.live.length

theorem live_coalesce (s : Config) (u : UnitNum) :
    (s.coalesce u).queue.hist.live = s.queue.hist.live :=
  rfl

theorem ahead_coalesce (s : Config) (u : UnitNum) :
    (s.coalesce u).queue.ahead =
      if s.queue.vq.useEventIdx = true ∧ 2 ≤ s.occupied then s.occupied - 1
      else s.queue.ahead := by
  unfold occupied
  dsimp only [Config.coalesce, goto]
  simp only [Bool.and_eq_true, decide_eq_true_eq]
  split
  · next h => exact ahead_setUsedEvent s.queue (by omega)
  · rfl

/-- The threshold stays within what is outstanding. -/
theorem EventWithin.move (h : s.EventWithin) (hm : s.Move e s')
    (hq : s.queue.Ok) (hguard : s.CoalesceCovered e) : s'.EventWithin := by
  intro hevent
  rw [(hm.queue_setup hq).useEventIdx] at hevent
  cases hm.threshold hq with
  | same hahead hlive =>
      rw [hahead]
      rcases h hevent with hzero | hlt
      · exact .inl hzero
      · exact .inr (hlt.trans_le hlive)
  | taken hahead => exact .inl (hahead hevent)
  | coalesced u ch he hpc hs =>
      subst he hs
      rw [ahead_coalesce, live_coalesce]
      split
      · next hover =>
        have hcovered := hguard hpc hevent hover.2
        right
        omega
      · exact h hevent

theorem eventWithin_run {setup : Setup} {events : List Event}
    (hobeys : GuardedRun.Obeys Config.step CoalesceCovered (initial setup) events)
    (hrun : GuardedRun.run Config.step (initial setup) events = some s) :
    s.Fit ∧ s.EventWithin ∧ s.queue.vq.useEventIdx = setup.useEventIdx := by
  refine GuardedRun.invariant
    (P := fun s : Config => s.Fit ∧ s.EventWithin ∧
      s.queue.vq.useEventIdx = setup.useEventIdx)
    ?_ hobeys ⟨fit_initial setup, fun _ => .inl ?_, rfl⟩ hrun
  · rintro s₁ e s₂ ⟨hfit, hwithin, hsetup⟩ hguard hstep
    have hm := hfit.move_of_step hstep
    exact ⟨hfit.move hm, hwithin.move hm hfit.queue hguard,
      (hm.queue_setup hfit.queue).useEventIdx.trans hsetup⟩
  · simp only [initial, RequestQueue.initial, ahead, Virtqueue.usedEvent,
      Virtqueue.allocate, vr16_zero]
    rfl

/-- An override that asks for more completions than there are chains leaves
the queue waiting for one that cannot come. -/
theorem coalesce_beyond {s' : Config} (hstep : s.step e = some s')
    (hguard : ¬ s.CoalesceCovered e) :
    s'.ioLock = none ∧ s'.queue.hist.live = s.queue.hist.live ∧
      s.queue.hist.live.length ≤ s'.queue.ahead := by
  cases e with
  | task u ch =>
      simp only [CoalesceCovered, not_forall, Nat.not_le] at hguard
      obtain ⟨hpc, hevent, htwo, hlt⟩ := hguard
      simp only [step, taskStep, hpc] at hstep
      split at hstep
      · cases hstep
        refine ⟨rfl, rfl, ?_⟩
        rw [ahead_coalesce, if_pos ⟨hevent, htwo⟩]
        omega
      · cases hstep
  | _ => exact absurd trivial hguard

/-- With EVENT_IDX, in every run in which `Harvest` overrides `used_event` only
while at least `occupied_count` chains are outstanding, `used_event` is closer
to `last_used_idx` than there are outstanding chains, and the batch of
completions that passes it raises the interrupt; any other override leaves
`used_event` out of reach. -/
theorem usedEvent_within (setup : Setup) (hevent : setup.useEventIdx = true)
    (events : List Event) (s : Config)
    (hrun : GuardedRun.run Config.step (initial setup) events = some s)
    (hobeys : GuardedRun.Obeys Config.step CoalesceCovered (initial setup) events) :
    (s.queue.hist.live ≠ [] →
      (s.queue.vq.usedEvent - s.queue.vq.lastUsedIdx).toNat <
          s.queue.hist.live.length ∧
        ∀ done batch, done ≤ s.queue.ahead → s.queue.ahead < done + batch →
          done + batch ≤ s.queue.hist.live.length →
          crossed s.queue.vq.usedEvent
            (s.queue.vq.lastUsedIdx + BitVec.ofNat 16 (done + batch)) batch) ∧
      ∀ e s', s.step e = some s' → ¬ s.CoalesceCovered e →
        s'.ioLock = none ∧ s'.queue.hist.live = s.queue.hist.live ∧
          s'.queue.hist.live.length ≤
            (s'.queue.vq.usedEvent - s'.queue.vq.lastUsedIdx).toNat := by
  obtain ⟨⟨⟨free, chain, hi⟩, -⟩, hwithin, hsetup⟩ := eventWithin_run hobeys hrun
  refine ⟨fun hlive => ⟨?_, fun done batch hdone hpast hle => ?_⟩,
    fun e s' hstep hguard => ?_⟩
  · have hpos := List.length_pos_iff.mpr hlive
    rcases hwithin (hsetup.trans hevent) with hzero | hlt
    · exact hzero.trans_lt hpos
    · exact hlt
  · have hnum := hi.live_le
    have hsize := hi.table.size
    exact crossed_of_ahead (by omega) hpast (by omega)
  · obtain ⟨hlock, hlive, hle⟩ := coalesce_beyond hstep hguard
    exact ⟨hlock, hlive, hlive ▸ hle⟩

/-- Three reads are in flight; the first is answered and harvested. -/
def threeReads : List Event :=
  [Event.start, .putMsg 0 (sampleRead 1), .putMsg 0 (sampleRead 2),
    .putMsg 0 (sampleRead 3)] ++ taskSteps 0 18 ++
    [Event.fetch, .fetch, .fetch, .complete 0 620 goodResponse, .signal, .interrupt] ++
    taskSteps 0 7

/-- Three reads, one answered: the threshold lies within the two outstanding. -/
theorem usedEvent_within_threeReads :
    ∃ s, GuardedRun.run Config.step (initial (sampleSetup true true)) threeReads =
        some s ∧ s.queue.hist.live.length = 2 ∧
      (s.queue.vq.usedEvent - s.queue.vq.lastUsedIdx).toNat < 2 ∧
        crossed s.queue.vq.usedEvent (s.queue.vq.lastUsedIdx + 2) 2 := by
  have hend : (GuardedRun.run Config.step (initial (sampleSetup true true))
      threeReads).map (fun s => decide (s.queue.hist.live.length = 2 ∧
        s.queue.ahead = 1)) = some true := by
    decide +kernel
  have hobeys : GuardedRun.Obeys Config.step CoalesceCovered
      (initial (sampleSetup true true)) threeReads := by
    decide +kernel
  obtain ⟨s, hrun, hs⟩ := Option.map_eq_some_iff.mp hend
  obtain ⟨hlength, hahead⟩ := of_decide_eq_true hs
  have hlive : s.queue.hist.live ≠ [] := by
    rw [← List.length_pos_iff, hlength]
    decide
  obtain ⟨hlt, hcrossed⟩ :=
    (usedEvent_within _ rfl threeReads s hrun hobeys).1 hlive
  refine ⟨s, hrun, hlength, hlength ▸ hlt, ?_⟩
  have hpast := hcrossed 0 2 (Nat.zero_le _) (by rw [hahead]; decide) hlength.ge
  exact hpast

/-- Units 0 and 1 have reads in flight.  Task 0 takes the first completion;
before it releases the slot, task 1 harvests nothing and overrides. -/
def overrideBeforeRelease : List Event :=
  [Event.start, .putMsg 0 (sampleRead 1), .putMsg 0 (sampleRead 2),
    .putMsg 1 (sampleRead 3)] ++ taskSteps 0 13 ++ taskSteps 1 8 ++
    [Event.fetch, .fetch, .fetch, .complete 0 620 goodResponse, .signal, .interrupt] ++
    taskSteps 0 2 ++ taskSteps 1 3

/-- Two chains are outstanding, and the device is to stay silent until the
third completion. -/
theorem overrideBeforeRelease_beyond :
    ∃ s, GuardedRun.run Config.step (initial (sampleSetup true true))
        overrideBeforeRelease = some s ∧
      s.ioLock = none ∧ s.queue.hist.live.length = 2 ∧
        (s.queue.vq.usedEvent - s.queue.vq.lastUsedIdx).toNat = 2 := by
  have hend : (GuardedRun.run Config.step (initial (sampleSetup true true))
      overrideBeforeRelease).map (fun s => decide (s.ioLock = none ∧
        s.queue.hist.live.length = 2 ∧
        (s.queue.vq.usedEvent - s.queue.vq.lastUsedIdx).toNat = 2)) = some true := by
    decide +kernel
  obtain ⟨s, hrun, hs⟩ := Option.map_eq_some_iff.mp hend
  exact ⟨s, hrun, of_decide_eq_true hs⟩

end Config
end VirtioScsi
