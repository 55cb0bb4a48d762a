import VirtioScsi.StartMoves

/-!
# The start handshake

A run without the two races keeps the start sound: `UnitTask_Start` returns
TRUE only for a child in its event loop, returns FALSE only when no child is
left behind, and returns.  The last follows from a rank: every step of either
side lowers it, and neither side waits for something that is not on its way.
-/

namespace VirtioScsi

open ResourceTrace

namespace Handshake

variable {s s' : Handshake} {k : StartKit} {a : ExecAnswer} {bit : Fin 32}
  {mask : Option (Fin 32)} {base : Finset (Fin 32)}

/-! ## Every run ends -/

def childRank : ChildPc → ℕ
  | .absent => 28
  | .allocPort => 27
  | .allocMutex => 26
  | .setPortMask => 25
  | .setTask => 24
  | .clearShutdown => 23
  | .allocSignal => 22
  | .setSignalMask _ => 21
  | .setWaitTask _ => 20
  | .ready _ => 19
  | .test _ _ => 16
  | .wait _ _ => 15
  | .leave _ => 14
  | .clearSignalMask _ => 13
  | .freeSignal _ => 12
  | .takePort => 11
  | .clearPortMask _ => 10
  | .freeMutex _ => 9
  | .clearMutex _ => 8
  | .freePort _ => 7
  | .captureTask => 6
  | .captureMask _ => 5
  | .clearTask _ _ => 4
  | .answer _ _ => 3
  | .undoReport => 9
  | .undoMutex => 6
  | .undoMutexField => 5
  | .undoPort => 4
  | .undoPortField => 3
  | .undoMask => 2
  | .undoTask => 1
  | .dropPort => 5
  | .forgetPort => 4
  | .report => 3
  | .failed | .exited => 0

def parentRank : ParentPc → ℕ
  | .allocReady => 21
  | .createTask _ => 20
  | .waitReady _ => 19
  | .freeReady _ => 18
  | .testPort => 17
  | .preallocate => 16
  | .testTask => 15
  | .allocExit => 14
  | .setExitTask _ => 13
  | .setExitMask _ => 12
  | .setShutdown _ => 11
  | .captureTask _ => 10
  | .signalTask _ _ => 9
  | .testExited => 6
  | .waitExit _ | .waitBreak => 5
  | .freeExit _ => 4
  | .clearExitTask => 3
  | .clearExitMask => 2
  | .freeDma => 1
  | .returned _ | .fault => 0

/-- What is left to do; a pending signal lets a task go round once more. -/
def rank (s : Handshake) : ℕ :=
  parentRank s.parent + childRank s.child + 2 * s.opener.pending.card + 2 * s.self.pending.card

theorem card_signal_le (t : TaskSignals) (bit : Fin 32) :
    (t.signal bit).pending.card ≤ t.pending.card + 1 :=
  Finset.card_insert_le _ _

theorem card_allocSignal_le {t t' : TaskSignals} (h : t.allocSignal bit = some t') :
    t'.pending.card ≤ t.pending.card := by
  rw [allocSignal_pending h]
  exact Finset.card_le_card (Finset.erase_subset _ _)

theorem card_wait_lt {t t' : TaskSignals} {mask sigs : Finset (Fin 32)}
    (h : t.wait mask = some (sigs, t')) : t'.pending.card < t.pending.card := by
  obtain ⟨rfl, hsome, hpending, -⟩ := wait_pending h
  rw [hpending]
  apply Finset.card_lt_card
  obtain ⟨bit, hbit⟩ := Finset.nonempty_iff_ne_empty.mpr hsome
  obtain ⟨hold, hmask⟩ := Finset.mem_inter.mp hbit
  refine Finset.ssubset_iff_subset_ne.mpr ⟨Finset.sdiff_subset, ?_⟩
  intro heq
  rw [← heq] at hold
  exact (Finset.mem_sdiff.mp hold).2 hmask

/-- Every step of the child brings both sides closer to the end. -/
theorem childStep_rank (hstep : s.childStep a = some s') : s'.rank < s.rank := by
  -- A step that sends no signal has only to lower the rank of the place.
  have hquiet : s'.parent = s.parent → s'.opener = s.opener →
      s'.self.pending.card ≤ s.self.pending.card → childRank s'.child < childRank s.child →
      s'.rank < s.rank := by
    intro hparent hopener hself hlt
    unfold rank
    rw [hparent, hopener]
    omega
  cases hpc : s.child with
  | absent | failed | exited => simp [childStep, hpc] at hstep
  | allocPort =>
      simp only [childStep, hpc] at hstep
      cases hport : a.port with
      | none =>
          simp only [hport, Option.some.injEq] at hstep
          subst hstep
          exact hquiet rfl rfl le_rfl (by simp [hpc, childRank])
      | some port =>
          simp only [hport, Option.map_eq_some_iff] at hstep
          obtain ⟨self, hself, rfl⟩ := hstep
          exact hquiet rfl rfl (card_allocSignal_le hself) (by simp [hpc, childRank])
  | allocMutex =>
      simp only [childStep, hpc] at hstep
      cases hmutex : a.mutex with
      | none | some mutex =>
          simp only [hmutex, Option.some.injEq] at hstep
          subst hstep
          exact hquiet rfl rfl le_rfl (by simp [hpc, childRank])
  | allocSignal =>
      simp only [childStep, hpc] at hstep
      cases hsignal : a.signal with
      | none =>
          simp only [hsignal, Option.some.injEq] at hstep
          subst hstep
          exact hquiet rfl rfl le_rfl (by simp [hpc, childRank])
      | some bit =>
          simp only [hsignal, Option.map_eq_some_iff] at hstep
          obtain ⟨self, hself, rfl⟩ := hstep
          refine hquiet rfl rfl (card_allocSignal_le hself) ?_
          rw [hpc]
          exact Nat.lt_succ_self 21
  | forgetPort | setPortMask | setTask | clearShutdown | undoMutexField | undoPortField | undoMask
  | undoTask | setSignalMask isrBit | setWaitTask isrBit | leave isrBit | clearSignalMask isrBit
  | freeSignal isrBit | takePort | clearPortMask port | clearMutex port | captureTask
  | captureMask exitTask | clearTask exitTask exitMask =>
      simp only [childStep, hpc, Option.some.injEq] at hstep
      subst hstep
      refine hquiet rfl rfl le_rfl ?_
      rw [hpc]
      exact Nat.lt_succ_self _
  | dropPort | undoPort | undoMutex | freeMutex port | freePort port =>
      simp only [childStep, hpc, Option.some.injEq] at hstep
      subst hstep
      refine hquiet ?_ ?_ (le_of_eq ?_) ?_
      · simp only [freeSysPort_frame, freeSysMutex_frame]
      · simp only [freeSysPort_frame, freeSysMutex_frame]
      · simp only [freeSysPort_frame, freeSysMutex_frame]
      · rw [hpc]
        exact Nat.lt_succ_self _
  | report | undoReport | ready isrBit =>
      simp only [childStep, hpc, Option.some.injEq] at hstep
      subst hstep
      have hcard := card_signal_le s.opener s.startMsg
      unfold rank signalParent
      rw [hpc]
      dsimp only [childRank]
      omega
  | test isrBit mask =>
      simp only [childStep, hpc, Option.some.injEq] at hstep
      subst hstep
      refine hquiet rfl rfl le_rfl ?_
      rw [hpc]
      dsimp only
      split <;> simp [childRank]
  | wait isrBit mask =>
      simp only [childStep, hpc, Option.map_eq_some_iff] at hstep
      obtain ⟨⟨sigs, self⟩, hwait, rfl⟩ := hstep
      have hcard := card_wait_lt hwait
      unfold rank
      rw [hpc]
      dsimp only
      split
      · dsimp only [childRank]
        omega
      · dsimp only [childRank]
        omega
  | answer exitTask exitMask =>
      simp only [childStep, hpc, Option.some.injEq] at hstep
      subst hstep
      have hcard := card_signal_le s.opener (exitMask.getD sigbreakCtrlC)
      unfold rank
      rw [hpc]
      dsimp only [childRank]
      split
      · omega
      · omega

/-- Every step of the parent brings both sides closer to the end. -/
theorem parentStep_rank (hfits : s.Fits) (hstep : s.parentStep a = some s') :
    s'.rank < s.rank := by
  have hquiet : s'.child = s.child → s'.self = s.self →
      s'.opener.pending.card ≤ s.opener.pending.card →
      parentRank s'.parent < parentRank s.parent → s'.rank < s.rank := by
    intro hchild hself hopener hlt
    unfold rank
    rw [hchild, hself]
    omega
  cases hpc : s.parent with
  | allocReady | allocExit =>
      simp only [parentStep, hpc] at hstep
      cases hsignal : a.signal with
      | none =>
          simp only [hsignal, Option.some.injEq] at hstep
          subst hstep
          exact hquiet rfl rfl le_rfl (by simp [hpc, parentRank])
      | some bit =>
          simp only [hsignal, Option.map_eq_some_iff] at hstep
          obtain ⟨opener, hopener, rfl⟩ := hstep
          refine hquiet rfl rfl (card_allocSignal_le hopener) ?_
          rw [hpc]
          exact Nat.lt_succ_self _
  | createTask readyBit =>
      have habsent : s.child = .absent := by
        unfold Fits at hfits
        rw [hpc] at hfits
        exact hfits.1
      simp only [parentStep, hpc] at hstep
      split at hstep
      · rw [Option.some.injEq] at hstep
        subst hstep
        unfold rank
        rw [hpc, habsent]
        dsimp only [parentRank, childRank]
        rw [Finset.card_empty]
        omega
      · rw [Option.some.injEq] at hstep
        subst hstep
        exact hquiet rfl rfl le_rfl (by rw [hpc]; exact Nat.succ_pos _)
  | freeReady readyBit | freeExit exitBit | clearExitTask | clearExitMask | freeDma
  | setExitTask mask | setExitMask mask | setShutdown mask | captureTask mask =>
      simp only [parentStep, hpc, Option.some.injEq] at hstep
      subst hstep
      refine hquiet rfl rfl le_rfl ?_
      rw [hpc]
      exact Nat.lt_succ_self _
  | testPort | preallocate | testTask | testExited =>
      simp only [parentStep, hpc, Option.some.injEq] at hstep
      subst hstep
      refine hquiet rfl rfl le_rfl ?_
      rw [hpc]
      dsimp only
      split <;> simp [parentRank]
  | signalTask mask task =>
      simp only [parentStep, hpc] at hstep
      split at hstep
      · rw [Option.some.injEq] at hstep
        subst hstep
        have hcard := card_signal_le s.self sigbreakCtrlC
        unfold rank
        rw [hpc]
        cases mask with
        | none | some bit =>
            dsimp only [parentRank]
            omega
      · rw [Option.some.injEq] at hstep
        subst hstep
        exact hquiet rfl rfl le_rfl (by rw [hpc]; exact Nat.succ_pos _)
  | waitReady readyBit | waitExit exitBit =>
      simp only [parentStep, hpc, Option.map_eq_some_iff] at hstep
      obtain ⟨⟨sigs, opener⟩, hwait, rfl⟩ := hstep
      refine hquiet rfl rfl (card_wait_lt hwait).le ?_
      rw [hpc]
      exact Nat.lt_succ_self _
  | waitBreak =>
      -- Once more round the loop, for a signal that is used up.
      simp only [parentStep, hpc, Option.map_eq_some_iff] at hstep
      obtain ⟨⟨sigs, opener⟩, hwait, rfl⟩ := hstep
      have hcard := card_wait_lt hwait
      unfold rank
      rw [hpc]
      dsimp only [parentRank]
      omega
  | returned ok | fault => simp [parentStep, hpc] at hstep

theorem interrupt_rank (s : Handshake) : s.interrupt.rank ≤ s.rank + 2 := by
  unfold interrupt
  split
  · cases hmask : s.unit.ioSignalMask with
    | none => exact Nat.le_add_right _ _
    | some bit =>
        have hcard := card_signal_le s.self bit
        unfold rank
        dsimp only
        omega
  · exact Nat.le_add_right _ _

/-! ## The invariant -/

structure Inv (base : Finset (Fin 32)) (s : Handshake) : Prop where
  setUp : ∃ k, s.SetUp k
  fits : s.Fits
  owns : s.Owns base

theorem inv_initial (opener : TaskSignals) (taskShutdown : Bool) :
    (initial opener taskShutdown).Inv opener.allocated :=
  ⟨⟨⟨⟨0, 0⟩, 0⟩, rfl, rfl, trivial⟩, rfl, rfl⟩

/-- The invariant of the handshake is kept by every step that is in time. -/
theorem Inv.step {e : Event} (h : s.Inv base) (htime : s.inTime e = true)
    (hstep : s.step e = some s') : s'.Inv base := by
  obtain ⟨k, hset⟩ := h.setUp
  cases e with
  | parent a =>
      exact ⟨⟨k, hset.parent h.fits hstep⟩, h.fits.parent hset htime hstep,
        h.owns.parent htime hstep⟩
  | child a =>
      have hframe := childStep_frame hstep
      exact ⟨hset.child hstep, h.fits.child hstep,
        h.owns.of_same (by rw [hframe.parent]) hframe.allocated⟩
  | interrupt =>
      rw [Handshake.step, Option.some.injEq] at hstep
      subst hstep
      obtain ⟨-, hparent, -, hopener, -⟩ := interrupt_frame s
      exact ⟨⟨k, hset.interrupt⟩, h.fits.interrupt hset,
        h.owns.of_same (by rw [hparent]) (by rw [hopener])⟩

def refusal : ExecAnswer where
  port := none
  mutex := none
  signal := none
  done := false

theorem childStep_blocked (hblocked : s.childStep refusal = none) :
    s.child.stage = .absent ∨ s.child.stage = .failed ∨ s.child.stage = .exited ∨
      ∃ isrBit mask, s.child = .wait isrBit mask ∧ s.self.wait mask = none := by
  cases hpc : s.child with
  | absent => exact .inl rfl
  | failed => exact .inr (.inl rfl)
  | exited => exact .inr (.inr (.inl rfl))
  | wait isrBit mask =>
      simp only [childStep, hpc, Option.map_eq_none_iff] at hblocked
      exact .inr (.inr (.inr ⟨isrBit, mask, rfl, hblocked⟩))
  | _ => simp [childStep, hpc, refusal] at hblocked

theorem wait_isSome {t : TaskSignals} {mask : Finset (Fin 32)} (hpending : bit ∈ t.pending)
    (hmask : bit ∈ mask) : t.wait mask ≠ none := by
  unfold TaskSignals.wait
  rw [if_neg]
  · exact Option.some_ne_none _
  · exact Finset.ne_empty_of_mem (Finset.mem_inter.mpr ⟨hpending, hmask⟩)

theorem Stopping.exited_of_blocked (h : s.Stopping mask) (htold : s.Told) (hset : s.SetUp k)
    (hblocked : s.childStep refusal = none) : s.child.stage = .exited := by
  have hstage := h.stage
  rcases childStep_blocked hblocked with hs | hs | hs | ⟨isrBit, mask, hpc, hwait⟩
  · simp [hs] at hstage
  · simp [hs] at hstage
  · exact hs
  · have hlocals := hset.locals
    rw [hpc] at hlocals
    exact absurd hwait (wait_isSome (htold isrBit mask hpc) hlocals.2)

/-- When neither side can go on, `UnitTask_Start` has returned. -/
theorem Inv.returned_of_blocked (h : s.Inv base) (hparent : ∀ a, s.parentStep a = none)
    (hchild : ∀ a, s.childStep a = none) : ∃ ok, s.parent = .returned ok := by
  obtain ⟨k, hset⟩ := h.setUp
  have hfits := h.fits
  have hblocked := hparent refusal
  unfold Fits at hfits
  cases hpc : s.parent with
  | returned ok => exact ⟨ok, rfl⟩
  | fault =>
      rw [hpc] at hfits
      exact hfits.elim
  | waitReady readyBit =>
      rw [hpc] at hfits
      simp only [parentStep, hpc, Option.map_eq_none_iff] at hblocked
      have hstarting : s.child.stage = .starting := by
        by_contra hne
        exact wait_isSome (hfits.sent.mpr hne) (Finset.mem_singleton_self _) hblocked
      rcases childStep_blocked (hchild refusal) with hs | hs | hs | ⟨isrBit, mask, hwait, -⟩
      · simp [hs] at hstarting
      · simp [hs] at hstarting
      · simp [hs] at hstarting
      · rw [hwait] at hstarting
        cases hstarting
  | waitExit exitBit =>
      rw [hpc] at hfits
      simp only [parentStep, hpc, Option.map_eq_none_iff] at hblocked
      have hexited := hfits.1.exited_of_blocked hfits.2 hset (hchild refusal)
      have hsent := (hfits.1.sent exitBit rfl).mpr hexited
      exact absurd hblocked (wait_isSome hsent (Finset.mem_singleton_self _))
  | waitBreak =>
      rw [hpc] at hfits
      simp only [parentStep, hpc, Option.map_eq_none_iff] at hblocked
      have hexited := hfits.1.exited_of_blocked hfits.2.1 hset (hchild refusal)
      exact absurd hblocked (wait_isSome (hfits.2.2 hexited) (Finset.mem_singleton_self _))
  | signalTask mask task =>
      simp only [parentStep, hpc] at hblocked
      split at hblocked <;> cases hblocked
  | _ => simp [parentStep, hpc, refusal] at hblocked

/-! ## A sound start -/

/-- A sound state of the handshake; `base` are the signals the opener came
with.  What the child holds is the replay of its trace. -/
structure Sound (base : Finset (Fin 32)) (s : Handshake) : Prop where
  started : s.parent = .returned true → s.child.stage = .looping
  setUp : s.child.servesPort = true → ∃ port mutex bit, s.Running port mutex bit
  failed : s.child.stage = .undoing ∨ s.child.stage = .failed →
    s.parent ≠ .returned true ∧ (∀ bit, s.parent ≠ .waitExit bit) ∧ s.parent ≠ .waitBreak
  refused : s.parent = .returned false → s.Over
  released : ∃ held, replay [] s.ops = some held ∧
    (s.child.stage = .failed ∨ s.child.stage = .exited → held = [])
  message : s.child.stage = .starting → ∃ bit, s.parent = .waitReady bit
  signals : ∀ ok, s.parent = .returned ok → s.opener.allocated = base
  present : s.parent ≠ .fault
  ends : (∀ a, s.parentStep a = none) → (∀ a, s.childStep a = none) →
    ∃ ok, s.parent = .returned ok

theorem Fits.message (h : s.Fits) (hstarting : s.child.stage = .starting) :
    ∃ bit, s.parent = .waitReady bit := by
  unfold Fits at h
  cases hparent : s.parent with
  | waitReady bit => exact ⟨bit, rfl⟩
  | allocReady =>
      simp only [hparent] at h
      rw [h] at hstarting
      cases hstarting
  | createTask bit =>
      simp only [hparent] at h
      rw [h.1] at hstarting
      cases hstarting
  | freeReady bit | testPort =>
      simp only [hparent, Reported, hstarting] at h
      simp at h
  | preallocate | testTask | allocExit =>
      simp only [hparent, hstarting] at h
      simp at h
  | setExitTask mask =>
      simp only [hparent] at h
      simp [h.looping] at hstarting
  | setExitMask mask | setShutdown mask =>
      simp only [hparent] at h
      simp [h.1.looping] at hstarting
  | captureTask mask | signalTask mask task =>
      simp only [hparent] at h
      have hstage := h.stage
      simp [hstarting] at hstage
  | waitExit bit | testExited | waitBreak =>
      simp only [hparent] at h
      have hstage := h.1.stage
      simp [hstarting] at hstage
  | freeExit bit | clearExitTask | clearExitMask | freeDma =>
      simp only [hparent, Stopped, hstarting] at h
      simp at h
  | returned ok =>
      cases ok with
      | true =>
          simp only [hparent, hstarting] at h
          simp at h
      | false =>
          simp only [hparent, Over, Stopped, hstarting] at h
          simp at h
  | fault =>
      simp only [hparent] at h

theorem Inv.sound (h : s.Inv base) : s.Sound base := by
  obtain ⟨k, hset⟩ := h.setUp
  have hfits := h.fits
  have howns := h.owns
  constructor
  · intro hparent
    unfold Fits at hfits
    rw [hparent] at hfits
    exact hfits.2
  · intro hserves
    obtain ⟨bit, hrunning⟩ := hset.running hserves
    exact ⟨k.port, k.mutex, bit, hrunning⟩
  · intro hfailed
    unfold Fits at hfits
    refine ⟨?_, ?_, ?_⟩
    · intro hparent
      rw [hparent] at hfits
      simp [hfits.2] at hfailed
    · intro bit hparent
      rw [hparent] at hfits
      have hstage := hfits.1.stage
      rcases hfailed with hs | hs <;> simp [hs] at hstage
    · intro hparent
      rw [hparent] at hfits
      have hstage := hfits.1.stage
      rcases hfailed with hs | hs <;> simp [hs] at hstage
  · intro hparent
    unfold Fits at hfits
    rw [hparent] at hfits
    exact hfits
  · refine ⟨s.child.held k, hset.held, ?_⟩
    intro hgone
    have hempty := (hset.gone (.inr hgone)).2.2
    rw [hset.held, Option.some.injEq] at hempty
    exact hempty
  · exact hfits.message
  · intro ok hparent
    unfold Owns at howns
    rw [hparent] at howns
    exact howns
  · intro hparent
    unfold Fits at hfits
    rw [hparent] at hfits
    exact hfits
  · exact h.returned_of_blocked

def Event.ofTask : Event → ℕ
  | .interrupt => 0
  | _ => 1

def Event.wakes : Event → ℕ
  | .interrupt => 1
  | _ => 0

/-- A step of either task is paid for by the rank, an interrupt adds at most two. -/
theorem Inv.paid {e : Event} (h : s.Inv base) (hstep : s.step e = some s') :
    e.ofTask + s'.rank ≤ s.rank + 2 * e.wakes := by
  cases e with
  | parent a =>
      have hlt := parentStep_rank h.fits hstep
      dsimp only [Event.ofTask, Event.wakes]
      omega
  | child a =>
      have hlt := childStep_rank hstep
      dsimp only [Event.ofTask, Event.wakes]
      omega
  | interrupt =>
      rw [Handshake.step, Option.some.injEq] at hstep
      subst hstep
      have hle := interrupt_rank s
      dsimp only [Event.ofTask, Event.wakes]
      omega

/-- In every run in which the parent does not read the `io_port` of a child
that is being undone, and does not signal a task that is gone, every state is
sound, and only interrupts can make the run longer than a fixed bound. -/
theorem start_sound (opener : TaskSignals) (taskShutdown : Bool) {events : List Event}
    (hrun : GuardedRun.run step (initial opener taskShutdown) events = some s)
    (hobeys : GuardedRun.Obeys step (fun s e => s.inTime e = true) (initial opener taskShutdown)
      events) :
    s.Sound opener.allocated ∧ (events.map Event.ofTask).sum ≤
      49 + 2 * opener.pending.card + 2 * (events.map Event.wakes).sum := by
  have hinv := GuardedRun.invariant (P := Inv opener.allocated)
    (fun _ _ _ h htime hstep => h.step htime hstep) hobeys (inv_initial opener taskShutdown) hrun
  have hpays : ∀ s e s', Inv opener.allocated s → s.inTime e = true → s.step e = some s' →
      Inv opener.allocated s' ∧ e.ofTask + s'.rank ≤ s.rank + 2 * e.wakes :=
    fun _ _ _ h htime hstep => ⟨h.step htime hstep, h.paid hstep⟩
  have hpaid := GuardedRun.bounded hpays hobeys (inv_initial opener taskShutdown) hrun
  refine ⟨hinv.sound, ?_⟩
  rw [List.sum_map_mul_left] at hpaid
  have hstart : (initial opener taskShutdown).rank = 49 + 2 * opener.pending.card := rfl
  omega

end Handshake

section Sample

open Handshake

def sampleOpener : TaskSignals := ⟨∅, ∅⟩

/-- Exec grants what a step asks for, with signal bit `bit`. -/
def grant (bit : Fin 32) : ExecAnswer where
  port := some ⟨0x1000, 16⟩
  mutex := some 0x2000
  signal := some bit
  done := true

/-- The child comes up, `preallocate_unit_dma` fails, and the child is stopped
again. -/
def sampleStopped : List Handshake.Event :=
  List.flatten
    [List.replicate 2 (Event.parent (grant 20)), List.replicate 9 (Event.child (grant 17)),
      [Event.child refusal, Event.interrupt], List.replicate 3 (Event.parent refusal),
      List.replicate 2 (Event.child refusal), List.replicate 2 (Event.parent refusal),
      [Event.parent (grant 21)], List.replicate 5 (Event.parent refusal),
      List.replicate 13 (Event.child refusal), List.replicate 5 (Event.parent refusal)]

theorem sampleStopped_parent :
    (GuardedRun.run step (initial sampleOpener true) sampleStopped).map parent =
      some (.returned false) := by
  decide +kernel

/-- A child that finds the shutdown flag set ends before the parent returns FALSE. -/
theorem start_sound_sampleStopped :
    ∃ s, GuardedRun.run step (initial sampleOpener true) sampleStopped = some s ∧
      s.parent = .returned false ∧ s.Sound sampleOpener.allocated := by
  obtain ⟨s, hrun, hparent⟩ := Option.map_eq_some_iff.mp sampleStopped_parent
  exact ⟨s, hrun, hparent, (start_sound sampleOpener true hrun (by decide +kernel)).1⟩

/-- `AllocSignal` fails in the child, and the parent runs between the child's
signal and its clean-up. -/
def sampleDying : List Handshake.Event :=
  List.flatten
    [List.replicate 2 (Event.parent (grant 20)), List.replicate 5 (Event.child (grant 17)),
      List.replicate 2 (Event.child refusal), List.replicate 4 (Event.parent (grant 21))]

theorem sampleDying_sides :
    (GuardedRun.run step (initial sampleOpener false) sampleDying).map
      (fun s => (s.parent, s.child.stage)) = some (.returned true, .undoing) := by
  decide +kernel

/-- The parent returns TRUE while the child it waited for is already undoing its setup. -/
theorem start_sound_fails_sampleDying :
    ∃ s, GuardedRun.run step (initial sampleOpener false) sampleDying = some s ∧
      ¬ s.Sound sampleOpener.allocated := by
  obtain ⟨s, hrun, hsides⟩ := Option.map_eq_some_iff.mp sampleDying_sides
  obtain ⟨hparent, hstage⟩ := Prod.mk.inj hsides
  refine ⟨s, hrun, ?_⟩
  intro hsound
  have hlooping := hsound.started hparent
  rw [hstage] at hlooping
  cases hlooping

end Sample

end VirtioScsi
