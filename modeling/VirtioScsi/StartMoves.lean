import VirtioScsi.StartStages

/-!
# Where the parent can be

Where the parent is tells how far the child can have come, and which signals
are on their way.  Two races break this, and only these: the parent reads
`io_port` while the child still takes the unit down after a failed
`AllocSignal`, and `UnitTask_Shutdown` signals a task that has gone by then.
-/

namespace VirtioScsi

open ResourceTrace

namespace Handshake

variable {s s' : Handshake} {k : StartKit} {a : ExecAnswer} {bit : Fin 32}
  {mask : Option (Fin 32)} {base : Finset (Fin 32)}

/-- The parent does not read the `io_port` of a child that is being undone,
and does not signal a task that is gone. -/
def inTime (s : Handshake) : Event → Bool
  | .parent _ =>
      match s.parent with
      | .testPort => !(s.unit.ioPort.isSome && decide (s.child.stage = .undoing))
      | .signalTask _ task => task && s.alive
      | _ => true
  | _ => true

/-! ## How far the child can have come -/

/-- The child has signalled that it is ready, or has failed. -/
def Reported (s : Handshake) : Prop :=
  s.child.stage = .failed ∨ s.child.stage = .undoing ∨ s.child.stage = .looping

structure Awaiting (bit : Fin 32) (s : Handshake) : Prop where
  message : s.startMsg = bit
  calm : s.Calm
  stage : s.child.stage = .starting ∨ s.Reported
  sent : bit ∈ s.opener.pending ↔ s.child.stage ≠ .starting

/-- `UnitTask_Shutdown` prepares to stop the child. -/
structure Arming (mask : Option (Fin 32)) (s : Handshake) : Prop where
  calm : s.Calm
  looping : s.child.stage = .looping
  unsent : ∀ bit, mask = some bit → bit ∉ s.opener.pending

/-- `task_shutdown` is set; the exit signal is pending once the child is
gone. -/
structure Stopping (mask : Option (Fin 32)) (s : Handshake) : Prop where
  stage : s.child.stage = .looping ∨ s.child.stage = .leaving ∨ s.child.stage = .answering ∨
    s.child.stage = .exited
  shutdown : s.unit.taskShutdown = true
  exitTask : s.unit.shutdownExitTask = true
  exitMask : s.unit.shutdownExitMask = mask
  captured : s.child.Captured s.unit
  sent : ∀ bit, mask = some bit → (bit ∈ s.opener.pending ↔ s.child.stage = .exited)

def Stopped (s : Handshake) : Prop :=
  s.child.stage = .answering ∨ s.child.stage = .exited

/-- No child, or one that has failed or is on its last steps. -/
def Over (s : Handshake) : Prop :=
  s.child.stage = .absent ∨ s.child.stage = .failed ∨ s.child.stage = .undoing ∨ s.Stopped

def Fits (s : Handshake) : Prop :=
  match s.parent with
  | .allocReady => s.child = .absent
  | .createTask bit => s.child = .absent ∧ bit ∉ s.opener.pending
  | .waitReady bit => s.Awaiting bit
  | .freeReady _ | .testPort => s.Calm ∧ s.Reported
  | .preallocate | .testTask | .allocExit | .returned true =>
      s.Calm ∧ s.child.stage = .looping
  | .setExitTask mask => s.Arming mask
  | .setExitMask mask => s.Arming mask ∧ s.unit.shutdownExitTask = true
  | .setShutdown mask =>
      s.Arming mask ∧ s.unit.shutdownExitTask = true ∧ s.unit.shutdownExitMask = mask
  | .captureTask mask | .signalTask mask _ => s.Stopping mask
  | .waitExit bit => s.Stopping (some bit) ∧ s.Told
  | .testExited => s.Stopping none ∧ s.Told
  | .waitBreak =>
      s.Stopping none ∧ s.Told ∧ (s.child.stage = .exited → sigbreakCtrlC ∈ s.opener.pending)
  | .freeExit _ | .clearExitTask | .clearExitMask | .freeDma => s.Stopped
  | .returned false => s.Over
  | .fault => False

/-! ## Steps of the child -/

theorem Reported.child (hcalm : s.Calm) (h : s.Reported) (hstep : s.childStep a = some s') :
    s'.Reported := by
  cases childStep_move hstep with
  | prepare hfrom | report hfrom | wind hfrom =>
      unfold Reported at h
      simp [hfrom] at h
  | undo hfrom hto hopener => exact hto.symm.imp_right Or.inl
  | turn hfrom hto hopener => exact .inr (.inr hto)
  | leave hfrom hto hopener hwhy => exact absurd hwhy (hcalm.not_leave hfrom)
  | answer exitTask exitMask hfrom =>
      unfold Reported at h
      simp [hfrom] at h

theorem Awaiting.child (h : s.Awaiting bit) (hstep : s.childStep a = some s') :
    s'.Awaiting bit := by
  have hframe := childStep_frame hstep
  have hcalm := h.calm.child hstep
  have hmessage : s'.startMsg = bit := hframe.startMsg.trans h.message
  -- A child that has reported is past the start, and so is the next one.
  have hlater : s.Reported → s'.opener = s.opener → s'.Awaiting bit := by
    intro hreported hopener
    have hreported' := hreported.child h.calm hstep
    have hne : ∀ {t : Handshake}, t.Reported → t.child.stage ≠ .starting := by
      rintro t (ht | ht | ht) <;> rw [ht] <;> decide
    refine ⟨hmessage, hcalm, .inr hreported', ?_⟩
    rw [hopener, h.sent]
    exact ⟨fun _ => hne hreported', fun _ => hne hreported⟩
  cases childStep_move hstep with
  | prepare hfrom hto hopener =>
      refine ⟨hmessage, hcalm, .inl hto, ?_⟩
      rw [hopener, h.sent, hfrom, hto]
  | report hfrom hto hopener =>
      refine ⟨hmessage, hcalm, .inr hto, ?_⟩
      rw [hopener, h.message]
      constructor
      · intro _ hstarting
        rw [hstarting] at hto
        simp at hto
      · intro _
        exact Finset.mem_insert_self _ _
  | undo hfrom hto hopener => exact hlater (.inr (.inl hfrom)) hopener
  | turn hfrom hto hopener => exact hlater (.inr (.inr hfrom)) hopener
  | leave hfrom hto hopener => exact hlater (.inr (.inr hfrom)) hopener
  | wind hfrom =>
      have hstage := h.stage
      unfold Reported at hstage
      simp [hfrom] at hstage
  | answer exitTask exitMask hfrom =>
      have hstage := h.stage
      unfold Reported at hstage
      simp [hfrom] at hstage

theorem looping_child (hcalm : s.Calm) (hloop : s.child.stage = .looping)
    (hstep : s.childStep a = some s') :
    s'.child.stage = .looping ∧ s'.opener = s.opener := by
  cases childStep_move hstep with
  | turn hfrom hto hopener => exact ⟨hto, hopener⟩
  | leave hfrom hto hopener hwhy => exact absurd hwhy (hcalm.not_leave hfrom)
  | prepare hfrom | report hfrom | undo hfrom | wind hfrom => simp [hfrom] at hloop
  | answer exitTask exitMask hfrom => simp [hfrom] at hloop

theorem Arming.child (h : s.Arming mask) (hstep : s.childStep a = some s') :
    s'.Arming mask := by
  obtain ⟨hloop, hopener⟩ := looping_child h.calm h.looping hstep
  refine ⟨h.calm.child hstep, hloop, ?_⟩
  rw [hopener]
  exact h.unsent

theorem childStep_shutdown (hstep : s.childStep a = some s')
    (hstage : s.child.stage ≠ .starting) : s'.unit.taskShutdown = s.unit.taskShutdown := by
  unfold childStep at hstep
  split at hstep
  all_goals try split at hstep
  all_goals simp only [reduceCtorEq, Option.some.injEq, Option.map_eq_some_iff] at hstep
  all_goals try obtain ⟨x, -, hstep⟩ := hstep
  all_goals try subst hstep
  all_goals first
    | rfl
    | next hpc => exact absurd (by rw [hpc]; rfl) hstage
    | simp only [freeSysPort_frame, freeSysMutex_frame]

theorem Stopping.child (h : s.Stopping mask) (hstep : s.childStep a = some s') :
    s'.Stopping mask := by
  have hframe := childStep_frame hstep
  have hnot : s.child.stage ≠ .starting := by
    rcases h.stage with hs | hs | hs | hs <;> rw [hs] <;> decide
  have hshutdown := (childStep_shutdown hstep hnot).trans h.shutdown
  have hcaptured := captured_child h.captured hstep
  have hmake : (s'.child.stage = .looping ∨ s'.child.stage = .leaving ∨
      s'.child.stage = .answering ∨ s'.child.stage = .exited) →
      (∀ bit, mask = some bit → (bit ∈ s'.opener.pending ↔ s'.child.stage = .exited)) →
      s'.Stopping mask := fun hstage hsent =>
    ⟨hstage, hshutdown, hframe.exitTask.trans h.exitTask, hframe.exitMask.trans h.exitMask,
      hcaptured, hsent⟩
  cases childStep_move hstep with
  | prepare hfrom | report hfrom => exact absurd hfrom hnot
  | undo hfrom =>
      have hstage := h.stage
      simp [hfrom] at hstage
  | turn hfrom hto hopener =>
      refine hmake (.inl hto) ?_
      intro bit hbit
      rw [hopener, h.sent bit hbit, hfrom, hto]
  | leave hfrom hto hopener =>
      refine hmake (.inr (.inl hto)) ?_
      intro bit hbit
      rw [hopener, h.sent bit hbit, hfrom, hto]
      simp
  | wind hfrom hto hopener =>
      refine hmake (.inr (hto.imp_right Or.inl)) ?_
      intro bit hbit
      rw [hopener, h.sent bit hbit, hfrom]
      rcases hto with hto | hto
      · simp [hto]
      · simp [hto]
  | answer exitTask exitMask hfrom hto hopener =>
      refine hmake (.inr (.inr (.inr (by rw [hto]; rfl)))) ?_
      intro bit hbit
      have hcaptured := h.captured
      rw [hfrom] at hcaptured
      obtain ⟨htask, hmask⟩ := hcaptured
      rw [hopener, htask, h.exitTask, if_pos rfl, hmask, h.exitMask, hbit, hto]
      exact iff_of_true (Finset.mem_insert_self _ _) rfl

theorem Stopped.child (h : s.Stopped) (hstep : s.childStep a = some s') : s'.Stopped := by
  unfold Stopped at h
  cases childStep_move hstep with
  | prepare hfrom | report hfrom | undo hfrom | turn hfrom | leave hfrom | wind hfrom =>
      simp [hfrom] at h
  | answer exitTask exitMask hfrom hto => exact .inr (by rw [hto]; rfl)

theorem Over.child (h : s.Over) (hstep : s.childStep a = some s') : s'.Over := by
  rcases h with h | h | h | h
  · cases childStep_move hstep with
    | prepare hfrom | report hfrom | undo hfrom | turn hfrom | leave hfrom | wind hfrom =>
        simp [hfrom] at h
    | answer exitTask exitMask hfrom => simp [hfrom] at h
  · cases childStep_move hstep with
    | prepare hfrom | report hfrom | undo hfrom | turn hfrom | leave hfrom | wind hfrom =>
        simp [hfrom] at h
    | answer exitTask exitMask hfrom => simp [hfrom] at h
  · cases childStep_move hstep with
    | prepare hfrom | report hfrom | turn hfrom | leave hfrom | wind hfrom => simp [hfrom] at h
    | undo hfrom hto =>
        rcases hto with hto | hto
        · exact .inr (.inr (.inl hto))
        · exact .inr (.inl hto)
    | answer exitTask exitMask hfrom => simp [hfrom] at h
  · exact .inr (.inr (.inr (h.child hstep)))

/-- No step of the child goes beyond what the place of the parent allows. -/
theorem Fits.child (h : s.Fits) (hstep : s.childStep a = some s') : s'.Fits := by
  have hframe := childStep_frame hstep
  unfold Fits at h ⊢
  rw [hframe.parent]
  cases hparent : s.parent with
  | allocReady =>
      rw [hparent] at h
      simp only at h
      simp [childStep, h] at hstep
  | createTask readyBit =>
      rw [hparent] at h
      simp only at h
      simp [childStep, h.1] at hstep
  | waitReady readyBit =>
      rw [hparent] at h
      exact Awaiting.child h hstep
  | freeReady readyBit | testPort =>
      rw [hparent] at h
      exact ⟨h.1.child hstep, h.2.child h.1 hstep⟩
  | preallocate | testTask | allocExit =>
      rw [hparent] at h
      exact ⟨h.1.child hstep, (looping_child h.1 h.2 hstep).1⟩
  | setExitTask mask =>
      rw [hparent] at h
      exact Arming.child h hstep
  | setExitMask mask =>
      rw [hparent] at h
      exact ⟨h.1.child hstep, hframe.exitTask.trans h.2⟩
  | setShutdown mask =>
      rw [hparent] at h
      exact ⟨h.1.child hstep, hframe.exitTask.trans h.2.1, hframe.exitMask.trans h.2.2⟩
  | captureTask mask | signalTask mask task =>
      rw [hparent] at h
      exact Stopping.child h hstep
  | waitExit exitBit | testExited =>
      rw [hparent] at h
      exact ⟨h.1.child hstep, told_child h.1.shutdown hstep⟩
  | waitBreak =>
      rw [hparent] at h
      obtain ⟨hstopping, -, -⟩ := h
      refine ⟨hstopping.child hstep, told_child hstopping.shutdown hstep, ?_⟩
      intro hexited
      cases childStep_move hstep with
      | prepare hfrom hto | turn hfrom hto | leave hfrom hto => simp [hto] at hexited
      | report hfrom hto | undo hfrom hto | wind hfrom hto => simp [hexited] at hto
      | answer exitTask exitMask hfrom hto hopener =>
          have hcaptured := hstopping.captured
          rw [hfrom] at hcaptured
          obtain ⟨htask, hmask⟩ := hcaptured
          rw [hopener, htask, hstopping.exitTask, if_pos rfl, hmask, hstopping.exitMask]
          exact Finset.mem_insert_self _ _
  | freeExit exitBit | clearExitTask | clearExitMask | freeDma =>
      rw [hparent] at h
      exact Stopped.child h hstep
  | returned ok =>
      rw [hparent] at h
      cases ok with
      | true => exact ⟨h.1.child hstep, (looping_child h.1 h.2 hstep).1⟩
      | false => exact Over.child h hstep
  | fault =>
      rw [hparent] at h
      exact h.elim

/-! ## Interrupts -/

theorem interrupt_frame (s : Handshake) :
    s.interrupt.unit = s.unit ∧ s.interrupt.parent = s.parent ∧ s.interrupt.child = s.child ∧
      s.interrupt.opener = s.opener ∧ s.interrupt.startMsg = s.startMsg ∧
      s.interrupt.ops = s.ops ∧ s.self.pending ⊆ s.interrupt.self.pending := by
  unfold interrupt
  split
  · cases hmask : s.unit.ioSignalMask with
    | none => exact ⟨rfl, rfl, rfl, rfl, rfl, rfl, Finset.Subset.refl _⟩
    | some bit => exact ⟨rfl, rfl, rfl, rfl, rfl, rfl, Finset.subset_insert _ _⟩
  · exact ⟨rfl, rfl, rfl, rfl, rfl, rfl, Finset.Subset.refl _⟩

theorem SetUp.interrupt (h : s.SetUp k) : s.interrupt.SetUp k := by
  obtain ⟨hunit, -, hchild, -, -, hops, -⟩ := interrupt_frame s
  constructor
  · rw [hunit, hchild]
    exact h.fields
  · rw [hops, hchild]
    exact h.held
  · rw [hchild]
    exact h.locals

theorem Calm.interrupt (hset : s.SetUp k) (h : s.Calm) : s.interrupt.Calm := by
  obtain ⟨hunit, -, hchild, -⟩ := interrupt_frame s
  constructor
  · have hne := hset.ioSignalMask_ne
    unfold Handshake.interrupt
    split
    · next hwait =>
      cases hmask : s.unit.ioSignalMask with
      | none => exact h.noBreak
      | some bit =>
          intro hmem
          rcases Finset.mem_insert.mp hmem with heq | hold
          · exact hne hwait (by rw [hmask, heq])
          · exact h.noBreak hold
    · exact h.noBreak
  · rw [hchild, hunit]
    exact h.cleared

theorem Stopping.interrupt (h : s.Stopping mask) : s.interrupt.Stopping mask := by
  obtain ⟨hunit, -, hchild, hopener, -⟩ := interrupt_frame s
  constructor
  · rw [hchild]
    exact h.stage
  · rw [hunit]
    exact h.shutdown
  · rw [hunit]
    exact h.exitTask
  · rw [hunit]
    exact h.exitMask
  · rw [hunit, hchild]
    exact h.captured
  · rw [hopener, hchild]
    exact h.sent

theorem Told.interrupt (h : s.Told) : s.interrupt.Told := by
  obtain ⟨-, -, hchild, -, -, -, hpending⟩ := interrupt_frame s
  intro isrBit mask hwait
  rw [hchild] at hwait
  exact hpending (h isrBit mask hwait)

theorem Arming.interrupt (hset : s.SetUp k) (h : s.Arming mask) : s.interrupt.Arming mask := by
  obtain ⟨-, -, hchild, hopener, -⟩ := interrupt_frame s
  refine ⟨h.calm.interrupt hset, ?_, ?_⟩
  · rw [hchild]
    exact h.looping
  · rw [hopener]
    exact h.unsent

/-- An interrupt leaves the progress of parent and child in agreement. -/
theorem Fits.interrupt (hset : s.SetUp k) (h : s.Fits) : s.interrupt.Fits := by
  obtain ⟨hunit, hparent', hchild, hopener, hmessage, -, -⟩ := interrupt_frame s
  unfold Fits at h ⊢
  rw [hparent']
  cases hparent : s.parent with
  | allocReady =>
      rw [hparent] at h
      exact hchild.trans h
  | createTask readyBit =>
      rw [hparent] at h
      exact ⟨hchild.trans h.1, by rw [hopener]; exact h.2⟩
  | waitReady readyBit =>
      rw [hparent] at h
      refine ⟨hmessage.trans h.message, h.calm.interrupt hset, ?_, ?_⟩
      · unfold Reported
        rw [hchild]
        exact h.stage
      · rw [hopener, hchild]
        exact h.sent
  | freeReady readyBit | testPort =>
      rw [hparent] at h
      refine ⟨h.1.interrupt hset, ?_⟩
      unfold Reported
      rw [hchild]
      exact h.2
  | preallocate | testTask | allocExit =>
      rw [hparent] at h
      exact ⟨h.1.interrupt hset, by rw [hchild]; exact h.2⟩
  | setExitTask mask =>
      rw [hparent] at h
      exact Arming.interrupt hset h
  | setExitMask mask | setShutdown mask =>
      rw [hparent] at h
      exact ⟨h.1.interrupt hset, by rw [hunit]; exact h.2⟩
  | captureTask mask | signalTask mask task =>
      rw [hparent] at h
      exact Stopping.interrupt h
  | waitExit exitBit | testExited =>
      rw [hparent] at h
      exact ⟨h.1.interrupt, h.2.interrupt⟩
  | waitBreak =>
      rw [hparent] at h
      exact ⟨h.1.interrupt, h.2.1.interrupt, by rw [hchild, hopener]; exact h.2.2⟩
  | freeExit exitBit | clearExitTask | clearExitMask | freeDma =>
      rw [hparent] at h
      unfold Stopped
      rw [hchild]
      exact h
  | returned ok =>
      rw [hparent] at h
      cases ok with
      | true => exact ⟨h.1.interrupt hset, by rw [hchild]; exact h.2⟩
      | false =>
          unfold Over Stopped
          rw [hchild]
          exact h
  | fault =>
      rw [hparent] at h
      exact h.elim

/-! ## Steps of the parent -/

theorem parentStep_own (hstep : s.parentStep a = some s') :
    s'.unit.own = s.unit.own ∧ s'.ops = s.ops ∧
      (s'.child = s.child ∨ (∃ bit, s.parent = .createTask bit) ∧ s'.child = .allocPort) := by
  unfold parentStep at hstep
  split at hstep
  all_goals try split at hstep
  all_goals simp only [reduceCtorEq, Option.some.injEq, Option.map_eq_some_iff] at hstep
  all_goals try obtain ⟨x, -, hstep⟩ := hstep
  all_goals try subst hstep
  all_goals first
    | exact ⟨rfl, rfl, .inl rfl⟩
    | next hparent _ => exact ⟨rfl, rfl, .inr ⟨⟨_, hparent⟩, rfl⟩⟩

theorem SetUp.parent (h : s.SetUp k) (hfits : s.Fits) (hstep : s.parentStep a = some s') :
    s'.SetUp k := by
  obtain ⟨hown, hops, hchild | ⟨⟨bit, hparent⟩, hchild⟩⟩ := parentStep_own hstep
  · constructor
    · rw [hown, hchild]
      exact h.fields
    · rw [hops, hchild]
      exact h.held
    · rw [hchild]
      exact h.locals
  · have habsent : s.child = .absent := by
      unfold Fits at hfits
      rw [hparent] at hfits
      exact hfits.1
    have hfields := h.fields
    have hheld := h.held
    rw [habsent] at hfields hheld
    constructor
    · rw [hown, hchild]
      exact hfields
    · rw [hops, hchild]
      exact hheld
    · rw [hchild]
      trivial

/-- A child that has reported and whose `io_port` is seen in time is in its
loop; without an `io_port` it has failed. -/
theorem Reported.testPort (hset : s.SetUp k) (h : s.Reported) (hparent : s.parent = .testPort)
    (htime : s.inTime (.parent a) = true) :
    if s.unit.ioPort.isSome then s.child.stage = .looping else s.Over := by
  unfold inTime at htime
  simp only [hparent] at htime
  rcases h with hfailed | hundoing | hlooping
  · rw [(hset.gone (.inr (.inl hfailed))).1]
    exact .inr (.inl hfailed)
  · cases hport : s.unit.ioPort with
    | none => exact .inr (.inr (.inl hundoing))
    | some port => simp [hport, hundoing] at htime
  · obtain ⟨bit, hrunning⟩ := hset.running (servesPort_of_looping hlooping)
    rw [hrunning.ioPort]
    exact hlooping

theorem pending_of_wait {t t' : TaskSignals} {sigs : Finset (Fin 32)}
    (h : t.wait {bit} = some (sigs, t')) : bit ∈ t.pending := by
  obtain ⟨rfl, hsome, -, -⟩ := wait_pending h
  by_contra hnot
  exact hsome (Finset.inter_singleton_of_notMem hnot)

theorem Stopping.of_same (h : s.Stopping mask) (hchild : s'.child = s.child)
    (hunit : s'.unit = s.unit) (hopener : s'.opener = s.opener) : s'.Stopping mask := by
  obtain ⟨hstage, hshutdown, hexitTask, hexitMask, hcaptured, hsent⟩ := h
  rw [← hchild] at hstage
  rw [← hunit] at hshutdown hexitTask hexitMask
  rw [← hchild, ← hunit] at hcaptured
  refine ⟨hstage, hshutdown, hexitTask, hexitMask, hcaptured, ?_⟩
  rw [hchild, hopener]
  exact hsent

/-- A step of the parent leaves its progress in agreement with that of the child. -/
theorem Fits.parent (hset : s.SetUp k) (h : s.Fits) (htime : s.inTime (.parent a) = true)
    (hstep : s.parentStep a = some s') : s'.Fits := by
  unfold Fits at h
  cases hparent : s.parent with
  | allocReady =>
      simp only [hparent] at h
      simp only [parentStep, hparent] at hstep
      cases hsignal : a.signal with
      | none =>
          simp only [hsignal, Option.some.injEq] at hstep
          subst hstep
          exact .inl (by rw [h]; rfl)
      | some bit =>
          simp only [hsignal, Option.map_eq_some_iff] at hstep
          obtain ⟨opener, hopener, rfl⟩ := hstep
          refine ⟨h, ?_⟩
          rw [allocSignal_pending hopener]
          exact Finset.notMem_erase _ _
  | createTask readyBit =>
      simp only [hparent] at h
      simp only [parentStep, hparent] at hstep
      split at hstep
      · rw [Option.some.injEq] at hstep
        subst hstep
        refine ⟨rfl, ⟨Finset.notMem_empty _, fun h => by cases h⟩, .inl rfl, ?_⟩
        exact iff_of_false h.2 fun hne => hne rfl
      · rw [Option.some.injEq] at hstep
        subst hstep
        exact .inl (by rw [h.1]; rfl)
  | waitReady readyBit =>
      simp only [hparent] at h
      simp only [parentStep, hparent, Option.map_eq_some_iff] at hstep
      obtain ⟨⟨sigs, opener⟩, hwait, rfl⟩ := hstep
      have hsent := h.sent.mp (pending_of_wait hwait)
      exact ⟨⟨h.calm.noBreak, h.calm.cleared⟩, h.stage.resolve_left hsent⟩
  | freeReady readyBit =>
      simp only [hparent] at h
      simp only [parentStep, hparent, Option.some.injEq] at hstep
      subst hstep
      exact ⟨⟨h.1.noBreak, h.1.cleared⟩, h.2⟩
  | testPort =>
      simp only [hparent] at h
      have hport := h.2.testPort hset hparent htime
      simp only [parentStep, hparent, Option.some.injEq] at hstep
      subst hstep
      by_cases hsome : s.unit.ioPort.isSome = true
      · rw [if_pos hsome] at hport ⊢
        exact ⟨⟨h.1.noBreak, h.1.cleared⟩, hport⟩
      · rw [if_neg hsome] at hport ⊢
        exact hport
  | preallocate =>
      simp only [hparent] at h
      simp only [parentStep, hparent, Option.some.injEq] at hstep
      subst hstep
      by_cases hdone : a.done = true
      · rw [if_pos hdone]
        exact ⟨⟨h.1.noBreak, h.1.cleared⟩, h.2⟩
      · rw [if_neg hdone]
        exact ⟨⟨h.1.noBreak, h.1.cleared⟩, h.2⟩
  | testTask =>
      simp only [hparent] at h
      obtain ⟨bit, hrunning⟩ := hset.running (servesPort_of_looping h.2)
      simp only [parentStep, hparent, hrunning.task, if_true, Option.some.injEq] at hstep
      subst hstep
      exact ⟨⟨h.1.noBreak, h.1.cleared⟩, h.2⟩
  | allocExit =>
      simp only [hparent] at h
      simp only [parentStep, hparent] at hstep
      cases hsignal : a.signal with
      | none =>
          simp only [hsignal, Option.some.injEq] at hstep
          subst hstep
          exact ⟨⟨h.1.noBreak, h.1.cleared⟩, h.2, fun _ hbit => by cases hbit⟩
      | some bit =>
          simp only [hsignal, Option.map_eq_some_iff] at hstep
          obtain ⟨opener, hopener, rfl⟩ := hstep
          refine ⟨⟨h.1.noBreak, h.1.cleared⟩, h.2, ?_⟩
          intro bit' hbit
          rw [← Option.some.inj hbit, allocSignal_pending hopener]
          exact Finset.notMem_erase _ _
  | setExitTask mask =>
      simp only [hparent] at h
      simp only [parentStep, hparent, Option.some.injEq] at hstep
      subst hstep
      exact ⟨⟨⟨h.calm.noBreak, h.calm.cleared⟩, h.looping, h.unsent⟩, rfl⟩
  | setExitMask mask =>
      simp only [hparent] at h
      simp only [parentStep, hparent, Option.some.injEq] at hstep
      subst hstep
      exact ⟨⟨⟨h.1.calm.noBreak, h.1.calm.cleared⟩, h.1.looping, h.1.unsent⟩, h.2, rfl⟩
  | setShutdown mask =>
      simp only [hparent] at h
      simp only [parentStep, hparent, Option.some.injEq] at hstep
      subst hstep
      obtain ⟨harming, htask, hmask⟩ := h
      have hcaptured : s.child.Captured { s.unit with taskShutdown := true } := by
        have hloop := harming.looping
        cases hpc : s.child
        all_goals rw [hpc] at hloop
        all_goals trivial
      refine ⟨.inl harming.looping, rfl, htask, hmask, hcaptured, ?_⟩
      intro bit hbit
      refine iff_of_false (harming.unsent bit hbit) ?_
      show s.child.stage ≠ _
      rw [harming.looping]
      decide
  | captureTask mask =>
      simp only [hparent] at h
      simp only [parentStep, hparent, Option.some.injEq] at hstep
      subst hstep
      exact h.of_same rfl rfl rfl
  | signalTask mask task =>
      simp only [hparent] at h
      simp only [inTime, hparent] at htime
      simp only [parentStep, hparent, if_pos htime, Option.some.injEq] at hstep
      subst hstep
      cases mask with
      | none =>
          exact ⟨h.of_same rfl rfl rfl, fun _ _ _ => Finset.mem_insert_self _ _⟩
      | some bit =>
          exact ⟨h.of_same rfl rfl rfl, fun _ _ _ => Finset.mem_insert_self _ _⟩
  | waitExit exitBit =>
      simp only [hparent] at h
      simp only [parentStep, hparent, Option.map_eq_some_iff] at hstep
      obtain ⟨⟨sigs, opener⟩, hwait, rfl⟩ := hstep
      exact .inr ((h.1.sent exitBit rfl).mp (pending_of_wait hwait))
  | testExited =>
      simp only [hparent] at h
      simp only [parentStep, hparent, Option.some.injEq] at hstep
      subst hstep
      obtain ⟨hstopping, htold⟩ := h
      by_cases htask : s.unit.task = true
      · rw [if_pos htask]
        refine ⟨hstopping.of_same rfl rfl rfl, htold, ?_⟩
        intro hexited
        have hexited : s.child.stage = .exited := hexited
        rw [(hset.gone (.inr (.inr hexited))).2.1] at htask
        cases htask
      · rw [if_neg htask]
        rcases hstopping.stage with hstage | hstage | hstage | hstage
        · obtain ⟨bit, hrunning⟩ := hset.running (servesPort_of_looping hstage)
          exact absurd hrunning.task htask
        · exact absurd (hset.task_of_leaving hstage) htask
        · exact .inl hstage
        · exact .inr hstage
  | waitBreak =>
      simp only [hparent] at h
      simp only [parentStep, hparent, Option.map_eq_some_iff] at hstep
      obtain ⟨⟨sigs, opener⟩, hwait, rfl⟩ := hstep
      obtain ⟨hstopping, htold, -⟩ := h
      exact ⟨⟨hstopping.stage, hstopping.shutdown, hstopping.exitTask, hstopping.exitMask,
        hstopping.captured, fun _ hbit => by cases hbit⟩, htold⟩
  | freeExit exitBit | clearExitTask | clearExitMask =>
      simp only [hparent] at h
      simp only [parentStep, hparent, Option.some.injEq] at hstep
      subst hstep
      exact h
  | freeDma =>
      simp only [hparent] at h
      simp only [parentStep, hparent, Option.some.injEq] at hstep
      subst hstep
      exact .inr (.inr (.inr h))
  | returned ok | fault => simp [parentStep, hparent] at hstep

/-! ## The signals of the opener -/

/-- The signal bit the parent has allocated at a place. -/
def parentBit : ParentPc → Option (Fin 32)
  | .createTask bit | .waitReady bit | .freeReady bit | .waitExit bit | .freeExit bit => some bit
  | .setExitTask mask | .setExitMask mask | .setShutdown mask | .captureTask mask
  | .signalTask mask _ => mask
  | _ => none

/-- Besides the signals of `base` the opener has the one of this place. -/
def Owns (base : Finset (Fin 32)) (s : Handshake) : Prop :=
  match parentBit s.parent with
  | none => s.opener.allocated = base
  | some bit => bit ∉ base ∧ s.opener.allocated = insert bit base

theorem allocSignal_allocated {t t' : TaskSignals} (h : t.allocSignal bit = some t') :
    bit ∉ t.allocated ∧ t'.allocated = insert bit t.allocated := by
  unfold TaskSignals.allocSignal at h
  split at h
  · next hfree =>
    cases h
    exact ⟨hfree.2, rfl⟩
  · cases h

theorem Owns.of_same (h : s.Owns base) (hbit : parentBit s'.parent = parentBit s.parent)
    (halloc : s'.opener.allocated = s.opener.allocated) : s'.Owns base := by
  unfold Owns at h ⊢
  rw [hbit, halloc]
  exact h

theorem Owns.free {opener : TaskSignals} (h : bit ∉ base ∧ opener.allocated = insert bit base) :
    (opener.freeSignal bit).allocated = base := by
  show opener.allocated.erase bit = base
  rw [h.2, Finset.erase_insert h.1]

theorem Owns.parent (h : s.Owns base) (htime : s.inTime (.parent a) = true)
    (hstep : s.parentStep a = some s') : s'.Owns base := by
  cases hparent : s.parent with
  | allocReady | allocExit =>
      simp only [Owns, hparent, parentBit] at h
      simp only [parentStep, hparent] at hstep
      cases hsignal : a.signal with
      | none =>
          simp only [hsignal, Option.some.injEq] at hstep
          subst hstep
          exact h
      | some bit =>
          simp only [hsignal, Option.map_eq_some_iff] at hstep
          obtain ⟨opener, hopener, rfl⟩ := hstep
          obtain ⟨hnew, halloc⟩ := allocSignal_allocated hopener
          rw [h] at hnew halloc
          exact ⟨hnew, halloc⟩
  | createTask readyBit =>
      have hbit := h
      simp only [Owns, hparent, parentBit] at hbit
      simp only [parentStep, hparent] at hstep
      split at hstep
      · rw [Option.some.injEq] at hstep
        subst hstep
        exact hbit
      · rw [Option.some.injEq] at hstep
        subst hstep
        exact Owns.free hbit
  | freeReady readyBit | freeExit exitBit =>
      have hbit := h
      simp only [Owns, hparent, parentBit] at hbit
      simp only [parentStep, hparent, Option.some.injEq] at hstep
      subst hstep
      exact Owns.free hbit
  | waitReady readyBit | waitExit exitBit | waitBreak =>
      simp only [parentStep, hparent, Option.map_eq_some_iff] at hstep
      obtain ⟨⟨sigs, opener⟩, hwait, rfl⟩ := hstep
      exact h.of_same (by rw [hparent]; rfl) (wait_pending hwait).2.2.2
  | testPort | preallocate | testTask | testExited =>
      simp only [parentStep, hparent, Option.some.injEq] at hstep
      subst hstep
      refine h.of_same ?_ rfl
      rw [hparent]
      dsimp only
      split <;> rfl
  | setExitTask mask | setExitMask mask | setShutdown mask | captureTask mask | clearExitTask
  | clearExitMask | freeDma =>
      simp only [parentStep, hparent, Option.some.injEq] at hstep
      subst hstep
      exact h.of_same (by rw [hparent]; rfl) rfl
  | signalTask mask task =>
      simp only [inTime, hparent] at htime
      simp only [parentStep, hparent, if_pos htime, Option.some.injEq] at hstep
      subst hstep
      refine h.of_same ?_ rfl
      rw [hparent]
      cases mask <;> rfl
  | returned ok | fault => simp [parentStep, hparent] at hstep

end Handshake

end VirtioScsi
