import VirtioScsi.StartHandshake

/-!
# What the child has set up

Only the child writes `io_port`, `port_mutex`, the masks, `task` and
`io_wait_task`, so where it is tells what they hold and what Exec has given
it.  For the parent the places fall into stages.
-/

namespace VirtioScsi

open ResourceTrace

/-- The objects Exec gave the child. -/
structure StartKit where
  port : MsgPort
  mutex : ℕ

structure OwnFields where
  ioPort : Option MsgPort
  portMutex : Option ℕ
  ioPortMask : Option (Fin 32)
  task : Bool
  ioSignalMask : Option (Fin 32)
  ioWaitTask : Bool

def UnitFields.own (u : UnitFields) : OwnFields :=
  ⟨u.ioPort, u.portMutex, u.ioPortMask, u.task, u.ioSignalMask, u.ioWaitTask⟩

inductive StartStage where
  | absent
  | starting
  | undoing
  | failed
  | looping
  | leaving
  | answering
  | exited
deriving DecidableEq, Repr

namespace ChildPc

variable (k : StartKit)

def fields : ChildPc → OwnFields
  | .absent | .allocPort | .report | .failed | .answer _ _ | .exited =>
      ⟨none, none, none, false, none, false⟩
  | .allocMutex | .dropPort | .forgetPort => ⟨some k.port, none, none, false, none, false⟩
  | .setPortMask => ⟨some k.port, some k.mutex, none, false, none, false⟩
  | .setTask => ⟨some k.port, some k.mutex, some k.port.sigBit, false, none, false⟩
  | .clearShutdown | .allocSignal | .undoReport | .undoMutex | .undoMutexField
  | .setSignalMask _ | .freeSignal _ | .takePort =>
      ⟨some k.port, some k.mutex, some k.port.sigBit, true, none, false⟩
  | .undoPort | .undoPortField => ⟨some k.port, none, some k.port.sigBit, true, none, false⟩
  | .undoMask => ⟨none, none, some k.port.sigBit, true, none, false⟩
  | .setWaitTask bit | .clearSignalMask bit =>
      ⟨some k.port, some k.mutex, some k.port.sigBit, true, some bit, false⟩
  | .ready bit | .test bit _ | .wait bit _ | .leave bit =>
      ⟨some k.port, some k.mutex, some k.port.sigBit, true, some bit, true⟩
  | .clearPortMask _ => ⟨none, some k.mutex, some k.port.sigBit, true, none, false⟩
  | .freeMutex _ | .clearMutex _ => ⟨none, some k.mutex, none, true, none, false⟩
  | .undoTask | .freePort _ | .captureTask | .captureMask _ | .clearTask _ _ =>
      ⟨none, none, none, true, none, false⟩

def held : ChildPc → List StartResource
  | .allocMutex | .dropPort | .undoMutexField | .undoPort | .clearMutex _ | .freePort _ =>
      [.port k.port.addr]
  | .setPortMask | .setTask | .clearShutdown | .allocSignal | .undoReport | .undoMutex
  | .takePort | .clearPortMask _ | .freeMutex _ =>
      [.mutex k.mutex, .port k.port.addr]
  | .setSignalMask bit | .setWaitTask bit | .ready bit | .test bit _ | .wait bit _
  | .leave bit | .clearSignalMask bit | .freeSignal bit =>
      [.signal bit, .mutex k.mutex, .port k.port.addr]
  | _ => []

def Locals : ChildPc → Prop
  | .setSignalMask bit | .setWaitTask bit | .ready bit | .leave bit => bit ≠ sigbreakCtrlC
  | .test bit mask | .wait bit mask => bit ≠ sigbreakCtrlC ∧ sigbreakCtrlC ∈ mask
  | .clearPortMask port | .freeMutex port | .clearMutex port | .freePort port =>
      port = some k.port
  | _ => True

/-- `undoing` is the failure exit that runs on after the parent was told. -/
def stage : ChildPc → StartStage
  | .absent => .absent
  | .undoMutex | .undoMutexField | .undoPort | .undoPortField | .undoMask | .undoTask => .undoing
  | .failed => .failed
  | .test _ _ | .wait _ _ => .looping
  | .leave _ | .clearSignalMask _ | .freeSignal _ | .takePort | .clearPortMask _ | .freeMutex _
  | .clearMutex _ | .freePort _ | .captureTask | .captureMask _ | .clearTask _ _ => .leaving
  | .answer _ _ => .answering
  | .exited => .exited
  | _ => .starting

@[simp] theorem stage_answer (exitTask : Bool) (exitMask : Option (Fin 32)) :
    (ChildPc.answer exitTask exitMask).stage = .answering := rfl

@[simp] theorem stage_exited : ChildPc.exited.stage = .exited := rfl

/-- `task_shutdown` has been cleared. -/
def shutdownCleared : ChildPc → Bool
  | .allocSignal | .setSignalMask _ | .setWaitTask _ | .ready _ | .test _ _ | .wait _ _ => true
  | _ => false

/-- The places where the child uses its port and its mutex. -/
def servesPort : ChildPc → Bool
  | .test _ _ | .wait _ _ | .leave _ => true
  | _ => false

/-- What the child read of `shutdown_exit_task` and `shutdown_exit_mask` is
still there. -/
def Captured (u : UnitFields) : ChildPc → Prop
  | .captureMask exitTask => exitTask = u.shutdownExitTask
  | .clearTask exitTask exitMask | .answer exitTask exitMask =>
      exitTask = u.shutdownExitTask ∧ exitMask = u.shutdownExitMask
  | _ => True

end ChildPc

namespace Handshake

variable {s s' : Handshake} {k : StartKit} {a : ExecAnswer} {bit : Fin 32}

/-- The unit and the trace are what the place of the child says. -/
structure SetUp (k : StartKit) (s : Handshake) : Prop where
  fields : s.unit.own = s.child.fields k
  held : replay [] s.ops = some (s.child.held k)
  locals : s.child.Locals k

/-! ## Frames -/

theorem allocSignal_ne_ctrlC {t t' : TaskSignals} (h : t.allocSignal bit = some t') :
    bit ≠ sigbreakCtrlC := by
  unfold TaskSignals.allocSignal at h
  split at h
  · next hfree =>
    rintro rfl
    exact absurd hfree.1 (by decide)
  · cases h

theorem replay_acquired {ops : List (Op StartResource)} {held : List StartResource}
    (h : replay [] ops = some held) (r : StartResource) :
    replay [] (ops ++ [.acquire r]) = some (r :: held) := by
  rw [replay_append, h]
  exact replay_acquire held r []

theorem replay_released {ops : List (Op StartResource)} {held : List StartResource}
    {r : StartResource} (h : replay [] ops = some (r :: held)) :
    replay [] (ops ++ [.release r]) = some held := by
  rw [replay_append, h]
  exact (replay_release held r []).trans (replay_nil held)

/-- Every step of the child keeps what its place says. -/
theorem SetUp.child (h : s.SetUp k) (hstep : s.childStep a = some s') :
    ∃ k', s'.SetUp k' := by
  obtain ⟨hfields, hheld, hlocals⟩ := h
  cases hpc : s.child with
  | absent | failed | exited => simp [childStep, hpc] at hstep
  | allocPort =>
      simp only [hpc, UnitFields.own, ChildPc.fields, OwnFields.mk.injEq] at hfields
      simp only [hpc, ChildPc.held] at hheld
      simp only [childStep, hpc] at hstep
      cases hport : a.port with
      | none =>
          simp only [hport, Option.some.injEq] at hstep
          subst hstep
          exact ⟨k, by simp [UnitFields.own, ChildPc.fields, hfields], hheld, trivial⟩
      | some port =>
          simp only [hport, Option.map_eq_some_iff] at hstep
          obtain ⟨self, -, rfl⟩ := hstep
          exact ⟨⟨port, k.mutex⟩, by simp [UnitFields.own, ChildPc.fields, hfields],
            replay_acquired hheld _, trivial⟩
  | allocMutex =>
      simp only [hpc, UnitFields.own, ChildPc.fields, OwnFields.mk.injEq] at hfields
      simp only [hpc, ChildPc.held] at hheld
      simp only [childStep, hpc] at hstep
      cases hmutex : a.mutex with
      | none =>
          simp only [hmutex, Option.some.injEq] at hstep
          subst hstep
          exact ⟨k, by simp [UnitFields.own, ChildPc.fields, hfields], hheld, trivial⟩
      | some mutex =>
          simp only [hmutex, Option.some.injEq] at hstep
          subst hstep
          exact ⟨⟨k.port, mutex⟩, by simp [UnitFields.own, ChildPc.fields, hfields],
            replay_acquired hheld _, trivial⟩
  | allocSignal =>
      simp only [hpc, UnitFields.own, ChildPc.fields, OwnFields.mk.injEq] at hfields
      simp only [hpc, ChildPc.held] at hheld
      simp only [childStep, hpc] at hstep
      cases hsignal : a.signal with
      | none =>
          simp only [hsignal, Option.some.injEq] at hstep
          subst hstep
          exact ⟨k, by simp [UnitFields.own, ChildPc.fields, hfields], hheld, trivial⟩
      | some bit =>
          simp only [hsignal, Option.map_eq_some_iff] at hstep
          obtain ⟨self, hself, rfl⟩ := hstep
          exact ⟨k, by simp [UnitFields.own, ChildPc.fields, hfields],
            replay_acquired hheld _, allocSignal_ne_ctrlC hself⟩
  -- Steps that touch no object of Exec.
  | report | forgetPort | setPortMask | setTask | clearShutdown | undoReport | undoMutexField
  | undoPortField | undoMask | undoTask | leave isrBit | clearSignalMask isrBit | takePort
  | captureTask | captureMask exitTask | clearTask exitTask exitMask | answer exitTask exitMask =>
      simp only [hpc, UnitFields.own, ChildPc.fields, OwnFields.mk.injEq] at hfields
      simp only [hpc, ChildPc.held] at hheld
      simp only [childStep, hpc, Option.some.injEq] at hstep
      subst hstep
      refine ⟨k, ?_, hheld, ?_⟩
      · simp [UnitFields.own, ChildPc.fields, signalParent, hfields]
      · simp [ChildPc.Locals, hfields]
  | setSignalMask isrBit | setWaitTask isrBit | clearPortMask port | clearMutex port =>
      simp only [hpc, UnitFields.own, ChildPc.fields, OwnFields.mk.injEq] at hfields
      simp only [hpc, ChildPc.held] at hheld
      simp only [hpc, ChildPc.Locals] at hlocals
      simp only [childStep, hpc, Option.some.injEq] at hstep
      subst hstep
      exact ⟨k, by simp [UnitFields.own, ChildPc.fields, hfields], hheld, hlocals⟩
  | ready isrBit =>
      simp only [hpc, UnitFields.own, ChildPc.fields, OwnFields.mk.injEq] at hfields
      simp only [hpc, ChildPc.held] at hheld
      simp only [hpc, ChildPc.Locals] at hlocals
      simp only [childStep, hpc, Option.some.injEq] at hstep
      subst hstep
      refine ⟨k, ?_, hheld, hlocals, ?_⟩
      · simp [UnitFields.own, ChildPc.fields, signalParent, hfields]
      · simp [waitMask]
  | test isrBit mask =>
      simp only [hpc, UnitFields.own, ChildPc.fields, OwnFields.mk.injEq] at hfields
      simp only [hpc, ChildPc.held] at hheld
      simp only [hpc, ChildPc.Locals] at hlocals
      simp only [childStep, hpc, Option.some.injEq] at hstep
      subst hstep
      cases hshutdown : s.unit.taskShutdown with
      | true =>
          exact ⟨k, by simp [UnitFields.own, ChildPc.fields, hfields], hheld, hlocals.1⟩
      | false =>
          exact ⟨k, by simp [UnitFields.own, ChildPc.fields, hfields], hheld, hlocals⟩
  | wait isrBit mask =>
      simp only [hpc, UnitFields.own, ChildPc.fields, OwnFields.mk.injEq] at hfields
      simp only [hpc, ChildPc.held] at hheld
      simp only [hpc, ChildPc.Locals] at hlocals
      simp only [childStep, hpc, Option.map_eq_some_iff] at hstep
      obtain ⟨⟨sigs, self⟩, -, rfl⟩ := hstep
      by_cases hbreak : sigbreakCtrlC ∈ sigs
      · exact ⟨k, by simp [UnitFields.own, ChildPc.fields, hfields, hbreak],
          by simpa [hbreak, ChildPc.held] using hheld,
          by simpa [ChildPc.Locals, hbreak] using hlocals.1⟩
      · exact ⟨k, by simp [UnitFields.own, ChildPc.fields, hfields, hbreak],
          by simpa [hbreak, ChildPc.held] using hheld,
          by simpa [ChildPc.Locals, hbreak] using hlocals⟩
  -- Steps that give something back: the last acquired goes first.
  | dropPort | undoPort =>
      simp only [hpc, UnitFields.own, ChildPc.fields, OwnFields.mk.injEq] at hfields
      simp only [hpc, ChildPc.held] at hheld
      simp only [childStep, hpc, hfields.1, freeSysPort, Option.some.injEq] at hstep
      subst hstep
      exact ⟨k, by simp [UnitFields.own, ChildPc.fields, hfields], replay_released hheld, trivial⟩
  | undoMutex =>
      simp only [hpc, UnitFields.own, ChildPc.fields, OwnFields.mk.injEq] at hfields
      simp only [hpc, ChildPc.held] at hheld
      simp only [childStep, hpc, hfields.2.1, freeSysMutex, Option.some.injEq] at hstep
      subst hstep
      exact ⟨k, by simp [UnitFields.own, ChildPc.fields, hfields], replay_released hheld, trivial⟩
  | freeSignal isrBit =>
      simp only [hpc, UnitFields.own, ChildPc.fields, OwnFields.mk.injEq] at hfields
      simp only [hpc, ChildPc.held] at hheld
      simp only [childStep, hpc, Option.some.injEq] at hstep
      subst hstep
      exact ⟨k, by simp [UnitFields.own, ChildPc.fields, hfields], replay_released hheld, trivial⟩
  | freeMutex port =>
      simp only [hpc, UnitFields.own, ChildPc.fields, OwnFields.mk.injEq] at hfields
      simp only [hpc, ChildPc.held] at hheld
      simp only [hpc, ChildPc.Locals] at hlocals
      simp only [childStep, hpc, hfields.2.1, freeSysMutex, Option.some.injEq] at hstep
      subst hstep
      exact ⟨k, by simp [UnitFields.own, ChildPc.fields, hfields], replay_released hheld, hlocals⟩
  | freePort port =>
      simp only [hpc, UnitFields.own, ChildPc.fields, OwnFields.mk.injEq] at hfields
      simp only [hpc, ChildPc.held] at hheld
      simp only [hpc, ChildPc.Locals] at hlocals
      simp only [childStep, hpc, hlocals, freeSysPort, Option.some.injEq] at hstep
      subst hstep
      exact ⟨k, by simp [UnitFields.own, ChildPc.fields, hfields], replay_released hheld, trivial⟩

/-! ## What the parent can see of it -/

structure ChildFrame (s s' : Handshake) : Prop where
  parent : s'.parent = s.parent
  startMsg : s'.startMsg = s.startMsg
  exitTask : s'.unit.shutdownExitTask = s.unit.shutdownExitTask
  exitMask : s'.unit.shutdownExitMask = s.unit.shutdownExitMask
  allocated : s'.opener.allocated = s.opener.allocated

/-- A step of the child, by its stages. -/
inductive ChildMove (s s' : Handshake) : Prop where
  | prepare (hfrom : s.child.stage = .starting) (hto : s'.child.stage = .starting)
      (hopener : s'.opener = s.opener)
  | report (hfrom : s.child.stage = .starting)
      (hto : s'.child.stage = .failed ∨ s'.child.stage = .undoing ∨ s'.child.stage = .looping)
      (hopener : s'.opener = s.opener.signal s.startMsg)
  | undo (hfrom : s.child.stage = .undoing)
      (hto : s'.child.stage = .undoing ∨ s'.child.stage = .failed) (hopener : s'.opener = s.opener)
  | turn (hfrom : s.child.stage = .looping) (hto : s'.child.stage = .looping)
      (hopener : s'.opener = s.opener)
  | leave (hfrom : s.child.stage = .looping) (hto : s'.child.stage = .leaving)
      (hopener : s'.opener = s.opener)
      (hwhy : s.unit.taskShutdown = true ∨ sigbreakCtrlC ∈ s.self.pending)
  | wind (hfrom : s.child.stage = .leaving)
      (hto : s'.child.stage = .leaving ∨ s'.child.stage = .answering)
      (hopener : s'.opener = s.opener)
  | answer (exitTask : Bool) (exitMask : Option (Fin 32))
      (hfrom : s.child = .answer exitTask exitMask) (hto : s'.child = .exited)
      (hopener : s'.opener =
        if exitTask then s.opener.signal (exitMask.getD sigbreakCtrlC) else s.opener)

theorem childStep_move (hstep : s.childStep a = some s') : s.ChildMove s' := by
  cases hpc : s.child with
  | absent | failed | exited => simp [childStep, hpc] at hstep
  | allocPort =>
      simp only [childStep, hpc] at hstep
      have hfrom : s.child.stage = .starting := by rw [hpc]; rfl
      cases hport : a.port with
      | none =>
          simp only [hport, Option.some.injEq] at hstep
          subst hstep
          exact .prepare hfrom rfl rfl
      | some port =>
          simp only [hport, Option.map_eq_some_iff] at hstep
          obtain ⟨self, -, rfl⟩ := hstep
          exact .prepare hfrom rfl rfl
  | allocMutex =>
      simp only [childStep, hpc] at hstep
      have hfrom : s.child.stage = .starting := by rw [hpc]; rfl
      cases hmutex : a.mutex with
      | none | some mutex =>
          simp only [hmutex, Option.some.injEq] at hstep
          subst hstep
          exact .prepare hfrom rfl rfl
  | allocSignal =>
      simp only [childStep, hpc] at hstep
      have hfrom : s.child.stage = .starting := by rw [hpc]; rfl
      cases hsignal : a.signal with
      | none =>
          simp only [hsignal, Option.some.injEq] at hstep
          subst hstep
          exact .prepare hfrom rfl rfl
      | some bit =>
          simp only [hsignal, Option.map_eq_some_iff] at hstep
          obtain ⟨self, -, rfl⟩ := hstep
          exact .prepare hfrom rfl rfl
  | forgetPort | setPortMask | setTask | clearShutdown | setSignalMask isrBit
  | setWaitTask isrBit =>
      simp only [childStep, hpc, Option.some.injEq] at hstep
      subst hstep
      exact .prepare (by rw [hpc]; rfl) rfl rfl
  | dropPort =>
      simp only [childStep, hpc, Option.some.injEq] at hstep
      subst hstep
      refine .prepare (by rw [hpc]; rfl) rfl ?_
      cases s.unit.ioPort <;> rfl
  | report =>
      simp only [childStep, hpc, Option.some.injEq] at hstep
      subst hstep
      exact .report (by rw [hpc]; rfl) (.inl rfl) rfl
  | undoReport =>
      simp only [childStep, hpc, Option.some.injEq] at hstep
      subst hstep
      exact .report (by rw [hpc]; rfl) (.inr (.inl rfl)) rfl
  | ready isrBit =>
      simp only [childStep, hpc, Option.some.injEq] at hstep
      subst hstep
      exact .report (by rw [hpc]; rfl) (.inr (.inr rfl)) rfl
  | undoMutexField | undoPortField | undoMask =>
      simp only [childStep, hpc, Option.some.injEq] at hstep
      subst hstep
      exact .undo (by rw [hpc]; rfl) (.inl rfl) rfl
  | undoMutex =>
      simp only [childStep, hpc, Option.some.injEq] at hstep
      subst hstep
      refine .undo (by rw [hpc]; rfl) (.inl rfl) ?_
      cases s.unit.portMutex <;> rfl
  | undoPort =>
      simp only [childStep, hpc, Option.some.injEq] at hstep
      subst hstep
      refine .undo (by rw [hpc]; rfl) (.inl rfl) ?_
      cases s.unit.ioPort <;> rfl
  | undoTask =>
      simp only [childStep, hpc, Option.some.injEq] at hstep
      subst hstep
      exact .undo (by rw [hpc]; rfl) (.inr rfl) rfl
  | test isrBit mask =>
      simp only [childStep, hpc, Option.some.injEq] at hstep
      subst hstep
      have hfrom : s.child.stage = .looping := by rw [hpc]; rfl
      cases hshutdown : s.unit.taskShutdown with
      | true => exact .leave hfrom rfl rfl (.inl hshutdown)
      | false => exact .turn hfrom rfl rfl
  | wait isrBit mask =>
      simp only [childStep, hpc, Option.map_eq_some_iff] at hstep
      obtain ⟨⟨sigs, self⟩, hwait, rfl⟩ := hstep
      have hfrom : s.child.stage = .looping := by rw [hpc]; rfl
      by_cases hbreak : sigbreakCtrlC ∈ sigs
      · simp only [if_pos hbreak]
        refine .leave hfrom rfl rfl (.inr ?_)
        unfold TaskSignals.wait at hwait
        split at hwait
        · cases hwait
        · cases hwait
          exact (Finset.mem_inter.mp hbreak).1
      · simp only [if_neg hbreak]
        exact .turn hfrom rfl rfl
  | leave isrBit | clearSignalMask isrBit | freeSignal isrBit | takePort | clearPortMask port
  | clearMutex port | captureTask | captureMask exitTask =>
      simp only [childStep, hpc, Option.some.injEq] at hstep
      subst hstep
      exact .wind (by rw [hpc]; rfl) (.inl rfl) rfl
  | freeMutex port =>
      simp only [childStep, hpc, Option.some.injEq] at hstep
      subst hstep
      refine .wind (by rw [hpc]; rfl) (.inl rfl) ?_
      cases s.unit.portMutex <;> rfl
  | freePort port =>
      simp only [childStep, hpc, Option.some.injEq] at hstep
      subst hstep
      refine .wind (by rw [hpc]; rfl) (.inl rfl) ?_
      cases port <;> rfl
  | clearTask exitTask exitMask =>
      simp only [childStep, hpc, Option.some.injEq] at hstep
      subst hstep
      exact .wind (by rw [hpc]; rfl) (.inr rfl) rfl
  | answer exitTask exitMask =>
      simp only [childStep, hpc, Option.some.injEq] at hstep
      subst hstep
      exact .answer exitTask exitMask hpc rfl rfl

theorem freeSysPort_frame (s : Handshake) (port : Option MsgPort) :
    (s.freeSysPort port).parent = s.parent ∧ (s.freeSysPort port).startMsg = s.startMsg ∧
      (s.freeSysPort port).unit = s.unit ∧ (s.freeSysPort port).opener = s.opener ∧
      (s.freeSysPort port).self.pending = s.self.pending := by
  cases port <;> exact ⟨rfl, rfl, rfl, rfl, rfl⟩

theorem freeSysMutex_frame (s : Handshake) (mutex : Option ℕ) :
    (s.freeSysMutex mutex).parent = s.parent ∧ (s.freeSysMutex mutex).startMsg = s.startMsg ∧
      (s.freeSysMutex mutex).unit = s.unit ∧ (s.freeSysMutex mutex).opener = s.opener ∧
      (s.freeSysMutex mutex).self.pending = s.self.pending := by
  cases mutex <;> exact ⟨rfl, rfl, rfl, rfl, rfl⟩

theorem allocSignal_pending {t t' : TaskSignals} (h : t.allocSignal bit = some t') :
    t'.pending = t.pending.erase bit := by
  unfold TaskSignals.allocSignal at h
  split at h
  · cases h
    rfl
  · cases h

theorem wait_pending {t t' : TaskSignals} {mask sigs : Finset (Fin 32)}
    (h : t.wait mask = some (sigs, t')) :
    sigs = t.pending ∩ mask ∧ sigs ≠ ∅ ∧ t'.pending = t.pending \ mask ∧
      t'.allocated = t.allocated := by
  unfold TaskSignals.wait at h
  split at h
  · cases h
  · next hsome =>
    cases h
    exact ⟨rfl, hsome, rfl, rfl⟩

theorem childStep_frame (hstep : s.childStep a = some s') : s.ChildFrame s' := by
  unfold childStep at hstep
  split at hstep
  all_goals try split at hstep
  all_goals
    simp only [reduceCtorEq, Option.some.injEq, Option.map_eq_some_iff] at hstep
    try obtain ⟨x, -, hstep⟩ := hstep
    try subst hstep
    try constructor
    all_goals first | rfl | simp [freeSysPort_frame, freeSysMutex_frame]

theorem childStep_pending (hstep : s.childStep a = some s') :
    s'.self.pending ⊆ s.self.pending := by
  unfold childStep at hstep
  split at hstep
  all_goals try split at hstep
  all_goals simp only [reduceCtorEq, Option.some.injEq, Option.map_eq_some_iff] at hstep
  all_goals try obtain ⟨x, hx, hstep⟩ := hstep
  all_goals try subst hstep
  all_goals try exact Finset.Subset.refl _
  all_goals try exact (allocSignal_pending hx).symm ▸ Finset.erase_subset _ _
  all_goals try exact (wait_pending hx).2.2.1.symm ▸ Finset.sdiff_subset
  all_goals simp [freeSysPort_frame, freeSysMutex_frame]

theorem childStep_cleared (hstep : s.childStep a = some s')
    (h : s.child.shutdownCleared = true → s.unit.taskShutdown = false) :
    s'.child.shutdownCleared = true → s'.unit.taskShutdown = false := by
  unfold childStep at hstep
  split at hstep
  all_goals try split at hstep
  all_goals simp only [reduceCtorEq, Option.some.injEq, Option.map_eq_some_iff] at hstep
  all_goals try obtain ⟨x, hx, hstep⟩ := hstep
  all_goals try subst hstep
  all_goals simp_all [ChildPc.shutdownCleared, signalParent]

/-- No `CTRL_C` has reached the child, and `task_shutdown` does not ask it to
stop. -/
structure Calm (s : Handshake) : Prop where
  noBreak : sigbreakCtrlC ∉ s.self.pending
  cleared : s.child.shutdownCleared = true → s.unit.taskShutdown = false

theorem Calm.child (h : s.Calm) (hstep : s.childStep a = some s') : s'.Calm where
  noBreak := fun hmem => h.noBreak (childStep_pending hstep hmem)
  cleared := childStep_cleared hstep h.cleared

theorem Calm.not_leave (h : s.Calm) (hloop : s.child.stage = .looping) :
    ¬ (s.unit.taskShutdown = true ∨ sigbreakCtrlC ∈ s.self.pending) := by
  have hcleared : s.child.shutdownCleared = true := by
    cases hpc : s.child
    all_goals rw [hpc] at hloop
    all_goals first | rfl | cases hloop
  rintro (hshutdown | hbreak)
  · rw [h.cleared hcleared] at hshutdown
    cases hshutdown
  · exact h.noBreak hbreak

theorem captured_child (h : s.child.Captured s.unit) (hstep : s.childStep a = some s') :
    s'.child.Captured s'.unit := by
  have hleave : ∀ (p : Prop) [Decidable p] bit mask u,
      (if p then ChildPc.leave bit else .test bit mask).Captured u := by
    intro p _ bit mask u
    split <;> trivial
  unfold childStep at hstep
  split at hstep
  all_goals try split at hstep
  all_goals simp only [reduceCtorEq, Option.some.injEq, Option.map_eq_some_iff] at hstep
  all_goals try obtain ⟨x, hx, hstep⟩ := hstep
  all_goals try subst hstep
  all_goals first
    | trivial
    | exact hleave _ _ _ _
    | simp_all [ChildPc.Captured]

theorem childStep_wait {mask : Finset (Fin 32)} (hstep : s.childStep a = some s')
    (hwait : s'.child = .wait bit mask) : s.unit.taskShutdown = false := by
  unfold childStep at hstep
  split at hstep
  all_goals try split at hstep
  all_goals simp only [reduceCtorEq, Option.some.injEq, Option.map_eq_some_iff] at hstep
  all_goals try obtain ⟨x, hx, hstep⟩ := hstep
  all_goals try subst hstep
  all_goals simp_all
  all_goals split at hwait <;> cases hwait

/-- While the child sleeps after it was told to stop, `CTRL_C` is pending. -/
def Told (s : Handshake) : Prop :=
  ∀ isrBit mask, s.child = .wait isrBit mask → sigbreakCtrlC ∈ s.self.pending

theorem told_child (hshutdown : s.unit.taskShutdown = true) (hstep : s.childStep a = some s') :
    s'.Told := by
  intro isrBit mask hwait
  rw [childStep_wait hstep hwait] at hshutdown
  cases hshutdown

/-! ## What the stages say about the unit -/

/-- The unit is set up with objects the child holds. -/
structure Running (s : Handshake) (port : MsgPort) (mutex : ℕ) (bit : Fin 32) : Prop where
  ioPort : s.unit.ioPort = some port
  portMutex : s.unit.portMutex = some mutex
  ioPortMask : s.unit.ioPortMask = some port.sigBit
  task : s.unit.task = true
  ioSignalMask : s.unit.ioSignalMask = some bit
  ioWaitTask : s.unit.ioWaitTask = true
  held : replay [] s.ops = some [.signal bit, .mutex mutex, .port port.addr]

/-- While the child serves its port, the unit record names that port, its lock and its
signal. -/
theorem SetUp.running (h : s.SetUp k) (hserves : s.child.servesPort = true) :
    ∃ bit, s.Running k.port k.mutex bit := by
  obtain ⟨hfields, hheld, -⟩ := h
  cases hpc : s.child with
  | test isrBit mask | wait isrBit mask | leave isrBit =>
      simp only [hpc, UnitFields.own, ChildPc.fields, OwnFields.mk.injEq] at hfields
      simp only [hpc, ChildPc.held] at hheld
      obtain ⟨hport, hmutex, hmask, htask, hsignal, hwait⟩ := hfields
      exact ⟨isrBit, hport, hmutex, hmask, htask, hsignal, hwait, hheld⟩
  | _ =>
      rw [hpc] at hserves
      cases hserves

theorem servesPort_of_looping (hloop : s.child.stage = .looping) :
    s.child.servesPort = true := by
  cases hpc : s.child
  all_goals rw [hpc] at hloop
  all_goals first | rfl | cases hloop

/-- Before its setup and after its end the child leaves nothing in the unit record. -/
theorem SetUp.gone (h : s.SetUp k)
    (hgone : s.child.stage = .absent ∨ s.child.stage = .failed ∨ s.child.stage = .exited) :
    s.unit.ioPort = none ∧ s.unit.task = false ∧ replay [] s.ops = some [] := by
  obtain ⟨hfields, hheld, -⟩ := h
  cases hpc : s.child with
  | absent | failed | exited =>
      simp only [hpc, UnitFields.own, ChildPc.fields, OwnFields.mk.injEq] at hfields
      simp only [hpc, ChildPc.held] at hheld
      exact ⟨hfields.1, hfields.2.2.2.1, hheld⟩
  | _ =>
      rw [hpc] at hgone
      rcases hgone with h | h | h <;> cases h

theorem SetUp.task_of_leaving (h : s.SetUp k) (hleaving : s.child.stage = .leaving) :
    s.unit.task = true := by
  have hfields := h.fields
  cases hpc : s.child
  all_goals rw [hpc] at hleaving hfields
  all_goals first
    | exact congrArg OwnFields.task hfields
    | cases hleaving

theorem SetUp.ioSignalMask_ne (h : s.SetUp k) (hwait : s.unit.ioWaitTask = true) :
    s.unit.ioSignalMask ≠ some sigbreakCtrlC := by
  obtain ⟨hfields, -, hlocals⟩ := h
  have hmask := congrArg OwnFields.ioSignalMask hfields
  have htask := congrArg OwnFields.ioWaitTask hfields
  simp only [UnitFields.own] at hmask htask
  rw [htask] at hwait
  rw [hmask]
  cases hpc : s.child
  all_goals rw [hpc] at hlocals hwait
  all_goals first
    | exact fun heq => hlocals (Option.some.inj heq)
    | exact fun heq => hlocals.1 (Option.some.inj heq)
    | cases hwait

end Handshake

end VirtioScsi
