import VirtioScsi.GuardedRun
import VirtioScsi.ResourceTrace

/-!
# Starting a unit's task

`UnitTask_Start`, the parent, creates the task of a unit, waits for its signal
and looks at `unit->io_port`; `UnitTask_Entry`, the child, sets the unit up or
takes one of three failure exits.  When the DMA buffers cannot be had the
parent calls `UnitTask_Shutdown`, which is a second handshake.

Each access to a field that the other side may touch is a step of its own.
Signals are sticky bits of a task.  The unit is not open yet, so no message
reaches the child, but the interrupt handler may signal it.
-/

namespace VirtioScsi

open ResourceTrace

instance neZero_signals : NeZero 32 := ⟨by decide⟩

/-- The bit of `SIGBREAKF_CTRL_C`. -/
def sigbreakCtrlC : Fin 32 := 12

/-- The signals of a task; bits below 16 belong to the system. -/
structure TaskSignals where
  allocated : Finset (Fin 32)
  pending : Finset (Fin 32)
deriving DecidableEq

namespace TaskSignals

/-- `AllocSignal(-1)` hands out a free bit, cleared; `none` if it could not
have handed out this one. -/
def allocSignal (t : TaskSignals) (bit : Fin 32) : Option TaskSignals :=
  if 16 ≤ bit.val ∧ bit ∉ t.allocated then
    some ⟨insert bit t.allocated, t.pending.erase bit⟩
  else none

def freeSignal (t : TaskSignals) (bit : Fin 32) : TaskSignals :=
  { t with allocated := t.allocated.erase bit }

def signal (t : TaskSignals) (bit : Fin 32) : TaskSignals :=
  { t with pending := insert bit t.pending }

/-- `Wait` blocks until a signal of the mask is pending, and clears those it
returns. -/
def wait (t : TaskSignals) (mask : Finset (Fin 32)) :
    Option (Finset (Fin 32) × TaskSignals) :=
  if t.pending ∩ mask = ∅ then none
  else some (t.pending ∩ mask, { t with pending := t.pending \ mask })

end TaskSignals

structure MsgPort where
  addr : ℕ
  sigBit : Fin 32
deriving DecidableEq, Repr

/-- The fields of `struct VirtIOUSCSIDevUnit` the handshake goes through.  A
mask is one bit or 0, a task pointer is the task of the other side or NULL. -/
structure UnitFields where
  ioPort : Option MsgPort
  portMutex : Option ℕ
  ioPortMask : Option (Fin 32)
  task : Bool
  taskShutdown : Bool
  ioSignalMask : Option (Fin 32)
  ioWaitTask : Bool
  shutdownExitTask : Bool
  shutdownExitMask : Option (Fin 32)
deriving DecidableEq, Repr

/-- What Exec answers to the call of a step, where the step makes one. -/
structure ExecAnswer where
  port : Option MsgPort
  mutex : Option ℕ
  signal : Option (Fin 32)
  done : Bool
deriving DecidableEq, Repr

inductive StartResource where
  | port (addr : ℕ)
  | mutex (addr : ℕ)
  | signal (bit : Fin 32)
deriving DecidableEq, Repr

/-! ## Program counters -/

/-- The places in `UnitTask_Entry`, each before the statement it is named
after, with the locals.  `undo…` is the exit after a failed `AllocSignal`. -/
inductive ChildPc where
  | absent
  | allocPort
  | report
  | allocMutex
  | dropPort
  | forgetPort
  | setPortMask
  | setTask
  | clearShutdown
  | allocSignal
  | undoReport
  | undoMutex
  | undoMutexField
  | undoPort
  | undoPortField
  | undoMask
  | undoTask
  | failed
  | setSignalMask (isrBit : Fin 32)
  | setWaitTask (isrBit : Fin 32)
  | ready (isrBit : Fin 32)
  | test (isrBit : Fin 32) (waitMask : Finset (Fin 32))
  | wait (isrBit : Fin 32) (waitMask : Finset (Fin 32))
  | leave (isrBit : Fin 32)
  | clearSignalMask (isrBit : Fin 32)
  | freeSignal (isrBit : Fin 32)
  | takePort
  | clearPortMask (port : Option MsgPort)
  | freeMutex (port : Option MsgPort)
  | clearMutex (port : Option MsgPort)
  | freePort (port : Option MsgPort)
  | captureTask
  | captureMask (exitTask : Bool)
  | clearTask (exitTask : Bool) (exitMask : Option (Fin 32))
  | answer (exitTask : Bool) (exitMask : Option (Fin 32))
  | exited
deriving DecidableEq

/-- The places in `UnitTask_Start` and in the `UnitTask_Shutdown` it calls;
`fault` is a `Signal` to a task that is not there. -/
inductive ParentPc where
  | allocReady
  | createTask (readyBit : Fin 32)
  | waitReady (readyBit : Fin 32)
  | freeReady (readyBit : Fin 32)
  | testPort
  | preallocate
  | testTask
  | allocExit
  | setExitTask (mask : Option (Fin 32))
  | setExitMask (mask : Option (Fin 32))
  | setShutdown (mask : Option (Fin 32))
  | captureTask (mask : Option (Fin 32))
  | signalTask (mask : Option (Fin 32)) (task : Bool)
  | waitExit (exitBit : Fin 32)
  | testExited
  | waitBreak
  | freeExit (exitBit : Fin 32)
  | clearExitTask
  | clearExitMask
  | freeDma
  | returned (ok : Bool)
  | fault
deriving DecidableEq

/-- The parent calls from the task `opener`; `self` are the child's signals,
and `startMsg` is the `ready_mask` of the message on the parent's stack.  The
trace of what the child acquired and released is history. -/
structure Handshake where
  unit : UnitFields
  parent : ParentPc
  child : ChildPc
  opener : TaskSignals
  self : TaskSignals
  startMsg : Fin 32
  ops : List (Op StartResource)

namespace Handshake

/-- A closed unit; `task_shutdown` is what its last life left. -/
def initial (opener : TaskSignals) (taskShutdown : Bool) : Handshake where
  unit :=
    { ioPort := none, portMutex := none, ioPortMask := none, task := false
      taskShutdown := taskShutdown, ioSignalMask := none, ioWaitTask := false
      shutdownExitTask := false, shutdownExitMask := none }
  parent := .allocReady
  child := .absent
  opener := opener
  self := ⟨∅, ∅⟩
  startMsg := 0
  ops := []

/-- `Signal(startMsg->parent_task, startMsg->ready_mask)`. -/
def signalParent (s : Handshake) : Handshake :=
  { s with opener := s.opener.signal s.startMsg }

/-- `FreeSysObject(ASOT_PORT, port)`, with the signal bit of the port. -/
def freeSysPort (s : Handshake) : Option MsgPort → Handshake
  | none => s
  | some port =>
      { s with
        self := s.self.freeSignal port.sigBit
        ops := s.ops ++ [.release (.port port.addr)] }

/-- `FreeSysObject(ASOT_MUTEX, mutex)`. -/
def freeSysMutex (s : Handshake) : Option ℕ → Handshake
  | none => s
  | some mutex => { s with ops := s.ops ++ [.release (.mutex mutex)] }

/-! ## `UnitTask_Entry` -/

def waitMask (unit : UnitFields) : Finset (Fin 32) :=
  unit.ioPortMask.toFinset ∪ unit.ioSignalMask.toFinset ∪ {sigbreakCtrlC}

def childStep (s : Handshake) (a : ExecAnswer) : Option Handshake :=
  match s.child with
  | .absent => none
  | .allocPort =>
      match a.port with
      | none => some { s with unit := { s.unit with ioPort := none }, child := .report }
      | some port =>
          (s.self.allocSignal port.sigBit).map fun self =>
            { s with
              unit := { s.unit with ioPort := some port }
              self := self
              ops := s.ops ++ [.acquire (.port port.addr)]
              child := .allocMutex }
  | .report => some { s.signalParent with child := .failed }
  | .allocMutex =>
      match a.mutex with
      | none => some { s with unit := { s.unit with portMutex := none }, child := .dropPort }
      | some mutex =>
          some { s with
            unit := { s.unit with portMutex := some mutex }
            ops := s.ops ++ [.acquire (.mutex mutex)]
            child := .setPortMask }
  | .dropPort => some { s.freeSysPort s.unit.ioPort with child := .forgetPort }
  | .forgetPort => some { s with unit := { s.unit with ioPort := none }, child := .report }
  | .setPortMask =>
      some { s with
        unit := { s.unit with ioPortMask := s.unit.ioPort.map MsgPort.sigBit }
        child := .setTask }
  | .setTask => some { s with unit := { s.unit with task := true }, child := .clearShutdown }
  | .clearShutdown =>
      some { s with unit := { s.unit with taskShutdown := false }, child := .allocSignal }
  | .allocSignal =>
      match a.signal with
      | none => some { s with child := .undoReport }
      | some bit =>
          (s.self.allocSignal bit).map fun self =>
            { s with
              self := self
              ops := s.ops ++ [.acquire (.signal bit)]
              child := .setSignalMask bit }
  -- This exit tells the parent before it takes the unit down.
  | .undoReport => some { s.signalParent with child := .undoMutex }
  | .undoMutex => some { s.freeSysMutex s.unit.portMutex with child := .undoMutexField }
  | .undoMutexField => some { s with unit := { s.unit with portMutex := none }, child := .undoPort }
  | .undoPort => some { s.freeSysPort s.unit.ioPort with child := .undoPortField }
  | .undoPortField => some { s with unit := { s.unit with ioPort := none }, child := .undoMask }
  | .undoMask => some { s with unit := { s.unit with ioPortMask := none }, child := .undoTask }
  | .undoTask => some { s with unit := { s.unit with task := false }, child := .failed }
  | .failed => none
  | .setSignalMask bit =>
      some { s with unit := { s.unit with ioSignalMask := some bit }, child := .setWaitTask bit }
  | .setWaitTask bit =>
      some { s with unit := { s.unit with ioWaitTask := true }, child := .ready bit }
  | .ready bit => some { s.signalParent with child := .test bit (waitMask s.unit) }
  | .test bit mask =>
      some { s with child := if s.unit.taskShutdown then .leave bit else .wait bit mask }
  | .wait bit mask =>
      (s.self.wait mask).map fun (sigs, self) =>
        { s with
          self := self
          child := if sigbreakCtrlC ∈ sigs then .leave bit else .test bit mask }
  | .leave bit =>
      some { s with unit := { s.unit with ioWaitTask := false }, child := .clearSignalMask bit }
  | .clearSignalMask bit =>
      some { s with unit := { s.unit with ioSignalMask := none }, child := .freeSignal bit }
  | .freeSignal bit =>
      some { s with
        self := s.self.freeSignal bit
        ops := s.ops ++ [.release (.signal bit)]
        child := .takePort }
  | .takePort =>
      some { s with unit := { s.unit with ioPort := none }, child := .clearPortMask s.unit.ioPort }
  | .clearPortMask port =>
      some { s with unit := { s.unit with ioPortMask := none }, child := .freeMutex port }
  | .freeMutex port => some { s.freeSysMutex s.unit.portMutex with child := .clearMutex port }
  | .clearMutex port =>
      some { s with unit := { s.unit with portMutex := none }, child := .freePort port }
  | .freePort port => some { s.freeSysPort port with child := .captureTask }
  | .captureTask => some { s with child := .captureMask s.unit.shutdownExitTask }
  | .captureMask exitTask => some { s with child := .clearTask exitTask s.unit.shutdownExitMask }
  | .clearTask exitTask exitMask =>
      some { s with unit := { s.unit with task := false }, child := .answer exitTask exitMask }
  | .answer exitTask exitMask =>
      some { s with
        opener := if exitTask then s.opener.signal (exitMask.getD sigbreakCtrlC) else s.opener
        child := .exited }
  | .exited => none

/-! ## `UnitTask_Start` -/

/-- The child exists: it was created, and its entry has not returned. -/
def alive (s : Handshake) : Bool :=
  decide (s.child ≠ .absent ∧ s.child ≠ .failed ∧ s.child ≠ .exited)

def parentStep (s : Handshake) (a : ExecAnswer) : Option Handshake :=
  match s.parent with
  | .allocReady =>
      match a.signal with
      | none => some { s with parent := .returned false }
      | some bit =>
          (s.opener.allocSignal bit).map fun opener =>
            { s with opener := opener, parent := .createTask bit }
  | .createTask bit =>
      if a.done then
        some { s with
          startMsg := bit, child := .allocPort, self := ⟨∅, ∅⟩, parent := .waitReady bit }
      else some { s with opener := s.opener.freeSignal bit, parent := .returned false }
  | .waitReady bit =>
      (s.opener.wait {bit}).map fun (_, opener) =>
        { s with opener := opener, parent := .freeReady bit }
  | .freeReady bit => some { s with opener := s.opener.freeSignal bit, parent := .testPort }
  | .testPort =>
      some { s with parent := if s.unit.ioPort.isSome then .preallocate else .returned false }
  | .preallocate => some { s with parent := if a.done then .returned true else .testTask }
  | .testTask => some { s with parent := if s.unit.task then .allocExit else .returned false }
  | .allocExit =>
      match a.signal with
      | none => some { s with parent := .setExitTask none }
      | some bit =>
          (s.opener.allocSignal bit).map fun opener =>
            { s with opener := opener, parent := .setExitTask (some bit) }
  | .setExitTask mask =>
      some { s with unit := { s.unit with shutdownExitTask := true }, parent := .setExitMask mask }
  | .setExitMask mask =>
      some { s with unit := { s.unit with shutdownExitMask := mask }, parent := .setShutdown mask }
  | .setShutdown mask =>
      some { s with unit := { s.unit with taskShutdown := true }, parent := .captureTask mask }
  | .captureTask mask => some { s with parent := .signalTask mask s.unit.task }
  | .signalTask mask task =>
      if task && s.alive then
        some { s with
          self := s.self.signal sigbreakCtrlC
          parent := match mask with
            | some bit => .waitExit bit
            | none => .testExited }
      else some { s with parent := .fault }
  | .waitExit bit =>
      (s.opener.wait {bit}).map fun (_, opener) =>
        { s with opener := opener, parent := .freeExit bit }
  | .testExited => some { s with parent := if s.unit.task then .waitBreak else .clearExitTask }
  | .waitBreak =>
      (s.opener.wait {sigbreakCtrlC}).map fun (_, opener) =>
        { s with opener := opener, parent := .testExited }
  | .freeExit bit => some { s with opener := s.opener.freeSignal bit, parent := .clearExitTask }
  | .clearExitTask =>
      some { s with unit := { s.unit with shutdownExitTask := false }, parent := .clearExitMask }
  | .clearExitMask =>
      some { s with unit := { s.unit with shutdownExitMask := none }, parent := .freeDma }
  | .freeDma => some { s with parent := .returned false }
  | .returned _ => none
  | .fault => none

/-- The interrupt handler signals a unit that waits for the device. -/
def interrupt (s : Handshake) : Handshake :=
  if s.unit.ioWaitTask then
    match s.unit.ioSignalMask with
    | some bit => { s with self := s.self.signal bit }
    | none => s
  else s

inductive Event where
  | parent (a : ExecAnswer)
  | child (a : ExecAnswer)
  | interrupt
deriving DecidableEq, Repr

def step (s : Handshake) : Event → Option Handshake
  | .parent a => s.parentStep a
  | .child a => s.childStep a
  | .interrupt => some s.interrupt

end Handshake

end VirtioScsi
