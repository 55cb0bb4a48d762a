import VirtioScsi.GuardedRun
import VirtioScsi.UnitTasks

/-!
# The lives of a unit

`UnitTask_Start` at the first open of a unit, and at its last close the drain
at the end of `UnitTask_Entry` and the rest of `UnitTask_Shutdown`
(`unit_task.c`), next to the running driver.  A task that is told to stop
leaves its event loop from the `Wait`, so being told needs no step of its own.

Freed buffers keep their contents, and a unit that is opened again gets the
same ones.  `free_head` of a closed unit is not modelled: the next start links
the list anew.
-/

namespace VirtioScsi

/-- Where a unit is in its life.  `clearSlot` comes after the `ReplyMsg` of a
slot, `leaving` before `free_unit_dma`. -/
inductive Phase where
  | running
  | drainSlots (next : ℕ)
  | clearSlot (slot : Slot)
  | drainPort
  | leaving
  | closed
deriving DecidableEq, Repr

structure Lifetime where
  config : Config
  phase : UnitNum → Phase

inductive LifetimeEvent where
  | driver (e : Event)
  | unitTaskStart (u : UnitNum)
  | unitTaskShutdown (u : UnitNum)
  | drain (u : UnitNum)

namespace Lifetime

def initial (setup : Setup) : Lifetime where
  config := Config.initial setup
  phase := fun _ => .closed

def enter (s : Lifetime) (u : UnitNum) (p : Phase) : Lifetime :=
  { s with phase := Function.update s.phase u p }

/-- A task runs between its start and its shutdown; messages come as long as
there is a port. -/
def enabled (s : Lifetime) : Event → Bool
  | .task u _ => decide (s.phase u = .running)
  | .putMsg u _ => decide (s.phase u ≠ .leaving ∧ s.phase u ≠ .closed)
  | _ => true

/-- `req_buf` of a closed unit is NULL, so nothing is stashed for it. -/
def shield (s : Lifetime) (c : Config) : Config :=
  { c with
    unit := fun v =>
      if s.phase v = .closed then
        { c.unit v with doioPending := (s.config.unit v).doioPending }
      else c.unit v }

def driverStep (s : Lifetime) (e : Event) : Option Lifetime :=
  if s.enabled e then
    (s.config.step e).map fun c => { s with config := s.shield c }
  else none

/-- `UnitTask_Start`: a new port and new signals; `preallocate_unit_dma` links
the free list and leaves the counters as they are. -/
def unitTaskStart (s : Lifetime) (u : UnitNum) : Option Lifetime :=
  if s.config.running ∧ s.phase u = .closed then
    some { s with
      config := { s.config.setUnit u { s.config.unit u with
          freeHead := Config.freshUnit.freeHead
          inflightNext := Config.freshUnit.inflightNext } with
        port := Function.update s.config.port u []
        portSig := Function.update s.config.portSig u false
        ioSig := Function.update s.config.ioSig u false }
      phase := Function.update s.phase u .running }
  else none

/-- The task leaves its event loop. -/
def unitTaskShutdown (s : Lifetime) (u : UnitNum) : Option Lifetime :=
  if s.phase u = .running ∧ s.config.pc u = .wait then
    some (s.enter u (.drainSlots 0))
  else none

/-- From the event loop to the return of `UnitTask_Shutdown`.  The lock is
never taken. -/
def drain (s : Lifetime) (u : UnitNum) : Option Lifetime :=
  match s.phase u with
  | .running => none
  | .drainSlots n =>
      if h : n < 16 then
        let e := (s.config.unit u).inflight ⟨n, h⟩
        match e.ioreq with
        | some r =>
            some { s.enter u (.clearSlot ⟨n, h⟩) with
              config := s.config.reply (some e.serial) r ioerrAborted 0 }
        | none => some (s.enter u (.drainSlots (n + 1)))
      else some (s.enter u .drainPort)
  | .clearSlot sl =>
      some { s.enter u (.drainSlots (sl.val + 1)) with
        config := s.config.setInflight u sl
          { (s.config.unit u).inflight sl with ioreq := none, cookie := none } }
  | .drainPort =>
      match s.config.port u with
      | r :: rest =>
          some { s with
            config := { s.config.reply none r ioerrAborted 0 with
              port := Function.update s.config.port u rest } }
      | [] => some (s.enter u .leaving)
  | .leaving => some (s.enter u .closed)
  | .closed => none

def step (s : Lifetime) : LifetimeEvent → Option Lifetime
  | .driver e => s.driverStep e
  | .unitTaskStart u => s.unitTaskStart u
  | .unitTaskShutdown u => s.unitTaskShutdown u
  | .drain u => s.drain u

/-! ## Steps of the driver -/

variable {s s' : Lifetime} {u : UnitNum} {e : Event}

theorem driverStep_eq_some (h : s.step (.driver e) = some s') :
    s.enabled e = true ∧
      ∃ c, s.config.step e = some c ∧ s' = { s with config := s.shield c } := by
  simp only [step, driverStep] at h
  split at h
  · next henabled =>
    obtain ⟨c, hc, rfl⟩ := Option.map_eq_some_iff.mp h
    exact ⟨henabled, c, hc, rfl⟩
  · cases h

theorem shield_inflight (s : Lifetime) (c : Config) (u : UnitNum) :
    ((s.shield c).unit u).inflight = (c.unit u).inflight := by
  simp only [shield]
  split <;> rfl

end Lifetime

/-! ## Sample runs -/

/-- A unit is opened, and one read is submitted and kicked. -/
def sampleOpenRead : List LifetimeEvent :=
  [.driver .start, .unitTaskStart 0, .driver (.putMsg 0 (sampleRead 1))] ++
    (taskSteps 0 8).map .driver

/-- The read is answered. -/
def sampleAnswered : List LifetimeEvent :=
  sampleOpenRead ++
    [.driver .fetch, .driver (.complete 0 620 goodResponse), .driver .signal,
      .driver .interrupt] ++ (taskSteps 0 7).map .driver

/-- The last close of unit `u`, with the device and the other tasks at rest. -/
def sampleClose (u : UnitNum) (n : ℕ) : List LifetimeEvent :=
  .unitTaskShutdown u :: List.replicate n (.drain u)

end VirtioScsi
