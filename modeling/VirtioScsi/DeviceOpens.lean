import VirtioScsi.UnitService

/-!
# Opening, closing and expunging the device

`_manager_Open` (`Open.c`), `_manager_Close` (`Close.c`) and `_manager_Expunge`
(`Expunge.c`), which exec calls one at a time.  `units[]` is filled before the
first of them and emptied by the expunge only.  What is torn down is history,
next to the units whose task ran at that moment.
-/

namespace VirtioScsi

/-! ## Units -/

/-- What `UnitTask_Start` returned, and whether the task runs from then on. -/
structure StartAnswer where
  returned : Bool
  running : Bool
deriving DecidableEq, Repr

/-- The fields of `struct VirtIOUSCSIDevUnit` that count its openers.  `task`
says that the task runs. -/
structure OpenUnit where
  openCount : BitVec 32
  unitOpenCnt : BitVec 16
  task : Bool
deriving DecidableEq, Repr

namespace OpenUnit

def unitTaskStart (unit : OpenUnit) (start : StartAnswer) : Bool × OpenUnit :=
  (start.returned, { unit with task := start.running })

def unitTaskShutdown (unit : OpenUnit) : OpenUnit :=
  if unit.task then { unit with task := false } else unit

def close (unit : OpenUnit) : OpenUnit :=
  if 0 < unit.openCount then
    let unit := { unit with
      openCount := unit.openCount - 1
      unitOpenCnt :=
        if 0 < unit.unitOpenCnt then unit.unitOpenCnt - 1
        else unit.unitOpenCnt }
    if unit.openCount = 0 then unit.unitTaskShutdown else unit
  else unit

end OpenUnit

/-! ## The library base -/

inductive TearDown where
  | cleanupVirtIOSCSI
  | freeVec (u : UnitNum)
deriving DecidableEq, Repr

/-- The fields of `struct VirtIOSCSIBase` the three functions go through; an
entry of `units[]` that is NULL is `none`. -/
structure DeviceBase where
  libOpenCnt : BitVec 16
  delexp : Bool
  units : UnitNum → Option OpenUnit
  deleted : Bool
  history : List (TearDown × List UnitNum)

inductive UnitPtr where
  | null
  | minusOne
  | entry (u : UnitNum)
deriving DecidableEq, Repr

def UnitPtr.isEntry : UnitPtr → Bool
  | .entry _ => true
  | .null | .minusOne => false

structure OpenRequest where
  ioUnit : UnitPtr
  ioError : Int
deriving DecidableEq, Repr

namespace DeviceBase

def runs (b : DeviceBase) (u : UnitNum) : Bool :=
  match b.units u with
  | some unit => unit.task
  | none => false

def running (b : DeviceBase) : List UnitNum :=
  (List.finRange 8).filter b.runs

def record (b : DeviceBase) (t : TearDown) : DeviceBase :=
  { b with history := b.history ++ [(t, b.running)] }

def setUnit (b : DeviceBase) (u : UnitNum) (unit : Option OpenUnit) : DeviceBase :=
  { b with units := Function.update b.units u unit }

/-- The end of `_manager_Open`; the answer is whether it returns the base. -/
def bailout (b : DeviceBase) (ioreq : OpenRequest) : DeviceBase × OpenRequest × Bool :=
  if ioreq.ioError ≠ 0 then
    ({ b with libOpenCnt := b.libOpenCnt - 1 }, { ioreq with ioUnit := .minusOne }, false)
  else (b, ioreq, true)

def managerOpen (b : DeviceBase) (ioreq : OpenRequest) (unitNum : BitVec 32)
    (start : StartAnswer) : DeviceBase × OpenRequest × Bool :=
  let b := { b with libOpenCnt := b.libOpenCnt + 1 }
  if h : unitNum.toNat < 8 then
    let u : UnitNum := ⟨unitNum.toNat, h⟩
    match b.units u with
    | none => b.bailout { ioreq with ioError := ioerrOpenFail }
    | some unit =>
        let (started, unit) :=
          if unit.openCount = 0 then unit.unitTaskStart start else (true, unit)
        if started then
          let unit := { unit with
            openCount := unit.openCount + 1
            unitOpenCnt := unit.unitOpenCnt + 1 }
          { b.setUnit u (some unit) with delexp := false }.bailout
            { ioUnit := .entry u, ioError := 0 }
        else
          (b.setUnit u (some unit)).bailout { ioreq with ioError := ioerrOpenFail }
  else b.bailout { ioreq with ioError := ioerrOpenFail }

/-- One turn of the loop of `_manager_Expunge`. -/
def expungeUnit (b : DeviceBase) (u : UnitNum) : DeviceBase :=
  match b.units u with
  | none => b
  | some unit =>
      ((b.setUnit u (some unit.unitTaskShutdown)).record (.freeVec u)).setUnit u none

def managerExpunge (b : DeviceBase) : DeviceBase :=
  if b.libOpenCnt = 0 then
    { (List.finRange 8).foldl expungeUnit (b.record .cleanupVirtIOSCSI) with deleted := true }
  else { b with delexp := true }

/-- `none` if `io_Unit` points to a unit that was freed. -/
def managerClose (b : DeviceBase) (ioreq : OpenRequest) : Option (DeviceBase × OpenRequest) :=
  let closed : Option DeviceBase :=
    match ioreq.ioUnit with
    | .null | .minusOne => some b
    | .entry u => (b.units u).map fun unit => b.setUnit u (some unit.close)
  closed.map fun b =>
    let b := { b with libOpenCnt := b.libOpenCnt - 1 }
    let b :=
      if b.libOpenCnt = 0 then
        if b.delexp then b.managerExpunge else b
      else b
    (b, { ioreq with ioUnit := .minusOne })

end DeviceBase

/-! ## The device and its openers -/

/-- `opened` is history: how many opens were not closed yet. -/
structure DeviceOpens (α : Type*) where
  base : DeviceBase
  ioreq : α → OpenRequest
  opened : ℕ

inductive ManagerCall (α : Type*) where
  | managerOpen (r : α) (unitNum : BitVec 32) (start : StartAnswer)
  | managerClose (r : α)
  | managerExpunge
deriving DecidableEq

namespace DeviceOpens

variable {α : Type*} [DecidableEq α]

def IsOpen (s : DeviceOpens α) (r : α) : Prop :=
  (s.ioreq r).ioUnit.isEntry = true

instance (s : DeviceOpens α) (r : α) : Decidable (s.IsOpen r) :=
  inferInstanceAs (Decidable ((s.ioreq r).ioUnit.isEntry = true))

/-- Only an opened request is closed, and nobody calls a deleted library.  A
request may be opened again. -/
def step (s : DeviceOpens α) : ManagerCall α → Option (DeviceOpens α)
  | .managerOpen r unitNum start =>
      if s.base.deleted then none
      else
        let (b, q, ok) := s.base.managerOpen (s.ioreq r) unitNum start
        some
          { base := b
            ioreq := Function.update s.ioreq r q
            opened := if ok then s.opened + 1 else s.opened }
  | .managerClose r =>
      if s.base.deleted ∨ ¬ s.IsOpen r then none
      else
        (s.base.managerClose (s.ioreq r)).map fun (b, q) =>
          { base := b
            ioreq := Function.update s.ioreq r q
            opened := s.opened - 1 }
  | .managerExpunge =>
      if s.base.deleted then none
      else some { s with base := s.base.managerExpunge }

/-- The device after its discovery, with a unit where `present` says so. -/
def initial (present : UnitNum → Bool) : DeviceOpens α where
  base :=
    { libOpenCnt := 0
      delexp := false
      units := fun u => if present u then some ⟨0, 0, false⟩ else none
      deleted := false
      history := [] }
  ioreq := fun _ => ⟨.null, 0⟩
  opened := 0

/-! ## What the callers and the tasks are trusted with -/

/-- `UnitTask_Start` returns TRUE exactly when the task runs. -/
def SoundStart : ManagerCall α → Prop
  | .managerOpen _ _ start => start.returned = start.running
  | .managerClose _ | .managerExpunge => True

instance : DecidablePred (SoundStart (α := α))
  | .managerOpen _ _ start => inferInstanceAs (Decidable (start.returned = start.running))
  | .managerClose _ | .managerExpunge => isTrue trivial

/-- The step starts tasks soundly and leaves fewer than 65536 opens. -/
def Trusted (s : DeviceOpens α) (e : ManagerCall α) : Prop :=
  SoundStart e ∧ ∀ s' ∈ s.step e, s'.opened < 65536

instance (s : DeviceOpens α) (e : ManagerCall α) : Decidable (s.Trusted e) :=
  inferInstanceAs (Decidable (SoundStart e ∧ ∀ s' ∈ s.step e, s'.opened < 65536))

end DeviceOpens
end VirtioScsi
