import VirtioScsi.DoioAttempts
import VirtioScsi.InitAgreement
import VirtioScsi.ResourceNeeds
import VirtioScsi.TransportChoice

/-!
# The life of the manager

`_manager_Init` (`Init.c`) with all it calls, and `_manager_Expunge`, as the
operations they make on what they acquire: libraries and their interfaces, the
PCI device and its BARs, the memory of the queues, the interrupt server, the
buffers of discovery and the units.  A register that gives the device the address
of a ring lends it the ring until a reset is written.
-/

namespace VirtioScsi

open ResourceNeeds VirtioTransport

inductive Resource where
  | expansionBase
  | ipci
  | utilityBase
  | iutility
  | pciDevice
  | bar (n : ℕ)
  | capabilityBar (turn : ℕ)
  | ring (q : ℕ)
  | virtqueue (q : ℕ)
  | cookies (q : ℕ)
  | indirectTables (q : ℕ)
  | ringDma (q : ℕ)
  | ringEntries (q : ℕ)
  | lent (q : ℕ)
  | interrupt
  | inqData
  | unit (n : ℕ)
  | probe (r : DoioResource)
deriving DecidableEq, Repr

/-- What a resource may not outlive.  The interrupt handler reads the ISR
register, which a legacy device has behind BAR0. -/
def Resource.needs (base : TransportBase) : Resource → List Resource
  | .ipci => [.expansionBase]
  | .iutility => [.utilityBase]
  | .pciDevice => [.ipci]
  | .bar _ | .capabilityBar _ => [.pciDevice]
  | .cookies q | .indirectTables q => [.virtqueue q]
  | .ringDma q => [.ring q]
  | .lent q => [.ringDma q, .pciDevice]
  | .interrupt => if base.modernMode then [.pciDevice] else [.pciDevice, .bar 0]
  | .expansionBase | .utilityBase | .ring _ | .virtqueue _ | .ringEntries _ | .inqData | .unit _
  | .probe _ => []

inductive ManagerOp where
  | exec (a : Action Resource)
  | writeConfigLong (reg : ℕ) (value : BitVec 32)
  | reg (a : RegAccess)
deriving DecidableEq, Repr

/-! ## Queues -/

/-- `VirtQueue_Allocate`, with what it frees again when an allocation fails. -/
def virtQueueAllocateOps (q : ℕ) (env : VringEnv) : List (Action Resource) :=
  match env.raw, env.vq, env.cookies, env.indirectTables with
  | none, _, _, _ => []
  | some _, none, _, _ => [.acquire (.ring q), .release (.ring q)]
  | some _, some _, none, _ =>
      [.acquire (.ring q), .acquire (.virtqueue q), .release (.ring q), .release (.virtqueue q)]
  | some _, some _, some _, none =>
      [.acquire (.ring q), .acquire (.virtqueue q), .acquire (.cookies q),
        .release (.cookies q), .release (.ring q), .release (.virtqueue q)]
  | some _, some _, some _, some _ =>
      [.acquire (.ring q), .acquire (.virtqueue q), .acquire (.cookies q),
        .acquire (.indirectTables q)]

def virtQueueFree (q dmaEntries : ℕ) : List (Action Resource) :=
  (if 0 < dmaEntries then [.release (.ringDma q)] else []) ++
    [.release (.indirectTables q), .release (.cookies q), .release (.ring q),
      .release (.virtqueue q)]

/-- `StartDMA` and the array for `GetDMAList`; a queue that cannot be mapped is
freed. -/
def mapVringOps (q : ℕ) (env : MapEnv) : List (Action Resource) :=
  match env.dma, env.list with
  | [], _ => virtQueueFree q 0
  | _ :: _, none => .acquire (.ringDma q) :: .release (.ringDma q) :: virtQueueFree q 0
  | _ :: _, some _ =>
      [.acquire (.ringDma q), .acquire (.ringEntries q), .release (.ringEntries q)]

def queueMemoryOps (q : ℕ) (env : QueueEnv) : List (Action Resource) :=
  if env.qMax = 0 then []
  else
    match virtQueueAllocate (env.qMax.setWidth 32) env.vring with
    | none => virtQueueAllocateOps q env.vring
    | some _ => virtQueueAllocateOps q env.vring ++ mapVringOps q env.dma

/-- A queue is selected and its size is read before its memory is set up; the
other registers follow. -/
def queueOps (q : ℕ) (env : QueueEnv) (t : QueueTurn) : List ManagerOp :=
  (t.trace.take 2).map .reg ++ ((queueMemoryOps q env).map .exec ++ (t.trace.drop 2).map .reg)

def setUpQueuesOps (turn : ℕ → QueueTurn) (env : ℕ → QueueEnv) : List ℕ → List ManagerOp
  | [] => []
  | q :: qs =>
      queueOps q (env q) (turn q) ++
        if (turn q).outcome ≠ .failed then setUpQueuesOps turn env qs else []

/-! ## The device -/

def initVirtIOSCSIModernOps (base : TransportBase) (env : InitEnv) : List ManagerOp :=
  let status := base.commonCfgBase + virtioPciCommonStatus
  let prologue := modernReset base env ++ modernNegotiation base env
  if env.statusCheck &&& virtioStatusFeaturesOk = 0 then
    prologue.map .reg ++ [.reg (.mmioW8 status virtioStatusFailed)]
  else
    prologue.map .reg ++ (setUpQueuesOps (modernTurn base env) env.queue [0, 1, 2] ++
      if (initVirtIOSCSIModern base env).ok then
        [.reg (.mmioW8 status (virtioStatusAcknowledge ||| virtioStatusDriver |||
            virtioStatusFeaturesOk ||| virtioStatusDriverOk)),
          .reg (.mmioR8 status env.finalStatus)]
      else [])

def initLegacyOps (iobase : BitVec 32) (env : InitEnv) : List ManagerOp :=
  (legacyNegotiation iobase env).map .reg ++
    (setUpQueuesOps (legacyTurn iobase env) env.queue [0, 1, 2] ++
      if (initLegacy iobase env).ok then
        [.reg (.outByte (iobase + virtioPciStatus)
            (virtioStatusAcknowledge ||| virtioStatusDriver ||| virtioStatusDriverOk)),
          .reg (.inByte (iobase + virtioPciStatus) env.finalStatus)]
      else [])

def initVirtIOSCSIOps (pciDev : Option PCIDevice) (base : TransportBase) (env : InitEnv) :
    List ManagerOp :=
  match pciDev with
  | none => []
  | some _ =>
      if base.modernMode then initVirtIOSCSIModernOps base env
      else
        match base.bar0 with
        | none => []
        | some bar0 => initLegacyOps bar0.physical env

/-- A unit that discovery registers. -/
structure UnitEntry where
  unitNum : BitVec 32
  targetId : BitVec 32
  lunId : BitVec 32
deriving DecidableEq, Repr

/-- `struct VirtIOSCSIBase` as far as it says what is held. -/
structure VirtIOSCSIBase where
  expansionBase : Bool
  ipci : Bool
  utilityBase : Bool
  iutility : Bool
  pciDevice : Option PCIDevice
  transport : TransportBase
  bar4 : Option PCIResourceRange
  vqs : ℕ → Option QueueRecord
  irqInstalled : Bool
  units : ℕ → Option UnitEntry

def acquireIf (present : Bool) (r : Resource) : List (Action Resource) :=
  if present then [.acquire r] else []

/-- A pointer is tested before what it points to is released. -/
def releaseIf (present : Bool) (r : Resource) : List (Action Resource) :=
  if present then [.release r] else []

namespace VirtIOSCSIBase

def cleanupVirtIOSCSI (b : VirtIOSCSIBase) : VirtIOSCSIBase × List ManagerOp :=
  ({ b with vqs := fun _ => none },
    (cleanupReset b.pciDevice b.transport).map .reg ++
      [0, 1, 2].flatMap fun q =>
        match b.vqs q with
        | none => []
        | some vq => (virtQueueFree q vq.dmaEntries).map .exec)

/-- What `_manager_Init` and `_manager_Expunge` both do with the BARs and the
device. -/
def freePci (b : VirtIOSCSIBase) : List (Action Resource) :=
  releaseIf b.transport.bar0.isSome (.bar 0) ++
    (releaseIf b.bar4.isSome (.bar 4) ++ releaseIf b.pciDevice.isSome .pciDevice)

def removeVirtIOInterrupt (b : VirtIOSCSIBase) : VirtIOSCSIBase × List ManagerOp :=
  if b.irqInstalled then ({ b with irqInstalled := false }, [.exec (.release .interrupt)])
  else (b, [])

/-- `_manager_Expunge`; no unit has a task when nobody has the device open. -/
def managerExpunge (b : VirtIOSCSIBase) (libOpenCnt : BitVec 16) : List ManagerOp :=
  if libOpenCnt = 0 then
    let removed := b.removeVirtIOInterrupt
    let cleaned := removed.1.cleanupVirtIOSCSI
    removed.2 ++ (cleaned.2 ++
      (((List.range 8).flatMap fun i => releaseIf (b.units i).isSome (.unit i)) ++
        ((if b.pciDevice.isSome then b.freePci else []) ++
          (releaseIf b.iutility .iutility ++
            (releaseIf b.utilityBase .utilityBase ++
              (releaseIf b.ipci .ipci ++
                releaseIf b.expansionBase .expansionBase))))).map .exec)
  else []

end VirtIOSCSIBase

/-! ## Discovery -/

/-- What a discovery meets at a LUN: the answers to `VirtIOSCSI_DoIO`, the bytes
that reach the buffer, and whether there is memory for a unit. -/
structure ProbeEnv where
  buf : ReqBuf
  doio : DoioEnv
  written : List (BitVec 8)
  unit : Bool

/-- `inqData` (36 bytes, not cleared between two probes), the units and the
operations so far. -/
structure UnitScan where
  inqData : List (BitVec 8)
  units : ℕ → Option UnitEntry
  unitsFound : ℕ
  ops : List ManagerOp

namespace UnitScan

def inquiryRun (ready : Bool) (addr : ℕ) (env : ProbeEnv) : DoioRun :=
  DoioCall.doio ⟨env.buf, none, addr, 36, false⟩ { env.doio with ready := ready }

/-- The scan after `VirtIOSCSI_DoIO`. -/
def inquire (ready : Bool) (addr : ℕ) (env : ProbeEnv) (s : UnitScan) : UnitScan :=
  let written := env.written.take 36
  { s with
    inqData := written ++ s.inqData.drop written.length
    ops := s.ops ++ ((if ready then [.exec (.use (.virtqueue 2))] else []) ++
      ((inquiryRun ready addr env).ops.map (Action.ofOp .probe)).map .exec) }

def register (s : UnitScan) (tl : ℕ × ℕ) : UnitScan :=
  { s with
    units := Function.update s.units s.unitsFound
      (some ⟨BitVec.ofNat 32 s.unitsFound, BitVec.ofNat 32 tl.1, BitVec.ofNat 32 tl.2⟩)
    unitsFound := s.unitsFound + 1
    ops := s.ops ++ [.exec (.acquire (.unit s.unitsFound))] }

/-- One turn of the two loops of `DiscoverUnits`, after which both end as soon as
eight units are found. -/
def probe (ready : Bool) (addr : ℕ) (env : ℕ → ℕ → ProbeEnv) (s : UnitScan) (tl : ℕ × ℕ) :
    UnitScan :=
  if 8 ≤ s.unitsFound then s
  else
    let run := inquiryRun ready addr (env tl.1 tl.2)
    let s := s.inquire ready addr (env tl.1 tl.2)
    if run.result = 0 ∧ run.scsiStatus.getD 0 = 0 then
      let qual : BitVec 8 := (s.inqData.headD 0).ushiftRight 5
      let devType : BitVec 8 := s.inqData.headD 0 &&& 0x1F
      if qual = 3 then s
      else if devType ≠ 0 ∧ devType ≠ 5 then s
      else if (env tl.1 tl.2).unit then s.register tl
      else s
    else s

def start : UnitScan := ⟨List.replicate 36 0, fun _ => none, 0, []⟩

def scanOrder : List (ℕ × ℕ) := (List.range 8).product (List.range 8)

end UnitScan

/-- `DiscoverUnits`: the units and the operations. -/
def discoverUnits (ready : Bool) (inqData : Option ℕ) (env : ℕ → ℕ → ProbeEnv) :
    (ℕ → Option UnitEntry) × List ManagerOp :=
  match inqData with
  | none => (fun _ => none, [])
  | some addr =>
      let scan := UnitScan.scanOrder.foldl (UnitScan.probe ready addr env) .start
      (scan.units,
        .exec (.acquire .inqData) :: (scan.ops ++ [.exec (.release .inqData)]))

/-! ## Initialisation -/

/-- What the system answers to `_manager_Init`. -/
structure BootEnv where
  expansion : Bool
  ipci : Bool
  findDevice : BitVec 16 → Option PCIDevice
  bar5 : BitVec 32
  bar0 : Option PCIResourceRange
  bar4 : Option PCIResourceRange
  utility : Bool
  iutility : Bool
  init : InitEnv
  mapInterrupt : BitVec 32
  addIntServer : Bool
  inqData : Option ℕ
  probe : ℕ → ℕ → ProbeEnv

namespace BootEnv

variable (env : BootEnv)

/-- The transitional device is preferred. -/
def device : Option PCIDevice := (env.findDevice 0x1004).or (env.findDevice 0x1048)

/-- The handles that `DetectModernVirtIO` takes and gives back. -/
def capabilityOps (dev : PCIDevice) : List (Action Resource) :=
  dev.visited.flatMap fun v =>
    if v.2.type = pciCapabilityidVendor ∧ (dev.getResourceRange v.1
        (dev.readConfigByte (v.2.capOffset + virtioCapOffBar))).isSome then
      [.acquire (.capabilityBar v.1), .release (.capabilityBar v.1)]
    else []

def detect : DetectRun :=
  detectModernVirtio env.device ⟨env.bar0, false, 0, 0, 0, 0, 0⟩

/-- The base after `DiscoverVirtIOSCSI` found a device. -/
def discovered : VirtIOSCSIBase where
  expansionBase := true
  ipci := true
  utilityBase := false
  iutility := false
  pciDevice := env.device
  transport := env.detect.base
  bar4 := env.bar4
  vqs := fun _ => none
  irqInstalled := false
  units := fun _ => none

/-- `DiscoverVirtIOSCSI` and `DetectModernVirtIO`, for a device. -/
def discoverOps (dev : PCIDevice) : List ManagerOp :=
  .exec (.acquire .pciDevice) ::
    ((if env.bar5 = 0xFFFFFFFF then [.writeConfigLong 0x24 0] else []) ++
      ((acquireIf env.bar0.isSome (.bar 0) ++
        (acquireIf env.bar4.isSome (.bar 4) ++ capabilityOps dev)).map .exec ++
        env.detect.trace.map .reg))

/-- `InstallVirtIOInterrupt`. -/
def installVirtIOInterrupt (b : VirtIOSCSIBase) : VirtIOSCSIBase × List (Action Resource) :=
  if env.mapInterrupt = 0 then (b, [.use .pciDevice])
  else if env.addIntServer then
    ({ b with irqInstalled := true }, [.use .pciDevice, .acquire .interrupt])
  else (b, [.use .pciDevice])

end BootEnv

/-- What `_manager_Init` returns, and its operations. -/
structure BootRun where
  base : Option VirtIOSCSIBase
  ops : List ManagerOp

/-- The end of `_manager_Init`, when the queues are set up. -/
def BootEnv.publish (env : BootEnv) (b : VirtIOSCSIBase) : BootRun :=
  let installed := env.installVirtIOInterrupt b
  let found := discoverUnits (b.vqs 2).isSome env.inqData env.probe
  ⟨some { installed.1 with units := found.1 }, installed.2.map .exec ++ found.2⟩

/-- `_manager_Init`. -/
def managerInit (env : BootEnv) : BootRun :=
  if env.expansion = false then ⟨none, []⟩
  else if env.ipci = false then
    ⟨none, [.exec (.acquire .expansionBase), .exec (.release .expansionBase)]⟩
  else
    let opened : List ManagerOp := [.exec (.acquire .expansionBase), .exec (.acquire .ipci)]
    match env.device with
    | none => ⟨none, opened ++ [.exec (.release .ipci), .exec (.release .expansionBase)]⟩
    | some dev =>
        let b := env.discovered
        let ops := opened ++ env.discoverOps dev
        if env.utility = false then
          let closed : List (Action Resource) := [.release .ipci, .release .expansionBase]
          ⟨none, ops ++ (b.freePci ++ closed).map .exec⟩
        else if env.iutility = false then
          ⟨none, ops ++ (.acquire .utilityBase :: (b.freePci ++
            [.release .utilityBase, .release .ipci, .release .expansionBase])).map .exec⟩
        else
          let run := initVirtIOSCSI env.device b.transport env.init
          let b := { b with utilityBase := true, iutility := true, vqs := run.vqs }
          let ops := ops ++ ([.exec (.acquire .utilityBase), .exec (.acquire .iutility)] ++
            initVirtIOSCSIOps env.device b.transport env.init)
          if run.ok = false then
            ⟨none, ops ++ (b.cleanupVirtIOSCSI.2 ++ (b.freePci ++
              [.release .iutility, .release .utilityBase, .release .ipci,
                .release .expansionBase]).map .exec)⟩
          else
            let rest := env.publish b
            ⟨rest.base, ops ++ rest.ops⟩

end VirtioScsi
