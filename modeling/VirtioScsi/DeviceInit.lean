import VirtioScsi.ModernDetection
import VirtioScsi.PhysicalRanges
import VirtioScsi.VringLayout

/-!
# Initialisation of the device

`InitVirtIOSCSI` and `InitVirtIOSCSI_Modern` (`virtio_init.c`) as sequences of
register accesses: reset, feature negotiation and the set-up of three queues.
The two share the loop over the queues, which an unavailable queue does not
stop and a failed one does, and differ in the registers they reach.
-/

namespace VirtioScsi

/-! ## Registers -/

def virtioPciHostFeatures : BitVec 32 := 0x00
def virtioPciGuestFeatures : BitVec 32 := 0x04
def virtioPciQueuePfn : BitVec 32 := 0x08
def virtioPciQueueNum : BitVec 32 := 0x0C
def virtioPciQueueSel : BitVec 32 := 0x0E
def virtioPciQueueNotify : BitVec 32 := 0x10
def virtioPciStatus : BitVec 32 := 0x12
def virtioPciIsr : BitVec 32 := 0x13

def virtioPciCommonDfselect : BitVec 32 := 0x00
def virtioPciCommonDf : BitVec 32 := 0x04
def virtioPciCommonDfselectg : BitVec 32 := 0x08
def virtioPciCommonDfg : BitVec 32 := 0x0C
def virtioPciCommonQSelect : BitVec 32 := 0x16
def virtioPciCommonQSize : BitVec 32 := 0x18
def virtioPciCommonQEnable : BitVec 32 := 0x1C
def virtioPciCommonQNoff : BitVec 32 := 0x1E
def virtioPciCommonQDesclo : BitVec 32 := 0x20
def virtioPciCommonQDeschi : BitVec 32 := 0x24
def virtioPciCommonQAvaillo : BitVec 32 := 0x28
def virtioPciCommonQAvailhi : BitVec 32 := 0x2C
def virtioPciCommonQUsedlo : BitVec 32 := 0x30
def virtioPciCommonQUsedhi : BitVec 32 := 0x34

def virtioStatusAcknowledge : BitVec 8 := 1
def virtioStatusDriver : BitVec 8 := 2
def virtioStatusDriverOk : BitVec 8 := 4
def virtioStatusFeaturesOk : BitVec 8 := 8
def virtioStatusFailed : BitVec 8 := 128

def virtioFIndirectDesc : BitVec 32 := 1 <<< 28
def virtioFEventIdx : BitVec 32 := 1 <<< 29

/-! ## Queues -/

/-- What `InitVirtIOSCSI` sets in a `struct virtqueue`. -/
structure QueueRecord where
  index : ℕ
  placement : VringPlacement
  dmaPhys : BitVec 32
  dmaEntries : ℕ
  availPhys : BitVec 32
  usedPhys : BitVec 32
  notifyAddr : BitVec 32
  modern : Bool
  useEventIdx : Bool
  useIndirect : Bool
  lastKickAvailIdx : BitVec 16
deriving DecidableEq, Repr

/-- What the device and Exec answer while a queue is set up. -/
structure QueueEnv where
  qMax : BitVec 16
  vring : VringEnv
  dma : MapEnv
  qNoff : BitVec 16
deriving DecidableEq, Repr

inductive QueueOutcome where
  | unavailable
  | failed
  | configured (vq : QueueRecord)
deriving DecidableEq, Repr

structure QueueTurn where
  outcome : QueueOutcome
  trace : List RegAccess
deriving DecidableEq, Repr

structure InitRun where
  ok : Bool
  vqs : ℕ → Option QueueRecord
  trace : List RegAccess

def InitRun.turn (run : InitRun) (q : ℕ) (t : QueueTurn) : InitRun :=
  { ok := t.outcome ≠ .failed
    vqs :=
      match t.outcome with
      | .configured vq => Function.update run.vqs q (some vq)
      | _ => run.vqs
    trace := run.trace ++ t.trace }

def setUpQueues (turn : ℕ → QueueTurn) : List ℕ → InitRun → InitRun
  | [], run => run
  | q :: qs, run =>
      let run := run.turn q (turn q)
      if run.ok then setUpQueues turn qs run else run

/-- `StartDMA`, `AllocSysObjectTags` and `GetDMAList` for the vring: the number
of entries and the address in the first of them. -/
def mapVring (env : MapEnv) : Option (ℕ × BitVec 32) :=
  match env.dma, env.list with
  | first :: rest, some _ => some (rest.length + 1, first.addr)
  | _, _ => none

def legacyQueue (iobase : BitVec 32) (useEventIdx : Bool) (env : QueueEnv) (q : ℕ) : QueueTurn :=
  let select :=
    [.outWord (iobase + virtioPciQueueSel) (BitVec.ofNat 16 q),
      .inWord (iobase + virtioPciQueueNum) env.qMax]
  if env.qMax = 0 then ⟨.unavailable, select⟩
  else
    match virtQueueAllocate (env.qMax.setWidth 32) env.vring, mapVring env.dma with
    | some p, some (vringEntries, physAddr) =>
        ⟨.configured
          { index := q
            placement := p
            dmaPhys := physAddr
            dmaEntries := vringEntries
            availPhys := 0
            usedPhys := 0
            notifyAddr := 0
            modern := false
            useEventIdx := useEventIdx
            useIndirect := false
            lastKickAvailIdx := 0xFFFF },
          select ++ [.outLong (iobase + virtioPciQueuePfn) (physAddr / 4096)]⟩
    | _, _ => ⟨.failed, select⟩

def modernQueue (base : TransportBase) (useEventIdx useIndirect : Bool) (env : QueueEnv)
    (q : ℕ) : QueueTurn :=
  let cfg := base.commonCfgBase
  let select :=
    [.mmioW16 (cfg + virtioPciCommonQSelect) (BitVec.ofNat 16 q),
      .mmioR16 (cfg + virtioPciCommonQSize) env.qMax]
  if env.qMax = 0 then ⟨.unavailable, select⟩
  else
    match virtQueueAllocate (env.qMax.setWidth 32) env.vring, mapVring env.dma with
    | some p, some (vringEntries, descPhys) =>
        let descSize : BitVec 32 := 16 * env.qMax.setWidth 32
        let availSize : BitVec 32 := 2 * (3 + env.qMax.setWidth 32)
        let usedOffset : BitVec 32 := (descSize + availSize + 4095) &&& ~~~4095
        let availPhys := descPhys + descSize
        let usedPhys := descPhys + usedOffset
        ⟨.configured
          { index := q
            placement := p
            dmaPhys := descPhys
            dmaEntries := vringEntries
            availPhys := availPhys
            usedPhys := usedPhys
            notifyAddr := base.notifyCfgBase +
              (if base.notifyOffMult ≠ 0 then env.qNoff.setWidth 32 * base.notifyOffMult else 0)
            modern := true
            useEventIdx := useEventIdx
            useIndirect := if q = 1 then false else useIndirect
            lastKickAvailIdx := 0xFFFF },
          select ++
            [.mmioW32 (cfg + virtioPciCommonQDesclo) descPhys,
              .mmioW32 (cfg + virtioPciCommonQDeschi) 0,
              .mmioW32 (cfg + virtioPciCommonQAvaillo) availPhys,
              .mmioW32 (cfg + virtioPciCommonQAvailhi) 0,
              .mmioW32 (cfg + virtioPciCommonQUsedlo) usedPhys,
              .mmioW32 (cfg + virtioPciCommonQUsedhi) 0,
              .mmioW16 (cfg + virtioPciCommonQEnable) 1,
              .mmioR16 (cfg + virtioPciCommonQNoff) env.qNoff]⟩
    | _, _ => ⟨.failed, select⟩

/-! ## The sequences -/

/-- What the device and Exec answer during the initialisation. -/
structure InitEnv where
  pciCommand : BitVec 16
  resetStatus : ℕ → BitVec 8
  isr : BitVec 8
  hostFeatures : BitVec 32
  devFeatLo : BitVec 32
  devFeatHi : BitVec 32
  statusCheck : BitVec 8
  finalStatus : BitVec 8
  queue : ℕ → QueueEnv

/-- The reads of the status register until it is zero, at most `left` of them. -/
def pollReset (status : BitVec 32) (resetStatus : ℕ → BitVec 8) : (left tries : ℕ) →
    List RegAccess
  | 0, _ => []
  | left + 1, tries =>
      .mmioR8 status (resetStatus tries) ::
        if resetStatus tries = 0 then [] else pollReset status resetStatus left (tries + 1)

/-- The end of both sequences: a queue that failed has ended them before. -/
def InitRun.finish (run : InitRun) (driverOk : List RegAccess) : InitRun :=
  if run.ok then { run with trace := run.trace ++ driverOk } else run

def initVirtIOSCSIModern (base : TransportBase) (env : InitEnv) : InitRun :=
  let cfg := base.commonCfgBase
  let status := cfg + virtioPciCommonStatus
  let drvFeatLo := env.devFeatLo &&& (virtioFIndirectDesc ||| virtioFEventIdx)
  let drvFeatHi := env.devFeatHi &&& 1
  let useEventIdx : Bool := drvFeatLo &&& virtioFEventIdx ≠ 0
  let useIndirect : Bool := drvFeatLo &&& virtioFIndirectDesc ≠ 0
  let reset : List RegAccess :=
    .mmioW8 status 0x00 :: pollReset status env.resetStatus 1000 0
  let negotiation : List RegAccess :=
    [.mmioW8 status virtioStatusAcknowledge,
      .mmioW8 status (virtioStatusAcknowledge ||| virtioStatusDriver),
      .mmioW32 (cfg + virtioPciCommonDfselect) 0,
      .mmioR32 (cfg + virtioPciCommonDf) env.devFeatLo,
      .mmioW32 (cfg + virtioPciCommonDfselect) 1,
      .mmioR32 (cfg + virtioPciCommonDf) env.devFeatHi,
      .mmioW32 (cfg + virtioPciCommonDfselectg) 0,
      .mmioW32 (cfg + virtioPciCommonDfg) drvFeatLo,
      .mmioW32 (cfg + virtioPciCommonDfselectg) 1,
      .mmioW32 (cfg + virtioPciCommonDfg) drvFeatHi,
      .mmioW8 status (virtioStatusAcknowledge ||| virtioStatusDriver ||| virtioStatusFeaturesOk),
      .mmioR8 status env.statusCheck]
  let trace := enablePciCommand env.pciCommand ++ reset ++ negotiation
  if env.statusCheck &&& virtioStatusFeaturesOk = 0 then
    { ok := false
      vqs := fun _ => none
      trace := trace ++ [.mmioW8 status virtioStatusFailed] }
  else
    (setUpQueues (fun q => modernQueue base useEventIdx useIndirect (env.queue q) q) [0, 1, 2]
      { ok := true, vqs := fun _ => none, trace := trace }).finish
      [.mmioW8 status (virtioStatusAcknowledge ||| virtioStatusDriver |||
          virtioStatusFeaturesOk ||| virtioStatusDriverOk),
        .mmioR8 status env.finalStatus]

/-- The legacy sequence of `InitVirtIOSCSI`, on the port of BAR0. -/
def initLegacy (iobase : BitVec 32) (env : InitEnv) : InitRun :=
  let guestFeatures := env.hostFeatures &&& virtioFEventIdx
  let useEventIdx : Bool := guestFeatures &&& virtioFEventIdx ≠ 0
  (setUpQueues (fun q => legacyQueue iobase useEventIdx (env.queue q) q) [0, 1, 2]
    { ok := true
      vqs := fun _ => none
      trace :=
        [.outByte (iobase + virtioPciStatus) 0x00,
          .inByte (iobase + virtioPciIsr) env.isr,
          .outByte (iobase + virtioPciStatus) virtioStatusAcknowledge,
          .outByte (iobase + virtioPciStatus) (virtioStatusAcknowledge ||| virtioStatusDriver),
          .inLong (iobase + virtioPciHostFeatures) env.hostFeatures,
          .outLong (iobase + virtioPciGuestFeatures) guestFeatures] }).finish
    [.outByte (iobase + virtioPciStatus)
        (virtioStatusAcknowledge ||| virtioStatusDriver ||| virtioStatusDriverOk),
      .inByte (iobase + virtioPciStatus) env.finalStatus]

def initVirtIOSCSI (pciDev : Option PCIDevice) (base : TransportBase) (env : InitEnv) : InitRun :=
  let refused : InitRun := { ok := false, vqs := fun _ => none, trace := [] }
  match pciDev with
  | none => refused
  | some _ =>
      if base.modernMode then initVirtIOSCSIModern base env
      else
        match base.bar0 with
        | none => refused
        | some bar0 => initLegacy bar0.physical env

/-! ## After the initialisation -/

def cleanupReset (pciDev : Option PCIDevice) (base : TransportBase) : List RegAccess :=
  match pciDev with
  | none => []
  | some _ =>
      if base.modernMode ∧ base.commonCfgBase ≠ 0 then
        [.mmioW8 (base.commonCfgBase + virtioPciCommonStatus) 0x00]
      else
        match base.bar0 with
        | none => []
        | some bar0 => [.outByte (bar0.physical + virtioPciStatus) 0x00]

/-- The ISR register as `VirtIOSCSI_InterruptHandler` reads it; without a BAR0
the read goes through a null pointer. -/
def readIsr (base : TransportBase) (isr : BitVec 8) : Option RegAccess :=
  if base.modernMode then some (.mmioR8 base.isrCfgBase isr)
  else base.bar0.map fun bar0 => .inByte (bar0.physical + virtioPciIsr) isr

/-- The notification of `VirtQueue_Kick`, with the `iobase` of its callers. -/
def notifyQueue (base : TransportBase) (vq : QueueRecord) : RegAccess :=
  let iobase := base.bar0.elim 0 PCIResourceRange.physical
  if vq.modern then .mmioW16 vq.notifyAddr (BitVec.ofNat 16 vq.index)
  else .outWord (iobase + virtioPciQueueNotify) (BitVec.ofNat 16 vq.index)

/-! ## The queues one after the other -/

section Queues

variable {turn : ℕ → QueueTurn} {qs : List ℕ} {run : InitRun}

/-- What every turn keeps holds at the end, also after an early return. -/
theorem setUpQueues_induction {P : InitRun → Prop} (hrun : P run)
    (hturn : ∀ q ∈ qs, ∀ run, P run → P (run.turn q (turn q))) :
    P (setUpQueues turn qs run) := by
  induction qs generalizing run with
  | nil => exact hrun
  | cons q qs ih =>
      have hnext := hturn q (List.mem_cons_self) run hrun
      unfold setUpQueues
      dsimp only
      split_ifs
      · exact ih hnext fun q' hq' => hturn q' (List.mem_cons_of_mem q hq')
      · exact hnext

theorem InitRun.turn_vqs {q q' : ℕ} {t : QueueTurn} {vq : QueueRecord}
    (h : (run.turn q t).vqs q' = some vq) :
    run.vqs q' = some vq ∨ q' = q ∧ t.outcome = .configured vq := by
  unfold InitRun.turn at h
  dsimp only at h
  cases houtcome : t.outcome with
  | unavailable =>
      rw [houtcome] at h
      exact Or.inl h
  | failed =>
      rw [houtcome] at h
      exact Or.inl h
  | configured vq' =>
      rw [houtcome] at h
      dsimp only at h
      by_cases hq : q' = q
      · subst hq
        rw [Function.update_self] at h
        exact Or.inr ⟨rfl, by rw [Option.some.inj h]⟩
      · rw [Function.update_of_ne hq] at h
        exact Or.inl h

theorem InitRun.finish_vqs (driverOk : List RegAccess) : (run.finish driverOk).vqs = run.vqs := by
  unfold InitRun.finish
  split_ifs <;> rfl

theorem InitRun.finish_trace (run : InitRun) (driverOk : List RegAccess) :
    ∃ rest, rest <+: driverOk ∧ (run.finish driverOk).trace = run.trace ++ rest := by
  unfold InitRun.finish
  split_ifs
  · exact ⟨driverOk, List.prefix_refl driverOk, rfl⟩
  · exact ⟨[], List.nil_prefix, (List.append_nil run.trace).symm⟩

end Queues

/-! ## The registered rings -/

/-- The accesses by which a queue is selected and its rings are registered. -/
def ringStores (cfg : BitVec 32) (q : ℕ) (env : QueueEnv) (vq : QueueRecord) : List RegAccess :=
  [.mmioW16 (cfg + virtioPciCommonQSelect) (BitVec.ofNat 16 q),
    .mmioR16 (cfg + virtioPciCommonQSize) env.qMax,
    .mmioW32 (cfg + virtioPciCommonQDesclo) vq.dmaPhys,
    .mmioW32 (cfg + virtioPciCommonQDeschi) 0,
    .mmioW32 (cfg + virtioPciCommonQAvaillo) vq.availPhys,
    .mmioW32 (cfg + virtioPciCommonQAvailhi) 0,
    .mmioW32 (cfg + virtioPciCommonQUsedlo) vq.usedPhys,
    .mmioW32 (cfg + virtioPciCommonQUsedhi) 0]

/-- The device is told where the rings of the queue are, as far apart as
`VirtQueue_Allocate` has placed them. -/
structure Registered (cfg : BitVec 32) (q : ℕ) (env : QueueEnv) (vq : QueueRecord)
    (trace : List RegAccess) : Prop where
  allocated : virtQueueAllocate (env.qMax.setWidth 32) env.vring = some vq.placement
  stores : ringStores cfg q env vq <:+: trace
  avail : vq.availPhys - vq.dmaPhys = vq.placement.avail - vq.placement.desc
  used : vq.usedPhys - vq.dmaPhys = vq.placement.used - vq.placement.desc

section Modern

variable {base : TransportBase} {useEventIdx useIndirect : Bool} {env : QueueEnv} {q : ℕ}
  {vq : QueueRecord} {cfg : BitVec 32} {trace trace' : List RegAccess}

theorem Registered.mono (h : Registered cfg q env vq trace) (htrace : trace <:+: trace') :
    Registered cfg q env vq trace' :=
  { h with stores := h.stores.trans htrace }

/-- The formula of `InitVirtIOSCSI_Modern` is that of `VirtQueue_Allocate`. -/
theorem usedOffset_eq_mask (queueSize : BitVec 32) :
    (16 * queueSize + 2 * (3 + queueSize) + 4095) &&& ~~~4095 =
      VringSize.usedOffset queueSize := by
  have hadd : VringSize.availEnd queueSize + virtioPciVringAlign - 1 =
      16 * queueSize + 2 * (3 + queueSize) + 4095 := by
    unfold VringSize.availEnd VringSize.descSize VringSize.availSize virtioPciVringAlign
    bv_omega
  unfold VringSize.usedOffset Alignment.roundUp Alignment.roundDown
  rw [hadd]
  rfl

/-- What the set-up of a queue knows of it, when it is configured. -/
theorem modernQueue_configured
    (h : (modernQueue base useEventIdx useIndirect env q).outcome = .configured vq) :
    virtQueueAllocate (env.qMax.setWidth 32) env.vring = some vq.placement ∧
      mapVring env.dma = some (vq.dmaEntries, vq.dmaPhys) ∧
      vq.availPhys = vq.dmaPhys + VringSize.descSize (env.qMax.setWidth 32) ∧
      vq.usedPhys = vq.dmaPhys + VringSize.usedOffset (env.qMax.setWidth 32) ∧
      (ringStores base.commonCfgBase q env vq <+:
        (modernQueue base useEventIdx useIndirect env q).trace) := by
  unfold modernQueue at h ⊢
  dsimp only at h ⊢
  by_cases hmax : env.qMax = 0
  · rw [if_pos hmax] at h
    cases h
  rw [if_neg hmax] at h ⊢
  split at h
  · next p vringEntries descPhys halloc hmap =>
    cases h
    refine ⟨halloc, hmap, rfl, ?_, _, rfl⟩
    dsimp only
    rw [usedOffset_eq_mask]
  · cases h

theorem modernQueue_registered
    (h : (modernQueue base useEventIdx useIndirect env q).outcome = .configured vq) :
    Registered base.commonCfgBase q env vq
      (modernQueue base useEventIdx useIndirect env q).trace := by
  obtain ⟨halloc, _, havailPhys, husedPhys, hstores⟩ := modernQueue_configured h
  obtain ⟨_, _, _, havail, hused⟩ := virtQueueAllocate_fields halloc
  refine ⟨halloc, hstores.isInfix, ?_, ?_⟩
  · rw [havailPhys, havail, add_sub_cancel_left, add_sub_cancel_left]
  · rw [husedPhys, hused, add_sub_cancel_left, add_sub_cancel_left]

theorem initVirtIOSCSIModern_registered (base : TransportBase) (env : InitEnv) {q : ℕ}
    (hvq : (initVirtIOSCSIModern base env).vqs q = some vq) :
    Registered base.commonCfgBase q (env.queue q) vq (initVirtIOSCSIModern base env).trace := by
  unfold initVirtIOSCSIModern at hvq ⊢
  dsimp only at hvq ⊢
  split_ifs at hvq ⊢
  rw [InitRun.finish_vqs] at hvq
  obtain ⟨rest, _, htrace⟩ := InitRun.finish_trace (setUpQueues _ [0, 1, 2] _)
    [.mmioW8 (base.commonCfgBase + virtioPciCommonStatus) (virtioStatusAcknowledge |||
        virtioStatusDriver ||| virtioStatusFeaturesOk ||| virtioStatusDriverOk),
      .mmioR8 (base.commonCfgBase + virtioPciCommonStatus) env.finalStatus]
  rw [htrace]
  apply Registered.mono _ (List.prefix_append _ rest).isInfix
  revert q vq
  apply setUpQueues_induction (P := fun run => ∀ vq q, run.vqs q = some vq →
    Registered base.commonCfgBase q (env.queue q) vq run.trace)
  · intro vq q hvq
    cases hvq
  · intro q _ run hrun vq q' hvq
    rcases InitRun.turn_vqs hvq with h | ⟨rfl, houtcome⟩
    · exact (hrun vq q' h).mono (List.prefix_append _ _).isInfix
    · exact (modernQueue_registered houtcome).mono (List.suffix_append _ _).isInfix

end Modern

/-! ## A legacy queue -/

section Legacy

variable {iobase : BitVec 32} {useEventIdx : Bool} {env : QueueEnv} {vq : QueueRecord}

theorem legacyQueue_configured
    (h : (legacyQueue iobase useEventIdx env q).outcome = .configured vq) :
    mapVring env.dma = some (vq.dmaEntries, vq.dmaPhys) ∧ vq.modern = false := by
  unfold legacyQueue at h
  dsimp only at h
  split_ifs at h
  split at h
  · next hmap =>
    cases h
    exact ⟨hmap, rfl⟩
  · cases h

end Legacy

/-! ## The layout -/

/-- The layout is sound for every queue size, and the device is told of the same
one. -/
theorem vringLayout_sound :
    (∀ (queueSize raw : BitVec 32) (env : VringEnv) (p : VringPlacement),
      1 ≤ queueSize.toNat → queueSize.toNat ≤ 65535 → env.raw = some raw →
      raw.toNat + (VringSize.allocSize queueSize).toNat ≤ 2 ^ 32 →
      virtQueueAllocate queueSize env = some p →
      p.Sound queueSize.toNat raw (VringSize.allocSize queueSize).toNat) ∧
    ∀ (base : TransportBase) (env : InitEnv) (q : ℕ) (vq : QueueRecord),
      (initVirtIOSCSIModern base env).vqs q = some vq →
      Registered base.commonCfgBase q (env.queue q) vq (initVirtIOSCSIModern base env).trace := by
  constructor
  · intro queueSize raw env p _ hmax hraw hwrap halloc
    exact virtQueueAllocate_sound hmax hraw hwrap halloc
  · intro base env q vq hvq
    exact initVirtIOSCSIModern_registered base env hvq

namespace SampleInit

def base : TransportBase :=
  { bar0 := none
    modernMode := true
    commonCfgBase := 0x84200000
    notifyCfgBase := 0x84203000
    notifyOffMult := 4
    isrCfgBase := 0x84201000
    deviceCfgBase := 0x84202000 }

def queue : QueueEnv :=
  { qMax := 128
    vring :=
      { raw := some 0x10000010
        vq := some 0x10004000
        cookies := some 0x10005000
        indirectTables := some 0x10006000 }
    dma := { dma := [⟨0x20001000, 5126⟩], list := some 1 }
    qNoff := 0 }

/-- A device with one queue. -/
def env : InitEnv :=
  { pciCommand := 0
    resetStatus := fun _ => 0
    isr := 0
    hostFeatures := 0
    devFeatLo := 0x30000000
    devFeatHi := 1
    statusCheck := 11
    finalStatus := 15
    queue := fun q => if q = 0 then queue else { queue with qMax := 0 } }

end SampleInit

open SampleInit in
theorem vringLayout_sound_sample :
    (∃ p, virtQueueAllocate 128 queue.vring = some p ∧
      p.Sound 128 0x10000010 (VringSize.allocSize 128).toNat) ∧
    ∃ vq, (initVirtIOSCSIModern base env).vqs 0 = some vq ∧
      Registered base.commonCfgBase 0 (env.queue 0) vq (initVirtIOSCSIModern base env).trace :=
  ⟨⟨_, rfl, vringLayout_sound.1 128 0x10000010 queue.vring _ (by decide) (by decide) rfl
      (by decide) rfl⟩,
    _, rfl, vringLayout_sound.2 base env 0 _ rfl⟩

end VirtioScsi
