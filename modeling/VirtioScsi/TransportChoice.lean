import VirtioScsi.DeviceInit

/-!
# The transport of a driver

Whether a driver that `DetectModernVirtIO` put into the modern mode has the
regions it uses.  Without the mode everything goes to the legacy port: the
initialisation, the reset, the interrupt handler and the notifications.  With it
the notify and ISR regions are used as they are, and detection has looked at
neither: it is sound exactly for devices that offer both wherever the probe of
their common configuration succeeds.
-/

namespace VirtioScsi

/-! ## The legacy port -/

def RegAccess.port? : RegAccess → Option (BitVec 32)
  | .inByte port _ => some port
  | .outByte port _ => some port
  | .inWord port _ => some port
  | .outWord port _ => some port
  | .inLong port _ => some port
  | .outLong port _ => some port
  | _ => none

def legacyRegisters : List (BitVec 32) :=
  [virtioPciHostFeatures, virtioPciGuestFeatures, virtioPciQueuePfn, virtioPciQueueNum,
    virtioPciQueueSel, virtioPciQueueNotify, virtioPciStatus, virtioPciIsr]

def RegAccess.OnPort (iobase : BitVec 32) (a : RegAccess) : Prop :=
  ∃ reg ∈ legacyRegisters, a.port? = some (iobase + reg)

/-- The driver reaches the device by the port of BAR0 alone. -/
structure LegacyOnly (pciDev : Option PCIDevice) (base : TransportBase) : Prop where
  init : ∀ env, ∀ a ∈ (initVirtIOSCSI pciDev base env).trace,
    ∃ bar0 ∈ base.bar0, a.OnPort bar0.physical
  cleanup : ∀ a ∈ cleanupReset pciDev base, ∃ bar0 ∈ base.bar0, a.OnPort bar0.physical
  interrupt : ∀ env isr, (initVirtIOSCSI pciDev base env).ok = true →
    ∃ a ∈ readIsr base isr, ∃ bar0 ∈ base.bar0, a.OnPort bar0.physical
  notify : ∀ env q vq, (initVirtIOSCSI pciDev base env).vqs q = some vq →
    ∃ bar0 ∈ base.bar0, (notifyQueue base vq).OnPort bar0.physical

section Legacy

variable {iobase : BitVec 32} {useEventIdx : Bool} {env : QueueEnv} {q : ℕ}

theorem legacyQueue_onPort :
    ∀ a ∈ (legacyQueue iobase useEventIdx env q).trace, a.OnPort iobase := by
  have hselect : ∀ a ∈ [.outWord (iobase + virtioPciQueueSel) (BitVec.ofNat 16 q),
      .inWord (iobase + virtioPciQueueNum) env.qMax], RegAccess.OnPort iobase a := by
    rw [List.forall_mem_cons, List.forall_mem_singleton]
    exact ⟨⟨virtioPciQueueSel, by decide, rfl⟩, ⟨virtioPciQueueNum, by decide, rfl⟩⟩
  unfold legacyQueue
  dsimp only
  split_ifs
  · exact hselect
  · split
    · rw [List.forall_mem_append, List.forall_mem_singleton]
      exact ⟨hselect, virtioPciQueuePfn, by decide, rfl⟩
    · exact hselect

theorem initLegacy_onPort (env : InitEnv) :
    ∀ a ∈ (initLegacy iobase env).trace, a.OnPort iobase := by
  unfold initLegacy
  dsimp only
  obtain ⟨rest, hrest, htrace⟩ := InitRun.finish_trace (setUpQueues _ [0, 1, 2] _)
    [.outByte (iobase + virtioPciStatus)
        (virtioStatusAcknowledge ||| virtioStatusDriver ||| virtioStatusDriverOk),
      .inByte (iobase + virtioPciStatus) env.finalStatus]
  rw [htrace, List.forall_mem_append]
  constructor
  · apply setUpQueues_induction (P := fun run => ∀ a ∈ run.trace, a.OnPort iobase)
    · simp only [List.forall_mem_cons]
      exact ⟨⟨virtioPciStatus, by decide, rfl⟩, ⟨virtioPciIsr, by decide, rfl⟩,
        ⟨virtioPciStatus, by decide, rfl⟩, ⟨virtioPciStatus, by decide, rfl⟩,
        ⟨virtioPciHostFeatures, by decide, rfl⟩, ⟨virtioPciGuestFeatures, by decide, rfl⟩,
        List.forall_mem_nil _⟩
    · intro q _ run hrun
      exact List.forall_mem_append.mpr ⟨hrun, legacyQueue_onPort⟩
  · intro a ha
    have hlast := hrest.subset ha
    simp only [List.mem_cons, List.not_mem_nil, or_false] at hlast
    rcases hlast with rfl | rfl
    · exact ⟨virtioPciStatus, by decide, rfl⟩
    · exact ⟨virtioPciStatus, by decide, rfl⟩

theorem initLegacy_modern (env : InitEnv) {vq : QueueRecord}
    (hvq : (initLegacy iobase env).vqs q = some vq) : vq.modern = false := by
  unfold initLegacy at hvq
  dsimp only at hvq
  rw [InitRun.finish_vqs] at hvq
  revert q vq
  apply setUpQueues_induction (P := fun run => ∀ q vq, run.vqs q = some vq → vq.modern = false)
  · intro q vq hvq
    cases hvq
  · intro q _ run hrun q' vq hvq
    rcases InitRun.turn_vqs hvq with h | ⟨_, houtcome⟩
    · exact hrun q' vq h
    · exact (legacyQueue_configured houtcome).2

end Legacy

section Choice

variable {pciDev : Option PCIDevice} {base : TransportBase}

theorem initVirtIOSCSI_cases (hmode : base.modernMode = false) (env : InitEnv) :
    initVirtIOSCSI pciDev base env = { ok := false, vqs := fun _ => none, trace := [] } ∨
      ∃ bar0 ∈ base.bar0,
        initVirtIOSCSI pciDev base env = initLegacy bar0.physical env := by
  unfold initVirtIOSCSI
  dsimp only
  cases pciDev with
  | none => exact Or.inl rfl
  | some dev =>
      dsimp only
      rw [hmode, if_neg Bool.false_ne_true]
      cases base.bar0 with
      | none => exact Or.inl rfl
      | some bar0 => exact Or.inr ⟨bar0, rfl, rfl⟩

theorem cleanupReset_onPort (hmode : base.modernMode = false) {a : RegAccess}
    (ha : a ∈ cleanupReset pciDev base) : ∃ bar0 ∈ base.bar0, a.OnPort bar0.physical := by
  unfold cleanupReset at ha
  cases pciDev with
  | none => cases ha
  | some dev =>
  dsimp only at ha
  rw [hmode, if_neg fun h => Bool.false_ne_true h.1] at ha
  cases hbar0 : base.bar0 with
  | none =>
      rw [hbar0] at ha
      cases ha
  | some bar0 =>
      rw [hbar0, List.mem_singleton] at ha
      exact ⟨bar0, rfl, virtioPciStatus, by decide, by rw [ha]; rfl⟩

/-- Also a handler that is installed after the initialisation finds its BAR0. -/
theorem legacyOnly_of_modernMode (hmode : base.modernMode = false) : LegacyOnly pciDev base := by
  refine ⟨fun env a ha => ?_, fun a => cleanupReset_onPort hmode, fun env isr hok => ?_,
    fun env q vq hvq => ?_⟩
  · rcases initVirtIOSCSI_cases hmode env with hinit | ⟨bar0, hbar0, hinit⟩
    · rw [hinit] at ha
      cases ha
    · rw [hinit] at ha
      exact ⟨bar0, hbar0, initLegacy_onPort env a ha⟩
  · rcases initVirtIOSCSI_cases hmode env with hinit | ⟨bar0, hbar0, hinit⟩
    · rw [hinit] at hok
      cases hok
    · rw [Option.mem_def] at hbar0
      unfold readIsr
      rw [hmode, hbar0]
      exact ⟨_, rfl, bar0, rfl, virtioPciIsr, by decide, rfl⟩
  · rcases initVirtIOSCSI_cases hmode env with hinit | ⟨bar0, hbar0, hinit⟩
    · rw [hinit] at hvq
      cases hvq
    · rw [hinit] at hvq
      rw [Option.mem_def] at hbar0
      unfold notifyQueue
      rw [initLegacy_modern env hvq, hbar0]
      exact ⟨bar0, rfl, virtioPciQueueNotify, by decide, rfl⟩

/-! ## The mode and the regions -/

/-- The modern mode has every region it uses, and without it only the port is
used. -/
structure ModernSound (pciDev : Option PCIDevice) (base : TransportBase) : Prop where
  entered : (detectModernVirtio pciDev base).ret = true →
    ∃ dev ∈ pciDev,
      (∀ kind ∈ [.common, .notify, .isr],
        (detectModernVirtio pciDev base).base.cfgBase kind ∈ dev.regions kind) ∧
      (detectModernVirtio pciDev base).Probed
  stayed : (detectModernVirtio pciDev base).ret = false →
    (detectModernVirtio pciDev base).base.modernMode = false ∧
      LegacyOnly pciDev (detectModernVirtio pciDev base).base

theorem detectModernVirtio_stayed (hret : (detectModernVirtio pciDev base).ret = false) :
    (detectModernVirtio pciDev base).base.modernMode = false ∧
      LegacyOnly pciDev (detectModernVirtio pciDev base).base := by
  have hmode : (detectModernVirtio pciDev base).base.modernMode = false := by
    rw [← detectModernVirtio_ret]
    exact hret
  exact ⟨hmode, legacyOnly_of_modernMode hmode⟩

theorem cfgBase_mem_regions {dev : PCIDevice} {kind : CfgKind} (h : dev.regions kind ≠ []) :
    (detectModernVirtio (some dev) base).base.cfgBase kind ∈ dev.regions kind := by
  rw [detectModernVirtio_cfgBase, List.getLast?_eq_some_getLast h, Option.getD_some]
  exact List.getLast_mem h

/-- For every capability chain, the mode and the regions are sound exactly when the last
`COMMON_CFG` region accepted is not at address 0 and, where the probe reads back 1
there, a `NOTIFY_CFG` and an `ISR_CFG` region were accepted too. -/
theorem modernSound_iff :
    ModernSound pciDev base ↔
      ∀ dev ∈ pciDev, ∀ addr ∈ (dev.regions .common).getLast?,
        addr ≠ 0 ∧
          (dev.statusProbe addr = 0x01 → dev.regions .notify ≠ [] ∧ dev.regions .isr ≠ []) := by
  constructor
  · rintro h dev rfl addr hcommon
    have haddr : addr ≠ 0 := by
      rintro rfl
      obtain ⟨hret, htrace⟩ := detectModernVirtio_null base hcommon
      obtain ⟨_, _, _, hprobed⟩ := h.entered hret
      -- Without a probe nothing was written to the status register.
      unfold DetectRun.Probed at hprobed
      rw [htrace] at hprobed
      exact absurd hprobed (by simp)
    refine ⟨haddr, fun hprobe => ?_⟩
    obtain ⟨hret, _⟩ := detectModernVirtio_probe base hcommon haddr
    rw [hprobe] at hret
    obtain ⟨dev', hdev, hregions, _⟩ := h.entered hret
    obtain rfl := Option.some.inj hdev
    exact ⟨List.ne_nil_of_mem (hregions .notify (by decide)),
      List.ne_nil_of_mem (hregions .isr (by decide))⟩
  · intro h
    refine ⟨fun hret => ?_, detectModernVirtio_stayed⟩
    cases pciDev with
    | none => cases hret
    | some dev =>
    cases hcommon : (dev.regions .common).getLast? with
    | none =>
        rw [detectModernVirtio_none hcommon] at hret
        cases hret
    | some addr =>
        obtain ⟨haddr, hcomplete⟩ := h dev rfl addr hcommon
        obtain ⟨hdecide, hprobed⟩ := detectModernVirtio_probe base hcommon haddr
        rw [hdecide, decide_eq_true_eq] at hret
        obtain ⟨hnotify, hisr⟩ := hcomplete hret
        have hne : dev.regions .common ≠ [] := by
          intro hnil
          rw [hnil] at hcommon
          cases hcommon
        refine ⟨dev, rfl, ?_, hprobed hret⟩
        simp only [List.forall_mem_cons]
        exact ⟨cfgBase_mem_regions hne, cfgBase_mem_regions hnotify, cfgBase_mem_regions hisr,
          List.forall_mem_nil _⟩

end Choice

namespace SampleDetection

/-- Four capabilities at the offsets 64, 96, 128 and 160; the ISR region is in
BAR2, which is not available. -/
def dev : PCIDevice :=
  { firstCapability := some 64
    nextCapability := fun cap => if cap < 160 then some (cap + 32) else none
    capability := fun cap => { type := 0x09, capOffset := cap }
    readConfigByte := fun reg =>
      if reg % 32 = 3 then BitVec.ofNat 8 (reg / 32 - 1) else if reg = 132 then 2 else 4
    readConfigLong := fun reg =>
      if reg = 112 then 4 else BitVec.ofNat 32 ((reg / 32 - 2) * 0x1000)
    pciCommand := 0
    getResourceRange := fun _ bar =>
      if bar = 4 then some { baseAddress := 0x84200000, physical := 0x4200000 } else none
    statusProbe := fun _ => 0x01 }

def base : TransportBase :=
  { bar0 := none
    modernMode := false
    commonCfgBase := 0
    notifyCfgBase := 0
    notifyOffMult := 0
    isrCfgBase := 0
    deviceCfgBase := 0 }

end SampleDetection

open SampleDetection in
/-- A device whose ISR structure lies in an unavailable BAR is still taken for modern. -/
theorem modernSound_missing_isr : ¬ ModernSound (some dev) base := by
  intro h
  obtain ⟨dev', hdev, hregions, _⟩ := h.entered (by decide)
  obtain rfl := Option.some.inj hdev
  exact absurd (hregions .isr (by decide)) (by decide)

end VirtioScsi
