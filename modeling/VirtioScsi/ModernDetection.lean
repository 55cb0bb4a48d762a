import Mathlib.Tactic

/-!
# Detection of the modern transport

`DetectModernVirtIO` (`pci_modern_detect.c`) walks at most 32 PCI capabilities,
sets one base address for each kind of configuration region it finds, and then
probes the status register of the common configuration.  A field holds the
region of the last capability of its kind; only the common configuration
decides the mode.
-/

namespace VirtioScsi

/-! ## The device as the driver reaches it -/

/-- An access to the registers of the device, with what is read or written. -/
inductive RegAccess where
  | writeConfigWord (reg : ℕ) (value : BitVec 16)
  | mmioR8 (addr : BitVec 32) (value : BitVec 8)
  | mmioW8 (addr : BitVec 32) (value : BitVec 8)
  | mmioR16 (addr : BitVec 32) (value : BitVec 16)
  | mmioW16 (addr : BitVec 32) (value : BitVec 16)
  | mmioR32 (addr : BitVec 32) (value : BitVec 32)
  | mmioW32 (addr : BitVec 32) (value : BitVec 32)
  | inByte (port : BitVec 32) (value : BitVec 8)
  | outByte (port : BitVec 32) (value : BitVec 8)
  | inWord (port : BitVec 32) (value : BitVec 16)
  | outWord (port : BitVec 32) (value : BitVec 16)
  | inLong (port : BitVec 32) (value : BitVec 32)
  | outLong (port : BitVec 32) (value : BitVec 32)
deriving DecidableEq, Repr

structure PCICapability where
  type : ℕ
  capOffset : ℕ
deriving DecidableEq, Repr

structure PCIResourceRange where
  baseAddress : BitVec 32
  physical : BitVec 32
deriving DecidableEq, Repr

/-- What a `PCIDevice` answers.  Capabilities are named by their addresses;
`GetResourceRange` may answer differently in each turn of the walk, and
`statusProbe` is what the status register of a common configuration reads back
after the acknowledgement. -/
structure PCIDevice where
  firstCapability : Option ℕ
  nextCapability : ℕ → Option ℕ
  capability : ℕ → PCICapability
  readConfigByte : ℕ → BitVec 8
  readConfigLong : ℕ → BitVec 32
  pciCommand : BitVec 16
  getResourceRange : ℕ → BitVec 8 → Option PCIResourceRange
  statusProbe : BitVec 32 → BitVec 8

/-- The fields of `struct VirtIOSCSIBase` about the transport. -/
structure TransportBase where
  bar0 : Option PCIResourceRange
  modernMode : Bool
  commonCfgBase : BitVec 32
  notifyCfgBase : BitVec 32
  notifyOffMult : BitVec 32
  isrCfgBase : BitVec 32
  deviceCfgBase : BitVec 32
deriving DecidableEq, Repr

def pciCapabilityidVendor : ℕ := 0x09
def pciCommandReg : ℕ := 0x04
def pciCommandMemory : BitVec 16 := 0x0002
def pciCommandMaster : BitVec 16 := 0x0004

def virtioPciCapCommonCfg : BitVec 8 := 1
def virtioPciCapNotifyCfg : BitVec 8 := 2
def virtioPciCapIsrCfg : BitVec 8 := 3
def virtioPciCapDeviceCfg : BitVec 8 := 4

def virtioCapOffCfgType : ℕ := 3
def virtioCapOffBar : ℕ := 4
def virtioCapOffOffset : ℕ := 8
def virtioCapOffNotifyMult : ℕ := 16

def virtioPciCommonStatus : BitVec 32 := 0x14

/-! ## The walk -/

def visitCapability (dev : PCIDevice) (turn : ℕ) (cap : PCICapability)
    (base : TransportBase) : TransportBase :=
  if cap.type ≠ pciCapabilityidVendor then base
  else
    let cfgType := dev.readConfigByte (cap.capOffset + virtioCapOffCfgType)
    let barNum := dev.readConfigByte (cap.capOffset + virtioCapOffBar)
    let offset := dev.readConfigLong (cap.capOffset + virtioCapOffOffset)
    match dev.getResourceRange turn barNum with
    | none => base
    | some bar =>
        let addr := bar.baseAddress + offset
        if cfgType = virtioPciCapCommonCfg then
          { base with commonCfgBase := addr, modernMode := true }
        else if cfgType = virtioPciCapNotifyCfg then
          { base with
            notifyCfgBase := addr
            notifyOffMult := dev.readConfigLong (cap.capOffset + virtioCapOffNotifyMult) }
        else if cfgType = virtioPciCapIsrCfg then { base with isrCfgBase := addr }
        else if cfgType = virtioPciCapDeviceCfg then { base with deviceCfgBase := addr }
        else base

/-- The walk from a capability on; `left` turns remain of the 32. -/
def walkCapabilities (dev : PCIDevice) :
    (left guard : ℕ) → Option ℕ → TransportBase → TransportBase
  | left + 1, guard, some cap, base =>
      walkCapabilities dev left (guard + 1) (dev.nextCapability cap)
        (visitCapability dev guard (dev.capability cap) base)
  | _, _, _, base => base

structure DetectRun where
  ret : Bool
  base : TransportBase
  trace : List RegAccess
deriving DecidableEq, Repr

/-- Memory space and bus mastering are switched on only if both are off. -/
def enablePciCommand (pciCmd : BitVec 16) : List RegAccess :=
  if pciCmd &&& (pciCommandMemory ||| pciCommandMaster) = 0 then
    [.writeConfigWord pciCommandReg (pciCmd ||| pciCommandMemory ||| pciCommandMaster)]
  else []

def TransportBase.cleared (base : TransportBase) : TransportBase :=
  { bar0 := base.bar0
    modernMode := false
    commonCfgBase := 0
    notifyCfgBase := 0
    notifyOffMult := 0
    isrCfgBase := 0
    deviceCfgBase := 0 }

def detectModernVirtio (pciDev : Option PCIDevice) (base : TransportBase) : DetectRun :=
  match pciDev with
  | none => ⟨false, base.cleared, []⟩
  | some dev =>
      let base := walkCapabilities dev 32 0 dev.firstCapability base.cleared
      if base.modernMode ∧ base.commonCfgBase ≠ 0 then
        let status := base.commonCfgBase + virtioPciCommonStatus
        let probe := dev.statusProbe base.commonCfgBase
        let base := if probe = 0x01 then base else { base with modernMode := false }
        ⟨base.modernMode, base, enablePciCommand dev.pciCommand ++
          [.mmioW8 status 0x00, .mmioW8 status 0x01, .mmioR8 status probe, .mmioW8 status 0x00]⟩
      else ⟨base.modernMode, base, []⟩

/-! ## Regions -/

inductive CfgKind where
  | common
  | notify
  | isr
  | device
deriving DecidableEq, Repr

def CfgKind.cfgType : CfgKind → BitVec 8
  | common => virtioPciCapCommonCfg
  | notify => virtioPciCapNotifyCfg
  | isr => virtioPciCapIsrCfg
  | device => virtioPciCapDeviceCfg

def TransportBase.cfgBase (base : TransportBase) : CfgKind → BitVec 32
  | .common => base.commonCfgBase
  | .notify => base.notifyCfgBase
  | .isr => base.isrCfgBase
  | .device => base.deviceCfgBase

namespace PCIDevice

variable (dev : PCIDevice)

def visitedFrom : (left guard : ℕ) → Option ℕ → List (ℕ × PCICapability)
  | left + 1, guard, some cap =>
      (guard, dev.capability cap) :: visitedFrom left (guard + 1) (dev.nextCapability cap)
  | _, _, _ => []

def visited : List (ℕ × PCICapability) := dev.visitedFrom 32 0 dev.firstCapability

/-- The region of a kind that a capability describes, in a BAR that is
available. -/
def region (kind : CfgKind) (v : ℕ × PCICapability) : Option (BitVec 32) :=
  if v.2.type = pciCapabilityidVendor ∧
      dev.readConfigByte (v.2.capOffset + virtioCapOffCfgType) = kind.cfgType then
    (dev.getResourceRange v.1 (dev.readConfigByte (v.2.capOffset + virtioCapOffBar))).map
      fun bar => bar.baseAddress + dev.readConfigLong (v.2.capOffset + virtioCapOffOffset)
  else none

def regions (kind : CfgKind) : List (BitVec 32) := dev.visited.filterMap (dev.region kind)

end PCIDevice

/-- A field that some elements of a list set holds what the last of them set. -/
theorem foldl_field_eq {σ α β : Type*} {step : σ → α → σ} (field : σ → β) (set : α → Option β)
    (hstep : ∀ s a, field (step s a) = (set a).getD (field s)) (l : List α) (s : σ) :
    field (l.foldl step s) = (l.filterMap set).getLast?.getD (field s) := by
  induction l generalizing s with
  | nil => rfl
  | cons a l ih =>
      rw [List.foldl_cons, ih, hstep, List.filterMap_cons]
      cases set a with
      | none => rfl
      | some b =>
          dsimp only [Option.getD_some]
          rw [List.getLast?_cons, Option.getD_some]

section Walk

variable {dev : PCIDevice}

theorem walkCapabilities_eq_foldl (left guard : ℕ) (cap : Option ℕ) (base : TransportBase) :
    walkCapabilities dev left guard cap base =
      (dev.visitedFrom left guard cap).foldl
        (fun base v => visitCapability dev v.1 v.2 base) base := by
  induction left generalizing guard cap base with
  | zero => rfl
  | succ left ih =>
      cases cap with
      | none => rfl
      | some cap => exact ih (guard + 1) (dev.nextCapability cap) _

theorem visitCapability_cfgBase (kind : CfgKind) (turn : ℕ) (cap : PCICapability)
    (base : TransportBase) :
    (visitCapability dev turn cap base).cfgBase kind =
      (dev.region kind (turn, cap)).getD (base.cfgBase kind) := by
  unfold visitCapability PCIDevice.region
  dsimp only
  by_cases hvendor : cap.type = pciCapabilityidVendor
  · rw [if_neg (not_not.mpr hvendor)]
    cases dev.getResourceRange turn _ with
    | none => simp
    | some bar =>
        dsimp only
        -- The types are four different bytes, so one comparison succeeds.
        cases kind <;> split_ifs <;>
          simp_all [CfgKind.cfgType, TransportBase.cfgBase, virtioPciCapCommonCfg,
            virtioPciCapNotifyCfg, virtioPciCapIsrCfg, virtioPciCapDeviceCfg]
  · rw [if_pos hvendor, if_neg fun h => hvendor h.1]
    rfl

theorem visitCapability_modernMode (turn : ℕ) (cap : PCICapability) (base : TransportBase) :
    (visitCapability dev turn cap base).modernMode =
      ((dev.region .common (turn, cap)).map fun _ => true).getD base.modernMode := by
  unfold visitCapability PCIDevice.region
  dsimp only
  by_cases hvendor : cap.type = pciCapabilityidVendor
  · rw [if_neg (not_not.mpr hvendor)]
    cases dev.getResourceRange turn _ with
    | none => simp
    | some bar =>
        dsimp only
        split_ifs <;> simp_all [CfgKind.cfgType]
  · rw [if_pos hvendor, if_neg fun h => hvendor h.1]
    rfl

theorem walkCapabilities_cfgBase (dev : PCIDevice) (kind : CfgKind) (base : TransportBase) :
    (walkCapabilities dev 32 0 dev.firstCapability base).cfgBase kind =
      (dev.regions kind).getLast?.getD (base.cfgBase kind) := by
  rw [walkCapabilities_eq_foldl]
  exact foldl_field_eq (fun base => base.cfgBase kind) (dev.region kind)
    (fun base v => visitCapability_cfgBase kind v.1 v.2 base) _ base

theorem walkCapabilities_modernMode (dev : PCIDevice) (base : TransportBase) :
    (walkCapabilities dev 32 0 dev.firstCapability base).modernMode =
      ((dev.regions .common).getLast?.map fun _ => true).getD base.modernMode := by
  rw [walkCapabilities_eq_foldl, PCIDevice.regions, ← List.getLast?_map, List.map_filterMap]
  exact foldl_field_eq TransportBase.modernMode _
    (fun base v => visitCapability_modernMode v.1 v.2 base) _ base

/-- The last common configuration is the one that is probed. -/
theorem walkCapabilities_of_common (base : TransportBase) {addr : BitVec 32}
    (hcommon : (dev.regions .common).getLast? = some addr) :
    (walkCapabilities dev 32 0 dev.firstCapability base).modernMode = true ∧
      (walkCapabilities dev 32 0 dev.firstCapability base).commonCfgBase = addr := by
  have hmode := walkCapabilities_modernMode dev base
  have hbase := walkCapabilities_cfgBase dev .common base
  rw [hcommon] at hmode hbase
  exact ⟨hmode, hbase⟩

end Walk

/-! ## What detection decides -/

/-- The status register of the common configuration held the acknowledgement. -/
def DetectRun.Probed (run : DetectRun) : Prop :=
  [.mmioW8 (run.base.commonCfgBase + virtioPciCommonStatus) 0x01,
    .mmioR8 (run.base.commonCfgBase + virtioPciCommonStatus) 0x01] <:+: run.trace

section Detection

variable {dev : PCIDevice} {pciDev : Option PCIDevice} {base : TransportBase}

theorem cleared_cfgBase (base : TransportBase) (kind : CfgKind) :
    base.cleared.cfgBase kind = 0 := by
  cases kind <;> rfl

theorem detectModernVirtio_ret :
    (detectModernVirtio pciDev base).ret = (detectModernVirtio pciDev base).base.modernMode := by
  unfold detectModernVirtio
  cases pciDev with
  | none => rfl
  | some dev =>
      dsimp only
      split_ifs <;> rfl

theorem detectModernVirtio_cfgBase (dev : PCIDevice) (base : TransportBase) (kind : CfgKind) :
    (detectModernVirtio (some dev) base).base.cfgBase kind =
      (dev.regions kind).getLast?.getD 0 := by
  rw [← cleared_cfgBase base kind, ← walkCapabilities_cfgBase]
  unfold detectModernVirtio
  dsimp only
  split_ifs <;> cases kind <;> rfl

theorem detectModernVirtio_none (hcommon : (dev.regions .common).getLast? = none) :
    (detectModernVirtio (some dev) base).ret = false := by
  have hmode := walkCapabilities_modernMode dev base.cleared
  rw [hcommon] at hmode
  unfold detectModernVirtio
  dsimp only
  rw [hmode]
  rfl

theorem detectModernVirtio_null (base : TransportBase)
    (hcommon : (dev.regions .common).getLast? = some 0) :
    (detectModernVirtio (some dev) base).ret = true ∧
      (detectModernVirtio (some dev) base).trace = [] := by
  obtain ⟨hmode, hbase⟩ := walkCapabilities_of_common base.cleared hcommon
  unfold detectModernVirtio
  dsimp only
  rw [hmode, hbase, if_neg fun h => h.2 rfl]
  exact ⟨rfl, rfl⟩

theorem detectModernVirtio_probe (base : TransportBase) {addr : BitVec 32}
    (hcommon : (dev.regions .common).getLast? = some addr) (haddr : addr ≠ 0) :
    (detectModernVirtio (some dev) base).ret = decide (dev.statusProbe addr = 0x01) ∧
      (dev.statusProbe addr = 0x01 → (detectModernVirtio (some dev) base).Probed) := by
  obtain ⟨hmode, hbase⟩ := walkCapabilities_of_common base.cleared hcommon
  have hfield : (detectModernVirtio (some dev) base).base.commonCfgBase = addr := by
    have hlast := detectModernVirtio_cfgBase dev base .common
    rw [hcommon] at hlast
    exact hlast
  unfold DetectRun.Probed
  rw [hfield]
  unfold detectModernVirtio
  dsimp only
  rw [hmode, hbase, if_pos ⟨rfl, haddr⟩]
  by_cases hprobe : dev.statusProbe addr = 0x01
  · rw [hprobe]
    refine ⟨hmode, fun _ => ?_⟩
    exact ⟨enablePciCommand dev.pciCommand ++ [.mmioW8 (addr + virtioPciCommonStatus) 0x00],
      [.mmioW8 (addr + virtioPciCommonStatus) 0x00], by simp⟩
  · rw [if_neg hprobe, decide_eq_false hprobe]
    exact ⟨rfl, fun h => absurd h hprobe⟩

end Detection

end VirtioScsi
