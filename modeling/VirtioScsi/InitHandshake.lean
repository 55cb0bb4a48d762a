import VirtioScsi.DeviceInit
import VirtioScsi.VirtioTransport

/-!
# The handshake of the initialisation

`InitVirtIOSCSI` (`virtio_init.c`) with a device at the other end of the
registers, for both transports: which accesses of the driver the device sees, what
it answers, and that the reset, the negotiation and the turn of each queue are
accesses the protocol allows where they happen.
-/

namespace VirtioScsi

open VirtioTransport

/-! ## The registers of the device -/

def decodeModern (cfg : BitVec 32) : RegAccess → Access
  | .writeConfigWord _ _ => .config
  | .mmioR8 addr v => if addr = cfg + virtioPciCommonStatus then .status v else .unknown
  | .mmioW8 addr v => if addr = cfg + virtioPciCommonStatus then .setStatus v else .unknown
  | .mmioR16 addr v =>
      if addr = cfg + virtioPciCommonQSize then .queueSize v
      else if addr = cfg + virtioPciCommonQNoff then .notifyOff v
      else .unknown
  | .mmioW16 addr v =>
      if addr = cfg + virtioPciCommonQSelect then .selectQueue v
      else if addr = cfg + virtioPciCommonQEnable then .enable v
      else .unknown
  | .mmioR32 addr v => if addr = cfg + virtioPciCommonDf then .offered v else .unknown
  | .mmioW32 addr v =>
      if addr = cfg + virtioPciCommonDfselect then .selectOffered v
      else if addr = cfg + virtioPciCommonDfselectg then .selectAccepted v
      else if addr = cfg + virtioPciCommonDfg then .accept v
      else if addr = cfg + virtioPciCommonQDesclo then .setLow .desc v
      else if addr = cfg + virtioPciCommonQDeschi then .setHigh .desc v
      else if addr = cfg + virtioPciCommonQAvaillo then .setLow .avail v
      else if addr = cfg + virtioPciCommonQAvailhi then .setHigh .avail v
      else if addr = cfg + virtioPciCommonQUsedlo then .setLow .used v
      else if addr = cfg + virtioPciCommonQUsedhi then .setHigh .used v
      else .unknown
  | .inByte _ _ | .outByte _ _ | .inWord _ _ | .outWord _ _ | .inLong _ _ | .outLong _ _ =>
      .unknown

/-- The selectors of a legacy device stay at the first word of the features. -/
def decodeLegacy (iobase : BitVec 32) : RegAccess → Access
  | .inByte port v =>
      if port = iobase + virtioPciStatus then .status v
      else if port = iobase + virtioPciIsr then .isr v
      else .unknown
  | .outByte port v => if port = iobase + virtioPciStatus then .setStatus v else .unknown
  | .inWord port v => if port = iobase + virtioPciQueueNum then .queueSize v else .unknown
  | .outWord port v => if port = iobase + virtioPciQueueSel then .selectQueue v else .unknown
  | .inLong port v => if port = iobase + virtioPciHostFeatures then .offered v else .unknown
  | .outLong port v =>
      if port = iobase + virtioPciGuestFeatures then .accept v
      else if port = iobase + virtioPciQueuePfn then .setPage v
      else .unknown
  | .writeConfigWord _ _ => .config
  | .mmioR8 _ _ | .mmioW8 _ _ | .mmioR16 _ _ | .mmioW16 _ _ | .mmioR32 _ _ | .mmioW32 _ _ =>
      .unknown

def decode (base : TransportBase) (a : RegAccess) : Access :=
  if base.modernMode then decodeModern base.commonCfgBase a
  else base.bar0.elim .unknown fun bar0 => decodeLegacy bar0.physical a

section Decode

variable {base : TransportBase} {bar0 : PCIResourceRange} {cfg : BitVec 32}

theorem decode_modern (hmode : base.modernMode = true) :
    decode base = decodeModern base.commonCfgBase := by
  funext a
  exact if_pos hmode

theorem decode_legacy (hmode : base.modernMode = false) (hbar0 : base.bar0 = some bar0) :
    decode base = decodeLegacy bar0.physical := by
  funext a
  simp [decode, hmode, hbar0]

theorem decodeModern_status (v : BitVec 8) :
    decodeModern cfg (.mmioR8 (cfg + virtioPciCommonStatus) v) = .status v :=
  if_pos rfl

end Decode

/-! ## What the device answers -/

/-- What Exec answers while the memory of a queue is set up. -/
structure QueueAnswers where
  vring : VringEnv
  dma : MapEnv
deriving DecidableEq, Repr

/-- The features that `InitVirtIOSCSI` chooses. -/
def driverFeatures (modern : Bool) (features : BitVec 64) : BitVec 64 :=
  if modern then
    (features.extractLsb' 32 32 &&& 1) ++
      (features.extractLsb' 0 32 &&& (virtioFIndirectDesc ||| virtioFEventIdx))
  else (0 : BitVec 32) ++ (features.extractLsb' 0 32 &&& virtioFEventIdx)

/-- The device takes the features of a modern driver; a legacy device is not
asked. -/
def FeaturesTaken (dev : Endpoint) (modern : Bool) : Prop :=
  modern = true → dev.takes (driverFeatures true dev.features) = true

instance (dev : Endpoint) (modern : Bool) : Decidable (FeaturesTaken dev modern) :=
  inferInstanceAs (Decidable (_ → _))

/-- A reset is done while the driver waits for it, which on a legacy device it
does not. -/
def ResetInTime (dev : Endpoint) (modern : Bool) : Prop :=
  dev.resetReads ≤ if modern then 1000 else 0

def resetStatus (dev : Endpoint) (tries : ℕ) : BitVec 8 :=
  if tries < dev.resetReads then dev.resetting else 0

def initEnv (dev : Endpoint) (modern : Bool) (pciCommand : BitVec 16) (isr : BitVec 8)
    (mem : ℕ → QueueAnswers) : InitEnv where
  pciCommand := pciCommand
  resetStatus := resetStatus dev
  isr := isr
  hostFeatures := dev.features.extractLsb' 0 32
  devFeatLo := dev.features.extractLsb' 0 32
  devFeatHi := dev.features.extractLsb' 32 32
  statusCheck := if dev.takes (driverFeatures true dev.features) then 11 else 3
  finalStatus := if modern then 15 else 7
  queue q :=
    { qMax := dev.size (BitVec.ofNat 16 q)
      vring := (mem q).vring
      dma := (mem q).dma
      qNoff := dev.notifyOff (BitVec.ofNat 16 q) }

/-! ## What driver and device agree on -/

/-- Where the device has to look for the rings of a queue. -/
def QueueRecord.rings (vq : QueueRecord) (size : BitVec 16) : Rings :=
  if vq.modern then
    { area := fun
        | .desc => vq.dmaPhys.setWidth 64
        | .avail => vq.availPhys.setWidth 64
        | .used => vq.usedPhys.setWidth 64
      enabled := true }
  else .ofPage size (vq.dmaPhys / 4096)

def QueueTurn.rings (t : QueueTurn) (size : BitVec 16) : Rings :=
  match t.outcome with
  | .configured vq => vq.rings size
  | .unavailable | .failed => .none

/-- A queue as both sides know it: the rings lie for the device as
`VirtQueue_Allocate` has placed them. -/
structure QueueAgreed (dev : Endpoint) (base : TransportBase) (q : ℕ) (vq : QueueRecord)
    (r : Regs) : Prop where
  size : dev.size (BitVec.ofNat 16 q) ≠ 0
  rings : r.queue (BitVec.ofNat 16 q) = vq.rings (dev.size (BitVec.ofNat 16 q))
  avail : ((r.queue (BitVec.ofNat 16 q)).area .avail -
    (r.queue (BitVec.ofNat 16 q)).area .desc).setWidth 32 = vq.placement.avail - vq.placement.desc
  used : ((r.queue (BitVec.ofNat 16 q)).area .used -
    (r.queue (BitVec.ofNat 16 q)).area .desc).setWidth 32 = vq.placement.used - vq.placement.desc
  modern : vq.modern = base.modernMode
  eventIdx : vq.useEventIdx = r.accepted.getLsbD 29
  indirect : vq.useIndirect = true → r.accepted.getLsbD 28 = true
  notify : base.modernMode = true →
    vq.notifyAddr = base.notifyCfgBase +
      (dev.notifyOff (BitVec.ofNat 16 q)).setWidth 32 * base.notifyOffMult

structure Agreed (dev : Endpoint) (base : TransportBase) (vqs : ℕ → Option QueueRecord)
    (r : Regs) : Prop where
  live : r.Live
  offered : r.accepted &&& dev.features = r.accepted
  available : ∀ q < 3, ∀ vq, vqs q = some vq → QueueAgreed dev base q vq r
  unavailable : ∀ q < 3, vqs q = none →
    dev.size (BitVec.ofNat 16 q) = 0 ∧ r.queue (BitVec.ofNat 16 q) = .none

/-! ## The reset -/

section Reset

variable {dev : Endpoint} {modern : Bool} {cfg : BitVec 32} {r : Regs}

theorem legal_reset : dev.Legal modern r (.setStatus 0) := Or.inl rfl

theorem next_reset (h : dev.resetReads = 0) : dev.next r (.setStatus 0) = .fresh := by
  simp [Endpoint.next, h]

/-- The reads that wait for the reset see it done, if there are enough of them. -/
theorem pollReset_conforms (left tries : ℕ) (hsum : tries + r.resetLeft = dev.resetReads)
    (hfresh : r.resetLeft = 0 → r = .fresh) (hleft : r.resetLeft ≤ left) :
    dev.Conforms modern r
        ((pollReset (cfg + virtioPciCommonStatus) (resetStatus dev) left tries).map
          (decodeModern cfg)) ∧
      dev.final r ((pollReset (cfg + virtioPciCommonStatus) (resetStatus dev) left tries).map
        (decodeModern cfg)) = .fresh := by
  induction left generalizing tries r with
  | zero => exact ⟨trivial, hfresh (Nat.le_zero.mp hleft)⟩
  | succ left ih =>
      rw [pollReset, List.map_cons, decodeModern_status, Endpoint.conforms_cons, Endpoint.final_cons]
      by_cases hdone : r.resetLeft = 0
      · have hzero : resetStatus dev tries = 0 := if_neg (by omega)
        rw [if_pos hzero, hzero, hfresh hdone]
        exact ⟨⟨rfl, trivial⟩, rfl⟩
      · have hbusy : resetStatus dev tries = dev.resetting := if_pos (by omega)
        rw [hbusy, if_neg dev.resetting_ne]
        have hlegal : dev.Legal modern r (.status dev.resetting) := by
          simp [Endpoint.Legal, hdone]
        have hrest := @ih (dev.next r (.status dev.resetting)) (tries + 1)
        by_cases hlast : r.resetLeft = 1
        · have hnext : dev.next r (.status dev.resetting) = .fresh := by
            simp [Endpoint.next, hlast]
          rw [hnext] at hrest ⊢
          have hrest := hrest (by rw [← hsum, hlast]; rfl) (fun _ => rfl) (Nat.zero_le left)
          exact ⟨⟨hlegal, hrest.1⟩, hrest.2⟩
        · have hnext : dev.next r (.status dev.resetting) =
              { r with resetLeft := r.resetLeft - 1 } := by
            simp [Endpoint.next, hlast]
          rw [hnext] at hrest ⊢
          have hrest := hrest (by dsimp only; omega) (by dsimp only; omega) (by dsimp only; omega)
          exact ⟨⟨hlegal, hrest.1⟩, hrest.2⟩

/-- A device that is slower still resets when the driver goes on. -/
theorem pollReset_late (left tries : ℕ) (hsum : tries + r.resetLeft = dev.resetReads)
    (hleft : left < r.resetLeft) :
    (dev.final r ((pollReset (cfg + virtioPciCommonStatus) (resetStatus dev) left tries).map
        (decodeModern cfg))).resetLeft ≠ 0 := by
  induction left generalizing tries r with
  | zero => exact hleft.ne'
  | succ left ih =>
      have hbusy : resetStatus dev tries = dev.resetting := if_pos (by omega)
      have hnext : dev.next r (.status dev.resetting) =
          { r with resetLeft := r.resetLeft - 1 } := by
        have hlast : r.resetLeft ≠ 1 := by omega
        simp [Endpoint.next, hlast]
      rw [pollReset, List.map_cons, decodeModern_status, hbusy, if_neg dev.resetting_ne,
        Endpoint.final_cons, hnext]
      exact ih (tries + 1) (by dsimp only; omega) (by dsimp only; omega)

end Reset

/-! ## One queue -/

/-- What a turn does at a device whose queue is not registered yet. -/
def TurnLegal (dev : Endpoint) (base : TransportBase) (status : BitVec 8) (q : ℕ)
    (t : QueueTurn) : Prop :=
  ∀ r : Regs, r.resetLeft = 0 → r.status = status → r.queue (BitVec.ofNat 16 q) = .none →
    dev.Conforms base.modernMode r (t.trace.map (decode base)) ∧
      dev.final r (t.trace.map (decode base)) =
        { r with
          queueSel := BitVec.ofNat 16 q
          queue := Function.update r.queue (BitVec.ofNat 16 q)
            (t.rings (dev.size (BitVec.ofNat 16 q))) }

section Decode

variable {cfg iobase : BitVec 32}

/-- The accesses that select a queue, and those that register its rings. -/
theorem decodeModern_select (q qMax : BitVec 16) :
    [.mmioW16 (cfg + virtioPciCommonQSelect) q, .mmioR16 (cfg + virtioPciCommonQSize) qMax].map
        (decodeModern cfg) = [.selectQueue q, .queueSize qMax] := by
  simp [decodeModern]

theorem decodeModern_rings (desc avail used : BitVec 32) (qNoff : BitVec 16) :
    [.mmioW32 (cfg + virtioPciCommonQDesclo) desc, .mmioW32 (cfg + virtioPciCommonQDeschi) 0,
        .mmioW32 (cfg + virtioPciCommonQAvaillo) avail, .mmioW32 (cfg + virtioPciCommonQAvailhi) 0,
        .mmioW32 (cfg + virtioPciCommonQUsedlo) used, .mmioW32 (cfg + virtioPciCommonQUsedhi) 0,
        .mmioW16 (cfg + virtioPciCommonQEnable) 1,
        .mmioR16 (cfg + virtioPciCommonQNoff) qNoff].map (decodeModern cfg) =
      [.setLow .desc desc, .setHigh .desc 0, .setLow .avail avail, .setHigh .avail 0,
        .setLow .used used, .setHigh .used 0, .enable 1] ++ [.notifyOff qNoff] := by
  simp [decodeModern, virtioPciCommonDfselect, virtioPciCommonDfselectg, virtioPciCommonDfg,
    virtioPciCommonQDesclo, virtioPciCommonQDeschi, virtioPciCommonQAvaillo,
    virtioPciCommonQAvailhi, virtioPciCommonQUsedlo, virtioPciCommonQUsedhi,
    virtioPciCommonQSelect, virtioPciCommonQSize, virtioPciCommonQEnable, virtioPciCommonQNoff]

theorem decodeLegacy_select (q qMax : BitVec 16) :
    [.outWord (iobase + virtioPciQueueSel) q, .inWord (iobase + virtioPciQueueNum) qMax].map
        (decodeLegacy iobase) = [.selectQueue q, .queueSize qMax] := by
  simp [decodeLegacy]

theorem decodeLegacy_pfn (v : BitVec 32) :
    decodeLegacy iobase (.outLong (iobase + virtioPciQueuePfn) v) = .setPage v := by
  simp [decodeLegacy, virtioPciGuestFeatures, virtioPciQueuePfn]

end Decode

section Queue

variable {dev : Endpoint} {base : TransportBase} {bar0 : PCIResourceRange}
  {useEventIdx useIndirect : Bool} {env : QueueEnv} {q : ℕ} {r : Regs}

theorem select_conforms (modern : Bool) {queue qMax : BitVec 16} (hleft : r.resetLeft = 0)
    (hsize : qMax = dev.size queue) :
    dev.Conforms modern r [.selectQueue queue, .queueSize qMax] ∧
      dev.final r [.selectQueue queue, .queueSize qMax] = { r with queueSel := queue } :=
  ⟨⟨hleft, ⟨hleft, hsize⟩, trivial⟩, rfl⟩

/-- A turn that configures nothing leaves the queue selected. -/
theorem TurnLegal.of_select {status : BitVec 8} {t : QueueTurn} {qMax : BitVec 16}
    (htrace : t.trace.map (decode base) = [.selectQueue (BitVec.ofNat 16 q), .queueSize qMax])
    (hsize : qMax = dev.size (BitVec.ofNat 16 q))
    (houtcome : ∀ vq, t.outcome ≠ .configured vq) : TurnLegal dev base status q t := by
  intro r hleft _ hqueue
  rw [htrace]
  obtain ⟨hlegal, hfinal⟩ := select_conforms base.modernMode hleft hsize
  have hrings : t.rings (dev.size (BitVec.ofNat 16 q)) = .none := by
    unfold QueueTurn.rings
    split
    · next vq h => exact absurd h (houtcome vq)
    · rfl
    · rfl
  refine ⟨hlegal, ?_⟩
  rw [hfinal, hrings, ← hqueue, Function.update_eq_self]

theorem modernQueue_legal (hmode : base.modernMode = true)
    (hsize : env.qMax = dev.size (BitVec.ofNat 16 q))
    (hnoff : env.qNoff = dev.notifyOff (BitVec.ofNat 16 q)) :
    TurnLegal dev base 11 q (modernQueue base useEventIdx useIndirect env q) := by
  have hdecode := decode_modern hmode
  unfold modernQueue
  dsimp only
  by_cases hmax : env.qMax = 0
  · rw [if_pos hmax]
    apply TurnLegal.of_select _ hsize (fun _ h => by cases h)
    rw [hdecode, decodeModern_select]
  rw [if_neg hmax]
  split
  · next vringEntries descPhys _ _ =>
    intro r hleft hstatus hqueue
    rw [hdecode, List.map_append, decodeModern_select, decodeModern_rings, hmode]
    obtain ⟨hselect, hselected⟩ := select_conforms true hleft hsize
    have hconf : dev.Configuring true { r with queueSel := BitVec.ofNat 16 q } := by
      refine ⟨?_, fun _ => ?_, ?_, hsize ▸ hmax, ?_⟩
      · simp [Regs.has, hstatus, driver]
      · simp [Regs.has, hstatus, featuresOk]
      · simp [Regs.has, hstatus, driverOk]
      · rw [hqueue]
        rfl
    obtain ⟨hrings, hregistered⟩ := Endpoint.rings_conform (by exact hleft) hconf descPhys
      (descPhys + 16 * env.qMax.setWidth 32)
      (descPhys + ((16 * env.qMax.setWidth 32 + 2 * (3 + env.qMax.setWidth 32) + 4095) &&& ~~~4095))
    rw [Endpoint.conforms_append, Endpoint.conforms_append, Endpoint.final_append,
      Endpoint.final_append, hselected, hregistered]
    exact ⟨⟨hselect, hrings, ⟨hleft, rfl, hnoff⟩, trivial⟩, rfl⟩
  · apply TurnLegal.of_select _ hsize (fun _ h => by cases h)
    rw [hdecode, decodeModern_select]

theorem legacyQueue_legal (hmode : base.modernMode = false) (hbar0 : base.bar0 = some bar0)
    (hsize : env.qMax = dev.size (BitVec.ofNat 16 q)) :
    TurnLegal dev base 3 q (legacyQueue bar0.physical useEventIdx env q) := by
  have hdecode := decode_legacy hmode hbar0
  unfold legacyQueue
  dsimp only
  by_cases hmax : env.qMax = 0
  · rw [if_pos hmax]
    apply TurnLegal.of_select _ hsize (fun _ h => by cases h)
    rw [hdecode, decodeLegacy_select]
  rw [if_neg hmax]
  split
  · next vringEntries physAddr _ _ =>
    intro r hleft hstatus hqueue
    rw [hdecode, List.map_append, decodeLegacy_select, List.map_singleton, decodeLegacy_pfn, hmode]
    obtain ⟨hselect, hselected⟩ := select_conforms false hleft hsize
    have hconf : dev.Configuring false { r with queueSel := BitVec.ofNat 16 q } := by
      refine ⟨?_, fun h => (by cases h), ?_, hsize ▸ hmax, ?_⟩
      · simp [Regs.has, hstatus, driver]
      · simp [Regs.has, hstatus, driverOk]
      · rw [hqueue]
        rfl
    rw [Endpoint.conforms_append, Endpoint.final_append, hselected]
    exact ⟨⟨hselect, ⟨hleft, rfl, hconf⟩, trivial⟩, rfl⟩
  · apply TurnLegal.of_select _ hsize (fun _ h => by cases h)
    rw [hdecode, decodeLegacy_select]

end Queue

/-! ## All queues -/

/-- The device while the queues are set up: what it was told of each is what the
driver has recorded. -/
structure SettingUp (dev : Endpoint) (base : TransportBase) (start : Regs) (status : BitVec 8)
    (features : BitVec 64) (run : InitRun) (r : Regs) : Prop where
  conforms : dev.Conforms base.modernMode start (run.trace.map (decode base))
  final : dev.final start (run.trace.map (decode base)) = r
  settled : r.resetLeft = 0
  status_eq : r.status = status
  features_eq : r.accepted = features
  queues : ∀ q < 65536, r.queue (BitVec.ofNat 16 q) =
    (run.vqs q).elim .none fun vq => vq.rings (dev.size (BitVec.ofNat 16 q))

section Queues

variable {dev : Endpoint} {base : TransportBase} {start r : Regs} {status : BitVec 8}
  {features : BitVec 64} {turn : ℕ → QueueTurn} {run : InitRun} {qs : List ℕ}

theorem ofNat_ne {q q' : ℕ} (hq : q < 65536) (hq' : q' < 65536) (hne : q' ≠ q) :
    BitVec.ofNat 16 q' ≠ BitVec.ofNat 16 q := by
  intro h
  have hnat := congrArg BitVec.toNat h
  rw [BitVec.toNat_ofNat, BitVec.toNat_ofNat, Nat.mod_eq_of_lt hq, Nat.mod_eq_of_lt hq'] at hnat
  exact hne hnat

theorem turn_vqs_of_ne {q q' : ℕ} {t : QueueTurn} (hne : q' ≠ q) :
    (run.turn q t).vqs q' = run.vqs q' := by
  unfold InitRun.turn
  cases t.outcome with
  | unavailable => rfl
  | failed => rfl
  | configured vq => exact Function.update_of_ne hne _ _

theorem turn_rings {q : ℕ} {t : QueueTurn} (hnone : run.vqs q = none) (size : BitVec 16) :
    ((run.turn q t).vqs q).elim .none (fun vq => vq.rings size) = t.rings size := by
  unfold InitRun.turn QueueTurn.rings
  cases t.outcome with
  | unavailable =>
      dsimp only
      rw [hnone]
      rfl
  | failed =>
      dsimp only
      rw [hnone]
      rfl
  | configured vq =>
      dsimp only
      rw [Function.update_self]
      rfl

theorem SettingUp.step {q : ℕ} {t : QueueTurn} (h : SettingUp dev base start status features run r)
    (hq : q < 65536) (hnone : run.vqs q = none) (ht : TurnLegal dev base status q t) :
    ∃ r', SettingUp dev base start status features (run.turn q t) r' := by
  have hqueue : r.queue (BitVec.ofNat 16 q) = .none := by rw [h.queues q hq, hnone]; rfl
  obtain ⟨hlegal, hfinal⟩ := ht r h.settled h.status_eq hqueue
  refine ⟨{ r with
    queueSel := BitVec.ofNat 16 q
    queue := Function.update r.queue (BitVec.ofNat 16 q) (t.rings (dev.size (BitVec.ofNat 16 q))) },
    ⟨?_, ?_, h.settled, h.status_eq, h.features_eq, ?_⟩⟩
  · unfold InitRun.turn
    rw [List.map_append, Endpoint.conforms_append, h.final]
    exact ⟨h.conforms, hlegal⟩
  · unfold InitRun.turn
    rw [List.map_append, Endpoint.final_append, h.final, hfinal]
  · intro q' hq'
    dsimp only
    by_cases hsame : q' = q
    · rw [hsame, Function.update_self, turn_rings hnone]
    · rw [Function.update_of_ne (ofNat_ne hq hq' hsame), h.queues q' hq', turn_vqs_of_ne hsame]

theorem SettingUp.setUpQueues (h : SettingUp dev base start status features run r)
    (hnodup : qs.Nodup) (hqs : ∀ q ∈ qs, q < 65536 ∧ run.vqs q = none)
    (hturn : ∀ q ∈ qs, TurnLegal dev base status q (turn q)) :
    ∃ r', SettingUp dev base start status features (setUpQueues turn qs run) r' := by
  induction qs generalizing run r with
  | nil => exact ⟨r, h⟩
  | cons q qs ih =>
      obtain ⟨hq, hnone⟩ := hqs q List.mem_cons_self
      obtain ⟨hnotin, hnodup⟩ := List.nodup_cons.mp hnodup
      obtain ⟨r', hnext⟩ := h.step hq hnone (hturn q List.mem_cons_self)
      unfold VirtioScsi.setUpQueues
      dsimp only
      split_ifs
      · apply ih hnext hnodup
        · intro q' hq'
          have hne : q' ≠ q := fun heq => hnotin (heq ▸ hq')
          obtain ⟨hlt, hnone'⟩ := hqs q' (List.mem_cons_of_mem q hq')
          exact ⟨hlt, by rw [turn_vqs_of_ne hne, hnone']⟩
        · exact fun q' hq' => hturn q' (List.mem_cons_of_mem q hq')
      · exact ⟨r', hnext⟩

/-- What is recorded of a queue is what its turn has configured. -/
theorem setUpQueues_recorded
    (hrun : ∀ q vq, run.vqs q = some vq → (turn q).outcome = .configured vq) {q : ℕ}
    {vq : QueueRecord} (h : (setUpQueues turn qs run).vqs q = some vq) :
    (turn q).outcome = .configured vq := by
  revert q vq
  apply setUpQueues_induction (P := fun run => ∀ q vq, run.vqs q = some vq →
    (turn q).outcome = .configured vq) hrun
  intro q _ run hrun q' vq hvq
  rcases InitRun.turn_vqs hvq with h | ⟨rfl, houtcome⟩
  · exact hrun q' vq h
  · exact houtcome

theorem setUpQueues_vqs_of_not_mem {q : ℕ} (hq : q ∉ qs) :
    (setUpQueues turn qs run).vqs q = run.vqs q := by
  induction qs generalizing run with
  | nil => rfl
  | cons q' qs ih =>
      rw [List.mem_cons, not_or] at hq
      unfold setUpQueues
      dsimp only
      split_ifs
      · rw [ih hq.2, turn_vqs_of_ne hq.1]
      · exact turn_vqs_of_ne hq.1

/-- A run that came to its end has left out the queues that are not there, and
no others. -/
theorem setUpQueues_unavailable (hnodup : qs.Nodup) (hok : (setUpQueues turn qs run).ok = true)
    {q : ℕ} (hq : q ∈ qs) (hnone : (setUpQueues turn qs run).vqs q = none) :
    (turn q).outcome = .unavailable := by
  induction qs generalizing run with
  | nil => cases hq
  | cons q' qs ih =>
      obtain ⟨hnotin, hnodup⟩ := List.nodup_cons.mp hnodup
      unfold setUpQueues at hok hnone
      dsimp only at hok hnone
      by_cases hturn : (run.turn q' (turn q')).ok = true
      · rw [if_pos hturn] at hok hnone
        rcases List.mem_cons.mp hq with rfl | hmem
        · rw [setUpQueues_vqs_of_not_mem hnotin] at hnone
          unfold InitRun.turn at hturn hnone
          cases houtcome : (turn q).outcome with
          | unavailable => rfl
          | failed => simp [houtcome] at hturn
          | configured vq => simp [houtcome] at hnone
        · exact ih hnodup hok hmem hnone
      · rw [if_neg hturn] at hok
        exact absurd hok hturn

end Queues

/-! ## The two sequences -/

def modernReset (base : TransportBase) (env : InitEnv) : List RegAccess :=
  enablePciCommand env.pciCommand ++
    .mmioW8 (base.commonCfgBase + virtioPciCommonStatus) 0x00 ::
      pollReset (base.commonCfgBase + virtioPciCommonStatus) env.resetStatus 1000 0

def modernNegotiation (base : TransportBase) (env : InitEnv) : List RegAccess :=
  let cfg := base.commonCfgBase
  let status := cfg + virtioPciCommonStatus
  [.mmioW8 status virtioStatusAcknowledge,
    .mmioW8 status (virtioStatusAcknowledge ||| virtioStatusDriver),
    .mmioW32 (cfg + virtioPciCommonDfselect) 0,
    .mmioR32 (cfg + virtioPciCommonDf) env.devFeatLo,
    .mmioW32 (cfg + virtioPciCommonDfselect) 1,
    .mmioR32 (cfg + virtioPciCommonDf) env.devFeatHi,
    .mmioW32 (cfg + virtioPciCommonDfselectg) 0,
    .mmioW32 (cfg + virtioPciCommonDfg)
      (env.devFeatLo &&& (virtioFIndirectDesc ||| virtioFEventIdx)),
    .mmioW32 (cfg + virtioPciCommonDfselectg) 1,
    .mmioW32 (cfg + virtioPciCommonDfg) (env.devFeatHi &&& 1),
    .mmioW8 status (virtioStatusAcknowledge ||| virtioStatusDriver ||| virtioStatusFeaturesOk),
    .mmioR8 status env.statusCheck]

def legacyNegotiation (iobase : BitVec 32) (env : InitEnv) : List RegAccess :=
  [.outByte (iobase + virtioPciStatus) 0x00,
    .inByte (iobase + virtioPciIsr) env.isr,
    .outByte (iobase + virtioPciStatus) virtioStatusAcknowledge,
    .outByte (iobase + virtioPciStatus) (virtioStatusAcknowledge ||| virtioStatusDriver),
    .inLong (iobase + virtioPciHostFeatures) env.hostFeatures,
    .outLong (iobase + virtioPciGuestFeatures) (env.hostFeatures &&& virtioFEventIdx)]

section Sequences

variable {dev : Endpoint} {base : TransportBase} {bar0 : PCIResourceRange} {start : Regs}
  {pciCommand : BitVec 16} {isr : BitVec 8} {mem : ℕ → QueueAnswers}

theorem enablePciCommand_conforms (hmode : base.modernMode = true) :
    dev.Conforms true start ((enablePciCommand pciCommand).map (decode base)) ∧
      dev.final start ((enablePciCommand pciCommand).map (decode base)) = start := by
  rw [decode_modern hmode]
  unfold enablePciCommand
  split_ifs
  · exact ⟨⟨trivial, trivial⟩, rfl⟩
  · exact ⟨trivial, rfl⟩

/-- The accesses of the reset after the first. -/
theorem modernReset_decoded (hmode : base.modernMode = true) :
    (modernReset base (initEnv dev true pciCommand isr mem)).map (decode base) =
      (enablePciCommand pciCommand).map (decode base) ++ .setStatus 0 ::
        (pollReset (base.commonCfgBase + virtioPciCommonStatus) (resetStatus dev) 1000 0).map
          (decodeModern base.commonCfgBase) := by
  unfold modernReset
  rw [List.map_append, List.map_cons, decode_modern hmode]
  simp [decodeModern, initEnv]

theorem modernReset_conforms (hmode : base.modernMode = true) (htime : ResetInTime dev true) :
    dev.Conforms true start
        ((modernReset base (initEnv dev true pciCommand isr mem)).map (decode base)) ∧
      dev.final start
        ((modernReset base (initEnv dev true pciCommand isr mem)).map (decode base)) = .fresh := by
  obtain ⟨henable, hstart⟩ := @enablePciCommand_conforms dev base start pciCommand hmode
  rw [modernReset_decoded hmode, Endpoint.conforms_append, Endpoint.final_append, hstart,
    Endpoint.conforms_cons, Endpoint.final_cons]
  have hpoll (r : Regs) (hleft : r.resetLeft = dev.resetReads)
      (hfresh : r.resetLeft = 0 → r = .fresh) :
      dev.Conforms true r ((pollReset (base.commonCfgBase + virtioPciCommonStatus)
          (resetStatus dev) 1000 0).map (decodeModern base.commonCfgBase)) ∧
        dev.final r ((pollReset (base.commonCfgBase + virtioPciCommonStatus)
          (resetStatus dev) 1000 0).map (decodeModern base.commonCfgBase)) = .fresh := by
    apply pollReset_conforms 1000 0 _ hfresh
    · rw [hleft]
      exact htime
    · rw [zero_add, hleft]
  by_cases hzero : dev.resetReads = 0
  · rw [next_reset hzero]
    have h := hpoll .fresh hzero.symm (fun _ => rfl)
    exact ⟨⟨henable, legal_reset, h.1⟩, h.2⟩
  · have hnext : dev.next start (.setStatus 0) = { start with resetLeft := dev.resetReads } := by
      simp [Endpoint.next, hzero]
    rw [hnext]
    have h := hpoll { start with resetLeft := dev.resetReads } rfl (fun h => absurd h hzero)
    exact ⟨⟨henable, legal_reset, h.1⟩, h.2⟩

theorem modernReset_late (hmode : base.modernMode = true) (htime : ¬ ResetInTime dev true) :
    (dev.final start
      ((modernReset base (initEnv dev true pciCommand isr mem)).map (decode base))).resetLeft
        ≠ 0 := by
  have hlate : 1000 < dev.resetReads := not_le.mp htime
  have hnext : dev.next start (.setStatus 0) = { start with resetLeft := dev.resetReads } := by
    have hzero : dev.resetReads ≠ 0 := by omega
    simp [Endpoint.next, hzero]
  obtain ⟨_, hstart⟩ := @enablePciCommand_conforms dev base start pciCommand hmode
  rw [modernReset_decoded hmode, Endpoint.final_append, hstart, Endpoint.final_cons, hnext]
  exact pollReset_late 1000 0 (zero_add _) hlate

theorem modernNegotiation_decoded (hmode : base.modernMode = true) (env : InitEnv) :
    (modernNegotiation base env).map (decode base) =
      [.setStatus 1, .setStatus 3, .selectOffered 0, .offered env.devFeatLo, .selectOffered 1,
        .offered env.devFeatHi, .selectAccepted 0,
        .accept (env.devFeatLo &&& (virtioFIndirectDesc ||| virtioFEventIdx)), .selectAccepted 1,
        .accept (env.devFeatHi &&& 1), .setStatus 11, .status env.statusCheck] := by
  unfold modernNegotiation
  rw [decode_modern hmode]
  simp [decodeModern, virtioPciCommonDfselect, virtioPciCommonDfselectg, virtioPciCommonDfg,
    virtioStatusAcknowledge, virtioStatusDriver, virtioStatusFeaturesOk]

theorem and_chosen (offered mask : BitVec 32) :
    offered &&& mask &&& offered = offered &&& mask := by
  rw [BitVec.and_comm (offered &&& mask), ← BitVec.and_assoc, BitVec.and_self]

theorem modernNegotiation_conforms (hmode : base.modernMode = true) :
    dev.Conforms true .fresh
        ((modernNegotiation base (initEnv dev true pciCommand isr mem)).map (decode base)) ∧
      dev.final .fresh
        ((modernNegotiation base (initEnv dev true pciCommand isr mem)).map (decode base)) =
        { Regs.fresh with
          status := if dev.takes (driverFeatures true dev.features) then 11 else 3
          offeredSel := 1
          acceptedSel := 1
          acceptedLow := dev.features.extractLsb' 0 32 &&& (virtioFIndirectDesc ||| virtioFEventIdx)
          acceptedHigh := dev.features.extractLsb' 32 32 &&& 1 } := by
  rw [modernNegotiation_decoded hmode]
  dsimp only [initEnv]
  have hfeatures : driverFeatures true dev.features =
      (dev.features.extractLsb' 32 32 &&& 1#32) ++
        (dev.features.extractLsb' 0 32 &&& (virtioFIndirectDesc ||| virtioFEventIdx)) := rfl
  rw [hfeatures]
  cases htakes : dev.takes ((dev.features.extractLsb' 32 32 &&& 1#32) ++
      (dev.features.extractLsb' 0 32 &&& (virtioFIndirectDesc ||| virtioFEventIdx)))
  all_goals
    constructor
    · simp [Endpoint.conforms_cons, Endpoint.Legal, Endpoint.next, Regs.fresh, Endpoint.word,
        Endpoint.keptStatus, Endpoint.StatusLegal, Endpoint.Negotiating, Regs.has, Regs.accepted,
        driver, driverOk, featuresOk, acknowledge, htakes, and_chosen]
    · simp [Endpoint.next, Regs.fresh, Endpoint.keptStatus, Regs.has, featuresOk, Regs.accepted,
        htakes]

theorem legacyNegotiation_decoded (hmode : base.modernMode = false) (hbar0 : base.bar0 = some bar0)
    (env : InitEnv) :
    (legacyNegotiation bar0.physical env).map (decode base) =
      [.setStatus 0, .isr env.isr, .setStatus 1, .setStatus 3, .offered env.hostFeatures,
        .accept (env.hostFeatures &&& virtioFEventIdx)] := by
  unfold legacyNegotiation
  rw [decode_legacy hmode hbar0]
  simp [decodeLegacy, virtioPciStatus, virtioPciIsr, virtioPciHostFeatures, virtioPciGuestFeatures,
    virtioStatusAcknowledge, virtioStatusDriver]

theorem legacyNegotiation_conforms (hmode : base.modernMode = false)
    (hbar0 : base.bar0 = some bar0) (htime : ResetInTime dev false) :
    dev.Conforms false start
        ((legacyNegotiation bar0.physical (initEnv dev false pciCommand isr mem)).map
          (decode base)) ∧
      dev.final start
        ((legacyNegotiation bar0.physical (initEnv dev false pciCommand isr mem)).map
          (decode base)) =
        { Regs.fresh with
          status := 3
          acceptedLow := dev.features.extractLsb' 0 32 &&& virtioFEventIdx } := by
  have hzero : dev.resetReads = 0 := Nat.le_zero.mp htime
  rw [legacyNegotiation_decoded hmode hbar0, Endpoint.conforms_cons, Endpoint.final_cons,
    next_reset hzero]
  constructor
  · refine ⟨legal_reset, ?_⟩
    simp [initEnv, Endpoint.conforms_cons, Endpoint.Legal, Endpoint.next, Regs.fresh,
      Endpoint.word, Endpoint.keptStatus, Endpoint.StatusLegal, Endpoint.Negotiating, Regs.has,
      driver, driverOk, featuresOk, acknowledge, and_chosen]
  · simp [initEnv, Endpoint.next, Regs.fresh, Endpoint.keptStatus, Regs.has, featuresOk]

/-- A legacy driver does not wait for the reset. -/
theorem legacyNegotiation_late (hmode : base.modernMode = false) (hbar0 : base.bar0 = some bar0)
    (htime : ¬ ResetInTime dev false) (env : InitEnv) :
    ¬ dev.Conforms false start ((legacyNegotiation bar0.physical env).map (decode base)) := by
  have hzero : dev.resetReads ≠ 0 := fun h => htime (le_of_eq h)
  rw [legacyNegotiation_decoded hmode hbar0, Endpoint.conforms_cons, Endpoint.conforms_cons]
  rintro ⟨_, hisr, _⟩
  simp [Endpoint.next, Endpoint.Legal, hzero] at hisr

theorem modernNegotiation_late (hmode : base.modernMode = true) (env : InitEnv)
    (hleft : start.resetLeft ≠ 0) :
    ¬ dev.Conforms true start ((modernNegotiation base env).map (decode base)) := by
  rw [modernNegotiation_decoded hmode, Endpoint.conforms_cons]
  rintro ⟨hstatus, _⟩
  simp [Endpoint.Legal, hleft] at hstatus

end Sequences

end VirtioScsi
