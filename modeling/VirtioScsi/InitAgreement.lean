import VirtioScsi.InitHandshake

/-!
# What the initialisation agrees on

`InitVirtIOSCSI` and `CleanupVirtIOSCSI` (`virtio_init.c`) as a whole.  A driver
that reports success and its device agree on the features and on every queue; a
device whose driver reports failure is never live.
-/

namespace VirtioScsi

open VirtioTransport

/-! ## What was agreed -/

theorem setWidth_sub_setWidth (a b : BitVec 32) :
    (a.setWidth 64 - b.setWidth 64).setWidth 32 = a - b := by
  apply BitVec.eq_of_toNat_eq
  simp
  omega

theorem ofPage_avail (size : BitVec 16) (page : BitVec 32) :
    ((Rings.ofPage size page).area .avail - (Rings.ofPage size page).area .desc).setWidth 32 =
      VringSize.descSize (size.setWidth 32) := by
  unfold Rings.ofPage VringSize.descSize
  dsimp only
  rw [add_sub_cancel_left, BitVec.setWidth_mul _ _ (by omega),
    BitVec.setWidth_setWidth_of_le _ (by omega)]
  rfl

theorem ofPage_used (size : BitVec 16) (page : BitVec 32) :
    ((Rings.ofPage size page).area .used - (Rings.ofPage size page).area .desc).setWidth 32 =
      VringSize.usedOffset (size.setWidth 32) := by
  rw [← usedOffset_eq_mask]
  unfold Rings.ofPage
  dsimp only
  rw [add_sub_cancel_left, BitVec.setWidth_and, BitVec.setWidth_add _ _ (by omega),
    BitVec.setWidth_add _ _ (by omega), BitVec.setWidth_mul _ _ (by omega),
    BitVec.setWidth_mul _ _ (by omega), BitVec.setWidth_add _ _ (by omega),
    BitVec.setWidth_setWidth_of_le _ (by omega)]
  rfl

theorem and_eventIdx (x : BitVec 32) : decide (x &&& virtioFEventIdx ≠ 0) = x.getLsbD 29 := by
  have hbit : virtioFEventIdx = BitVec.twoPow 32 29 := rfl
  rw [hbit, BitVec.and_twoPow]
  cases x.getLsbD 29 <;> decide

theorem and_indirectDesc (x : BitVec 32) :
    decide (x &&& virtioFIndirectDesc ≠ 0) = x.getLsbD 28 := by
  have hbit : virtioFIndirectDesc = BitVec.twoPow 32 28 := rfl
  rw [hbit, BitVec.and_twoPow]
  cases x.getLsbD 28 <;> decide

theorem getLsbD_low (high low : BitVec 32) {i : ℕ} (hi : i < 32) :
    (high ++ low).getLsbD i = low.getLsbD i := by
  rw [BitVec.getLsbD_append, if_pos hi]

section Agreement

variable {dev : Endpoint} {base : TransportBase} {bar0 : PCIResourceRange} {env : InitEnv}
  {pciCommand : BitVec 16} {isr : BitVec 8} {mem : ℕ → QueueAnswers} {q : ℕ} {vq : QueueRecord}
  {r : Regs}

/-- The turns of the two loops. -/
def modernTurn (base : TransportBase) (env : InitEnv) (q : ℕ) : QueueTurn :=
  let drvFeatLo := env.devFeatLo &&& (virtioFIndirectDesc ||| virtioFEventIdx)
  modernQueue base (drvFeatLo &&& virtioFEventIdx ≠ 0) (drvFeatLo &&& virtioFIndirectDesc ≠ 0)
    (env.queue q) q

def legacyTurn (iobase : BitVec 32) (env : InitEnv) (q : ℕ) : QueueTurn :=
  legacyQueue iobase (env.hostFeatures &&& virtioFEventIdx &&& virtioFEventIdx ≠ 0) (env.queue q) q

theorem modernTurn_agreed (hmode : base.modernMode = true)
    (h : (modernTurn base (initEnv dev true pciCommand isr mem) q).outcome = .configured vq)
    (hfeatures : r.accepted = driverFeatures true dev.features)
    (hrings : r.queue (BitVec.ofNat 16 q) = vq.rings (dev.size (BitVec.ofNat 16 q))) :
    QueueAgreed dev base q vq r := by
  have hregistered := modernQueue_registered h
  have hqueue := h
  unfold modernTurn modernQueue at hqueue
  dsimp only at hqueue
  by_cases hmax : ((initEnv dev true pciCommand isr mem).queue q).qMax = 0
  · rw [if_pos hmax] at hqueue
    cases hqueue
  rw [if_neg hmax] at hqueue
  split at hqueue
  · cases hqueue
    refine ⟨hmax, hrings, ?_, ?_, hmode.symm, ?_, ?_, ?_⟩
    · rw [hrings]
      exact (setWidth_sub_setWidth _ _).trans hregistered.avail
    · rw [hrings]
      exact (setWidth_sub_setWidth _ _).trans hregistered.used
    · rw [hfeatures]
      exact (and_eventIdx _).trans (getLsbD_low _ _ (by omega)).symm
    · intro hindirect
      rw [hfeatures]
      dsimp only at hindirect
      by_cases hq : q = 1
      · rw [if_pos hq] at hindirect
        cases hindirect
      · rw [if_neg hq, and_indirectDesc] at hindirect
        exact (getLsbD_low _ _ (by omega)).trans hindirect
    · intro _
      dsimp only
      by_cases hmult : base.notifyOffMult = 0
      · rw [if_neg (not_not.mpr hmult), hmult, mul_zero]
      · rw [if_pos hmult]
        rfl
  · cases hqueue

theorem legacyTurn_agreed (hmode : base.modernMode = false)
    (h : (legacyTurn bar0.physical (initEnv dev false pciCommand isr mem) q).outcome =
      .configured vq)
    (hfeatures : r.accepted = driverFeatures false dev.features)
    (hrings : r.queue (BitVec.ofNat 16 q) = vq.rings (dev.size (BitVec.ofNat 16 q))) :
    QueueAgreed dev base q vq r := by
  unfold legacyTurn legacyQueue at h
  dsimp only at h
  by_cases hmax : ((initEnv dev false pciCommand isr mem).queue q).qMax = 0
  · rw [if_pos hmax] at h
    cases h
  rw [if_neg hmax] at h
  split at h
  · next halloc _ =>
    obtain ⟨_, _, _, havail, hused⟩ := virtQueueAllocate_fields halloc
    cases h
    refine ⟨hmax, hrings, ?_, ?_, hmode.symm, ?_, ?_, ?_⟩
    · rw [hrings]
      exact (ofPage_avail _ _).trans (by rw [havail, add_sub_cancel_left]; rfl)
    · rw [hrings]
      exact (ofPage_used _ _).trans (by rw [hused, add_sub_cancel_left]; rfl)
    · rw [hfeatures]
      exact (and_eventIdx _).trans (getLsbD_low _ _ (by omega)).symm
    · intro hindirect
      cases hindirect
    · intro hmodern
      rw [hmode] at hmodern
      cases hmodern
  · cases h

theorem append_and_eq (x : BitVec 64) {high low : BitVec 32}
    (hhigh : high &&& x.extractLsb' 32 32 = high) (hlow : low &&& x.extractLsb' 0 32 = low) :
    (high ++ low : BitVec 64) &&& x = high ++ low := by
  have hsplit : (x.extractLsb' 32 32 ++ x.extractLsb' 0 32 : BitVec 64) = x := by
    rw [BitVec.extractLsb'_append_extractLsb'_eq_extractLsb' (by rfl)]
    simp
  calc (high ++ low : BitVec 64) &&& x
      = (high ++ low) &&& (x.extractLsb' 32 32 ++ x.extractLsb' 0 32) := by rw [hsplit]
    _ = high ++ low := by rw [BitVec.and_append, hhigh, hlow]

theorem driverFeatures_offered (modern : Bool) (features : BitVec 64) :
    driverFeatures modern features &&& features = driverFeatures modern features := by
  cases modern with
  | true => exact append_and_eq features (and_chosen _ _) (and_chosen _ _)
  | false => exact append_and_eq features (BitVec.zero_and) (and_chosen _ _)

end Agreement

/-! ## The handshake -/

/-- What the handshake comes to at a device in any state before. -/
structure InitHandshake (dev : Endpoint) (base : TransportBase) (start : Regs) (run : InitRun) :
    Prop where
  conforms : dev.Conforms base.modernMode start (run.trace.map (decode base)) ↔
    ResetInTime dev base.modernMode ∧ FeaturesTaken dev base.modernMode
  agreed : ResetInTime dev base.modernMode → run.ok = true →
    Agreed dev base run.vqs (dev.final start (run.trace.map (decode base)))
  dead : ResetInTime dev base.modernMode → run.ok = false →
    ¬ (dev.final start (run.trace.map (decode base))).Live

section Handshaking

variable {dev : Endpoint} {base : TransportBase} {bar0 : PCIResourceRange} {start r : Regs}
  {turn : ℕ → QueueTurn} {run : InitRun}

def setupStatus (modern : Bool) : BitVec 8 := if modern then 11 else 3

theorem setupStatus_dead (hstatus : r.status = setupStatus base.modernMode) : ¬ r.Live := by
  rintro ⟨_, hok⟩
  unfold Regs.has setupStatus at *
  rw [hstatus] at hok
  cases hmode : base.modernMode <;> rw [hmode] at hok <;> cases hok

/-- The last write of the initialisation makes the device live. -/
theorem driverOk_conforms {modern : Bool} (hleft : r.resetLeft = 0)
    (hstatus : r.status = setupStatus modern) :
    dev.Conforms modern r
        [.setStatus (setupStatus modern ||| 4), .status (setupStatus modern ||| 4)] ∧
      dev.final r [.setStatus (setupStatus modern ||| 4), .status (setupStatus modern ||| 4)] =
        { r with status := setupStatus modern ||| 4 } := by
  cases modern with
  | true =>
      constructor
      · simp [Endpoint.conforms_cons, Endpoint.Legal, Endpoint.next, Endpoint.keptStatus,
          Endpoint.StatusLegal, setupStatus, Regs.has, driver, driverOk, featuresOk, acknowledge,
          hleft, hstatus]
      · simp [Endpoint.next, Endpoint.keptStatus, setupStatus, Regs.has, featuresOk, hleft, hstatus]
  | false =>
      constructor
      · simp [Endpoint.conforms_cons, Endpoint.Legal, Endpoint.next, Endpoint.keptStatus,
          Endpoint.StatusLegal, setupStatus, Regs.has, driver, driverOk, featuresOk, acknowledge,
          hleft, hstatus]
      · simp [Endpoint.next, Endpoint.keptStatus, setupStatus, Regs.has, featuresOk, hleft, hstatus]

/-- The run before the first queue. -/
def queueStart (prologue : List RegAccess) : InitRun :=
  { ok := true, vqs := fun _ => none, trace := prologue }

theorem Agreed.of_settingUp
    (h : SettingUp dev base start (setupStatus base.modernMode)
      (driverFeatures base.modernMode dev.features) run r)
    (havailable : ∀ q < 3, ∀ vq, run.vqs q = some vq → ∀ r' : Regs,
      r'.accepted = driverFeatures base.modernMode dev.features →
      r'.queue (BitVec.ofNat 16 q) = vq.rings (dev.size (BitVec.ofNat 16 q)) →
      QueueAgreed dev base q vq r')
    (hmissing : ∀ q < 3, run.vqs q = none → dev.size (BitVec.ofNat 16 q) = 0) :
    Agreed dev base run.vqs { r with status := setupStatus base.modernMode ||| 4 } := by
  refine ⟨⟨h.settled, ?_⟩, ?_, ?_, ?_⟩
  · unfold setupStatus Regs.has
    cases base.modernMode <;> simp [driverOk]
  · have haccepted : Regs.accepted { r with status := setupStatus base.modernMode ||| 4 } =
        driverFeatures base.modernMode dev.features := h.features_eq
    rw [haccepted]
    exact driverFeatures_offered base.modernMode dev.features
  · intro q hq vq hvq
    refine havailable q hq vq hvq { r with status := setupStatus base.modernMode ||| 4 }
      h.features_eq ?_
    dsimp only
    rw [h.queues q (by omega), hvq]
    rfl
  · intro q hq hnone
    refine ⟨hmissing q hq hnone, ?_⟩
    rw [h.queues q (by omega), hnone]
    rfl

/-- The loop over the queues and the end of a sequence, after a negotiation that
the device took. -/
theorem setUp_handshake {prologue finish : List RegAccess}
    (hstart : SettingUp dev base start (setupStatus base.modernMode)
      (driverFeatures base.modernMode dev.features) (queueStart prologue) r)
    (hturn : ∀ q, TurnLegal dev base (setupStatus base.modernMode) q (turn q))
    (hunavailable : ∀ q, (turn q).outcome = .unavailable → dev.size (BitVec.ofNat 16 q) = 0)
    (hagreed : ∀ q vq, ∀ r' : Regs, (turn q).outcome = .configured vq →
      r'.accepted = driverFeatures base.modernMode dev.features →
      r'.queue (BitVec.ofNat 16 q) = vq.rings (dev.size (BitVec.ofNat 16 q)) →
      QueueAgreed dev base q vq r')
    (hfinish : finish.map (decode base) =
      [.setStatus (setupStatus base.modernMode ||| 4), .status (setupStatus base.modernMode ||| 4)])
    (hrun : run = (setUpQueues turn [0, 1, 2] (queueStart prologue)).finish finish) :
    dev.Conforms base.modernMode start (run.trace.map (decode base)) ∧
      (run.ok = true →
        Agreed dev base run.vqs (dev.final start (run.trace.map (decode base)))) ∧
      (run.ok = false → ¬ (dev.final start (run.trace.map (decode base))).Live) := by
  have hnodup : [0, 1, 2].Nodup := by decide
  have hmem (q : ℕ) (hq : q < 3) : q ∈ [0, 1, 2] := by interval_cases q <;> decide
  obtain ⟨r', hset⟩ := hstart.setUpQueues hnodup
    (fun q hq => ⟨by fin_cases hq <;> omega, rfl⟩) (fun q _ => hturn q)
  have hrecorded (q : ℕ) (vq : QueueRecord)
      (h : (setUpQueues turn [0, 1, 2] (queueStart prologue)).vqs q = some vq) :
      (turn q).outcome = .configured vq :=
    setUpQueues_recorded (fun _ _ h => by cases h) h
  have hmissing (hok : (setUpQueues turn [0, 1, 2] (queueStart prologue)).ok = true) (q : ℕ)
      (hq : q < 3) (hnone : (setUpQueues turn [0, 1, 2] (queueStart prologue)).vqs q = none) :
      dev.size (BitVec.ofNat 16 q) = 0 :=
    hunavailable q (setUpQueues_unavailable hnodup hok (hmem q hq) hnone)
  subst hrun
  generalize setUpQueues turn [0, 1, 2] (queueStart prologue) = set at *
  unfold InitRun.finish
  by_cases hok : set.ok = true
  · rw [if_pos hok]
    dsimp only
    rw [List.map_append, Endpoint.conforms_append, Endpoint.final_append, hset.final, hfinish]
    obtain ⟨hlegal, hfinal⟩ := @driverOk_conforms dev r' base.modernMode hset.settled hset.status_eq
    rw [hfinal]
    refine ⟨⟨hset.conforms, hlegal⟩, fun _ => ?_, fun h => ?_⟩
    · exact Agreed.of_settingUp hset
        (fun q _ vq hvq r' => hagreed q vq r' (hrecorded q vq hvq)) (hmissing hok)
    · rw [hok] at h
      cases h
  · rw [if_neg hok, hset.final]
    exact ⟨hset.conforms, fun h => absurd h hok, fun _ => setupStatus_dead hset.status_eq⟩

variable {pciCommand : BitVec 16} {isr : BitVec 8} {mem : ℕ → QueueAnswers}

theorem initVirtIOSCSIModern_eq (base : TransportBase) (env : InitEnv) :
    initVirtIOSCSIModern base env =
      if env.statusCheck &&& virtioStatusFeaturesOk = 0 then
        { ok := false
          vqs := fun _ => none
          trace := modernReset base env ++ modernNegotiation base env ++
            [.mmioW8 (base.commonCfgBase + virtioPciCommonStatus) virtioStatusFailed] }
      else
        (setUpQueues (modernTurn base env) [0, 1, 2]
          (queueStart (modernReset base env ++ modernNegotiation base env))).finish
          [.mmioW8 (base.commonCfgBase + virtioPciCommonStatus)
              (virtioStatusAcknowledge ||| virtioStatusDriver ||| virtioStatusFeaturesOk |||
                virtioStatusDriverOk),
            .mmioR8 (base.commonCfgBase + virtioPciCommonStatus) env.finalStatus] := rfl

theorem initLegacy_eq (iobase : BitVec 32) (env : InitEnv) :
    initLegacy iobase env =
      (setUpQueues (legacyTurn iobase env) [0, 1, 2]
        (queueStart (legacyNegotiation iobase env))).finish
        [.outByte (iobase + virtioPciStatus)
            (virtioStatusAcknowledge ||| virtioStatusDriver ||| virtioStatusDriverOk),
          .inByte (iobase + virtioPciStatus) env.finalStatus] := rfl

theorem modernTurn_unavailable {q : ℕ}
    (h : (modernTurn base (initEnv dev true pciCommand isr mem) q).outcome = .unavailable) :
    dev.size (BitVec.ofNat 16 q) = 0 := by
  unfold modernTurn modernQueue at h
  dsimp only at h
  by_cases hmax : ((initEnv dev true pciCommand isr mem).queue q).qMax = 0
  · exact hmax
  · rw [if_neg hmax] at h
    split at h <;> cases h

theorem legacyTurn_unavailable {iobase : BitVec 32} {q : ℕ}
    (h : (legacyTurn iobase (initEnv dev false pciCommand isr mem) q).outcome = .unavailable) :
    dev.size (BitVec.ofNat 16 q) = 0 := by
  unfold legacyTurn legacyQueue at h
  dsimp only at h
  by_cases hmax : ((initEnv dev false pciCommand isr mem).queue q).qMax = 0
  · exact hmax
  · rw [if_neg hmax] at h
    split at h <;> cases h

theorem prologue_isPrefix (prologue finish : List RegAccess) (qs : List ℕ) :
    prologue <+: ((setUpQueues turn qs (queueStart prologue)).finish finish).trace := by
  obtain ⟨rest, _, htrace⟩ :=
    InitRun.finish_trace (setUpQueues turn qs (queueStart prologue)) finish
  rw [htrace]
  apply List.IsPrefix.trans _ (List.prefix_append _ rest)
  apply setUpQueues_induction (P := fun run => prologue <+: run.trace)
  · exact List.prefix_refl prologue
  · exact fun q _ run hrun => hrun.trans (List.prefix_append _ _)

/-- The registers of the device when the first queue is selected. -/
theorem SettingUp.of_negotiation {prologue : List RegAccess} {low high : BitVec 32}
    {offeredSel acceptedSel : BitVec 32}
    (hconforms : dev.Conforms base.modernMode start (prologue.map (decode base)))
    (hfinal : dev.final start (prologue.map (decode base)) =
      { Regs.fresh with
        status := setupStatus base.modernMode
        offeredSel := offeredSel
        acceptedSel := acceptedSel
        acceptedLow := low
        acceptedHigh := high })
    (hfeatures : high ++ low = driverFeatures base.modernMode dev.features) :
    SettingUp dev base start (setupStatus base.modernMode)
      (driverFeatures base.modernMode dev.features) (queueStart prologue)
      { Regs.fresh with
        status := setupStatus base.modernMode
        offeredSel := offeredSel
        acceptedSel := acceptedSel
        acceptedLow := low
        acceptedHigh := high } :=
  ⟨hconforms, hfinal, rfl, rfl, hfeatures, fun _ _ => rfl⟩

theorem initLegacy_handshake (hmode : base.modernMode = false) (hbar0 : base.bar0 = some bar0) :
    InitHandshake dev base start
      (initLegacy bar0.physical (initEnv dev false pciCommand isr mem)) := by
  by_cases htime : ResetInTime dev false
  · obtain ⟨hlegal, hfinal⟩ := @legacyNegotiation_conforms dev base bar0 start pciCommand isr mem
      hmode hbar0 htime
    have hstatus : (3 : BitVec 8) = setupStatus base.modernMode := by rw [hmode]; rfl
    rw [← hmode] at hlegal
    rw [hstatus] at hfinal
    have hset := SettingUp.of_negotiation hlegal hfinal (by rw [hmode]; rfl)
    have hall := setUp_handshake hset
      (fun q => by
        rw [← hstatus]
        exact legacyQueue_legal hmode hbar0 rfl)
      (fun q => legacyTurn_unavailable)
      (fun q vq r' hvq hfeatures hrings => by
        rw [hmode] at hfeatures
        exact legacyTurn_agreed hmode hvq hfeatures hrings)
      (by
        rw [decode_legacy hmode hbar0, ← hstatus]
        simp [decodeLegacy, virtioPciStatus, virtioStatusAcknowledge, virtioStatusDriver,
          virtioStatusDriverOk, initEnv])
      (initLegacy_eq bar0.physical (initEnv dev false pciCommand isr mem))
    refine ⟨⟨fun _ => ?_, fun _ => hall.1⟩, fun _ => hall.2.1, fun _ => hall.2.2⟩
    rw [hmode]
    exact ⟨htime, fun h => by cases h⟩
  · have hconforms : ¬ dev.Conforms false start
        ((initLegacy bar0.physical (initEnv dev false pciCommand isr mem)).trace.map
          (decode base)) := by
      intro h
      apply legacyNegotiation_late hmode hbar0 htime (initEnv dev false pciCommand isr mem)
      apply h.of_isPrefix
      exact (prologue_isPrefix _ _ _).map (decode base)
    constructor
    · rw [hmode]
      exact ⟨fun h => absurd h hconforms, fun h => absurd h.1 htime⟩
    · rw [hmode]
      exact fun h => absurd h htime
    · rw [hmode]
      exact fun h => absurd h htime

/-- The reset and the negotiation together, in time. -/
theorem modernPrologue_conforms (hmode : base.modernMode = true) (htime : ResetInTime dev true) :
    dev.Conforms true start
        ((modernReset base (initEnv dev true pciCommand isr mem) ++
          modernNegotiation base (initEnv dev true pciCommand isr mem)).map (decode base)) ∧
      dev.final start
        ((modernReset base (initEnv dev true pciCommand isr mem) ++
          modernNegotiation base (initEnv dev true pciCommand isr mem)).map (decode base)) =
        { Regs.fresh with
          status := if dev.takes (driverFeatures true dev.features) then 11 else 3
          offeredSel := 1
          acceptedSel := 1
          acceptedLow := dev.features.extractLsb' 0 32 &&& (virtioFIndirectDesc ||| virtioFEventIdx)
          acceptedHigh := dev.features.extractLsb' 32 32 &&& 1 } := by
  obtain ⟨hreset, hfresh⟩ := @modernReset_conforms dev base start pciCommand isr mem hmode htime
  obtain ⟨hlegal, hfinal⟩ := @modernNegotiation_conforms dev base pciCommand isr mem hmode
  rw [List.map_append, Endpoint.conforms_append, Endpoint.final_append, hfresh]
  exact ⟨⟨hreset, hlegal⟩, hfinal⟩

theorem modernPrologue_isPrefix (env : InitEnv) :
    modernReset base env ++ modernNegotiation base env <+:
      (initVirtIOSCSIModern base env).trace := by
  rw [initVirtIOSCSIModern_eq]
  split_ifs
  · exact List.prefix_append _ _
  · exact prologue_isPrefix _ _ _

theorem initVirtIOSCSIModern_taken (hmode : base.modernMode = true) (htime : ResetInTime dev true)
    (htakes : dev.takes (driverFeatures true dev.features) = true) :
    InitHandshake dev base start
      (initVirtIOSCSIModern base (initEnv dev true pciCommand isr mem)) := by
  obtain ⟨hlegal, hfinal⟩ :=
    @modernPrologue_conforms dev base start pciCommand isr mem hmode htime
  have hstatus : (11 : BitVec 8) = setupStatus base.modernMode := by rw [hmode]; rfl
  rw [← hmode] at hlegal
  rw [if_pos htakes, hstatus] at hfinal
  have hset := SettingUp.of_negotiation hlegal hfinal (by rw [hmode]; rfl)
  have hcheck :
      (initEnv dev true pciCommand isr mem).statusCheck &&& virtioStatusFeaturesOk ≠ 0 := by
    simp [initEnv, htakes, virtioStatusFeaturesOk]
  have hall := setUp_handshake hset
    (fun q => by
      rw [← hstatus]
      exact modernQueue_legal hmode rfl rfl)
    (fun q => modernTurn_unavailable)
    (fun q vq r' hvq hfeatures hrings => by
      rw [hmode] at hfeatures
      exact modernTurn_agreed hmode hvq hfeatures hrings)
    (by
      rw [decode_modern hmode, ← hstatus]
      simp [decodeModern, virtioStatusAcknowledge, virtioStatusDriver, virtioStatusFeaturesOk,
        virtioStatusDriverOk, initEnv])
    ((initVirtIOSCSIModern_eq base _).trans (if_neg hcheck))
  refine ⟨⟨fun _ => ?_, fun _ => hall.1⟩, fun _ => hall.2.1, fun _ => hall.2.2⟩
  rw [hmode]
  exact ⟨htime, fun _ => htakes⟩

/-- A device that does not take the features is given up by a status that takes
back what was set. -/
theorem initVirtIOSCSIModern_refused (hmode : base.modernMode = true)
    (htime : ResetInTime dev true)
    (htakes : dev.takes (driverFeatures true dev.features) = false) :
    InitHandshake dev base start
      (initVirtIOSCSIModern base (initEnv dev true pciCommand isr mem)) := by
  obtain ⟨hlegal, hfinal⟩ :=
    @modernPrologue_conforms dev base start pciCommand isr mem hmode htime
  have hcheck :
      (initEnv dev true pciCommand isr mem).statusCheck &&& virtioStatusFeaturesOk = 0 := by
    simp [initEnv, htakes, virtioStatusFeaturesOk]
  have hfailed : decode base (.mmioW8 (base.commonCfgBase + virtioPciCommonStatus)
      virtioStatusFailed) = .setStatus 128 := by
    rw [decode_modern hmode]
    simp [decodeModern, virtioStatusFailed]
  rw [initVirtIOSCSIModern_eq, if_pos hcheck]
  constructor
  · dsimp only
    rw [List.map_append, Endpoint.conforms_append, hmode, hfinal, List.map_singleton, hfailed]
    constructor
    · rintro ⟨_, hstatus, _⟩
      simp [Endpoint.Legal, Endpoint.StatusLegal, htakes] at hstatus
    · rintro ⟨_, htaken⟩
      rw [htaken rfl] at htakes
      cases htakes
  · intro _ hok
    cases hok
  · intro _ _
    dsimp only
    rw [List.map_append, Endpoint.final_append, hfinal, List.map_singleton, hfailed]
    rintro ⟨_, hlive⟩
    simp [Endpoint.next, Endpoint.keptStatus, Regs.has, featuresOk, driverOk] at hlive

theorem initVirtIOSCSIModern_handshake (hmode : base.modernMode = true) :
    InitHandshake dev base start
      (initVirtIOSCSIModern base (initEnv dev true pciCommand isr mem)) := by
  by_cases htime : ResetInTime dev true
  · cases htakes : dev.takes (driverFeatures true dev.features) with
    | true => exact initVirtIOSCSIModern_taken hmode htime htakes
    | false => exact initVirtIOSCSIModern_refused hmode htime htakes
  · have hconforms : ¬ dev.Conforms true start
        ((initVirtIOSCSIModern base (initEnv dev true pciCommand isr mem)).trace.map
          (decode base)) := by
      intro h
      have hprologue := h.of_isPrefix ((modernPrologue_isPrefix _).map (decode base))
      rw [List.map_append, Endpoint.conforms_append] at hprologue
      exact modernNegotiation_late hmode _ (modernReset_late hmode htime) hprologue.2
    constructor
    · rw [hmode]
      exact ⟨fun h => absurd h hconforms, fun h => absurd h.1 htime⟩
    · rw [hmode]
      exact fun h => absurd h htime
    · rw [hmode]
      exact fun h => absurd h htime

theorem cleanupReset_decoded {pciDev : PCIDevice}
    (hbase : base.modernMode = true ∧ base.commonCfgBase ≠ 0 ∨
      base.modernMode = false ∧ base.bar0.isSome) :
    (cleanupReset (some pciDev) base).map (decode base) = [.setStatus 0] := by
  unfold cleanupReset
  dsimp only
  rcases hbase with ⟨hmode, hcfg⟩ | ⟨hmode, hbar0⟩
  · rw [if_pos ⟨hmode, hcfg⟩, decode_modern hmode]
    simp [decodeModern]
  · obtain ⟨bar0, hbar0⟩ := Option.isSome_iff_exists.mp hbar0
    rw [if_neg (by rw [hmode]; simp), hbar0, decode_legacy hmode hbar0]
    simp [decodeLegacy]

/-- For every device and every answer of Exec, `InitVirtIOSCSI` keeps to the
protocol of the device unless a reset takes too long or a modern device refuses
the features.  After a success both sides agree on the features and on the queues,
after a failure the device is not live, and the reset of `CleanupVirtIOSCSI` makes
a device that resets at once forget every ring. -/
theorem initVirtIOSCSI_handshake (dev : Endpoint) (pciDev : PCIDevice) (base : TransportBase)
    (hbase : base.modernMode = true ∧ base.commonCfgBase ≠ 0 ∨
      base.modernMode = false ∧ base.bar0.isSome)
    (start : Regs) (pciCommand : BitVec 16) (isr : BitVec 8) (mem : ℕ → QueueAnswers) :
    InitHandshake dev base start
        (initVirtIOSCSI (some pciDev) base (initEnv dev base.modernMode pciCommand isr mem)) ∧
      (dev.resetReads = 0 →
        dev.final start (((initVirtIOSCSI (some pciDev) base
            (initEnv dev base.modernMode pciCommand isr mem)).trace ++
          cleanupReset (some pciDev) base).map (decode base)) = .fresh) := by
  constructor
  · unfold initVirtIOSCSI
    dsimp only
    rcases hbase with ⟨hmode, _⟩ | ⟨hmode, hbar0⟩
    · rw [hmode, if_pos rfl]
      exact initVirtIOSCSIModern_handshake hmode
    · obtain ⟨bar0, hbar0⟩ := Option.isSome_iff_exists.mp hbar0
      rw [hmode, hbar0]
      exact initLegacy_handshake hmode hbar0
  · intro hzero
    rw [List.map_append, Endpoint.final_append, cleanupReset_decoded hbase, Endpoint.final_cons,
      next_reset hzero, Endpoint.final_nil]

end Handshaking

namespace SampleHandshake

/-- A device with `VERSION_1`, indirect descriptors and event indices whose reset
takes two reads. -/
def device : Endpoint where
  features := 0x130000000
  takes _ := true
  size q := if q.toNat < 3 then 128 else 0
  notifyOff q := q
  resetReads := 2
  resetting := 1
  resetting_ne := by decide

def mem : ℕ → QueueAnswers := fun _ => ⟨SampleInit.queue.vring, SampleInit.queue.dma⟩

def pciDevice : PCIDevice where
  firstCapability := none
  nextCapability _ := none
  capability _ := ⟨0, 0⟩
  readConfigByte _ := 0
  readConfigLong _ := 0
  pciCommand := 0
  getResourceRange _ _ := none
  statusProbe _ := 0

def run : InitRun := initVirtIOSCSI (some pciDevice) SampleInit.base (initEnv device true 0 0 mem)

end SampleHandshake

open SampleHandshake in
theorem initVirtIOSCSI_handshake_sampleDevice :
    run.ok = true ∧
      Agreed device SampleInit.base run.vqs
        (device.final .fresh (run.trace.map (decode SampleInit.base))) := by
  have hok : run.ok = true := by decide +kernel
  have hshake := initVirtIOSCSI_handshake device pciDevice SampleInit.base
    (Or.inl ⟨rfl, by decide⟩) .fresh 0 0 mem
  exact ⟨hok, hshake.1.agreed (by unfold ResetInTime; decide) hok⟩

end VirtioScsi
