import VirtioScsi.BlockCdb
import VirtioScsi.AddBufRollback

/-!
# Block requests on their way to the queue

How `VirtIOSCSI_Submit` and `VirtIOSCSI_DoIO` map the data buffer of a
request, and `submit_block_io` with both of its paths up to the queue: the
CDB covers the bytes asked for exactly if the block size divides the offset
and the length.
-/

namespace VirtioScsi

open ResourceTrace Virtqueue

/-! ## Mapping the data buffer -/

/-- Transfers up to this size go through the slot's bounce buffer. -/
def bounceBufSize : ℕ := 65536

/-- What Exec and the slot offer for a data buffer: the DMA list of the buffer
(empty if `StartDMA` fails), whether the slot has its array of DMA entries,
the physical address of its bounce buffer, and whether `prepare_dma` gets an
array of its own. -/
structure DataEnv where
  dma : List VringSg
  pool : Bool
  bouncePhys : BitVec 32
  listAllocated : Bool
deriving DecidableEq, Repr

def DataEnv.Covers (env : DataEnv) (length : BitVec 32) : Prop :=
  env.dma ≠ [] → (env.dma.map fun sg => sg.len.toNat).sum = length.toNat

/-- A mapped data buffer: its segments, and the mapping that has to be ended
again (`dma_list` is not NULL). -/
structure Mapped where
  segments : List VringSg
  mapping : Option ExecResource
deriving DecidableEq, Repr

/-- `VirtIOSCSI_Submit` up to the segments of the data. -/
def mapUserData (data : ℕ) (length : BitVec 32) (env : DataEnv) :
    List ExecOp × Option Mapped :=
  if data ≠ 0 ∧ 0 < length.toNat ∧ length.toNat ≤ bounceBufSize then
    ([], some ⟨[⟨env.bouncePhys, length⟩], none⟩)
  else if data ≠ 0 ∧ 0 < length.toNat then
    if env.dma.length = 0 then ([], none)
    else if env.pool = false ∨ maxSgEntries < env.dma.length then
      ([.startDMA data length.toNat, .endDMA data length.toNat], none)
    else
      ([.startDMA data length.toNat],
        some ⟨env.dma, some (.dma data length.toNat)⟩)
  else ([], some ⟨[], none⟩)

/-- `prepare_dma` of `VirtIOSCSI_DoIO`, called only for a buffer with data. -/
def prepareDma (data : ℕ) (length : BitVec 32) (env : DataEnv) :
    Option (List VringSg) :=
  if data ≠ 0 ∧ 0 < length.toNat then
    if env.dma.length = 0 ∨ env.listAllocated = false then none else some env.dma
  else some []

/-- A mapping that is started and not recorded is ended at once. -/
theorem mapUserData_held (data : ℕ) (length : BitVec 32) (env : DataEnv) :
    replay [] (resources (mapUserData data length env).1) =
      some (((mapUserData data length env).2.bind Mapped.mapping).toList) := by
  unfold mapUserData
  split_ifs <;> simp [resources, ExecOp.resource]

theorem mapUserData_total {data : ℕ} {length : BitVec 32} {env : DataEnv}
    {m : Mapped} (hcovers : env.Covers length)
    (hmapped : (mapUserData data length env).2 = some m) :
    (m.segments.map fun sg => sg.len.toNat).sum =
      if data = 0 then 0 else length.toNat := by
  unfold mapUserData at hmapped
  split_ifs at hmapped with hbounce hdirect hempty hpool
  · obtain rfl := Option.some.inj hmapped
    simp [hbounce.1]
  · obtain rfl := Option.some.inj hmapped
    rw [if_neg hdirect.1]
    exact hcovers (List.length_eq_zero_iff.not.mp hempty)
  · obtain rfl := Option.some.inj hmapped
    simp only [List.map_nil, List.sum_nil]
    split_ifs with hdata
    · rfl
    · omega

theorem prepareDma_total {data : ℕ} {length : BitVec 32} {env : DataEnv}
    {segments : List VringSg} (hcovers : env.Covers length)
    (hmapped : prepareDma data length env = some segments) :
    (segments.map fun sg => sg.len.toNat).sum =
      if data = 0 then 0 else length.toNat := by
  unfold prepareDma at hmapped
  split_ifs at hmapped with hdirect hempty
  · obtain rfl := Option.some.inj hmapped
    rw [if_neg hdirect.1]
    exact hcovers (List.length_eq_zero_iff.not.mp (not_or.mp hempty).1)
  · obtain rfl := Option.some.inj hmapped
    simp only [List.map_nil, List.sum_nil]
    split_ifs with hdata
    · rfl
    · omega

/-! ## `submit_block_io` -/

/-- The state a block request meets: whether a slot is free, the DMA entries
of the request and response buffers, the data buffer, and the queue. -/
structure BlockEnv where
  slotFree : Bool
  buf : ReqBuf
  reqDma : List VringSg
  respDma : List VringSg
  data : DataEnv
  vq : Virtqueue ReqBuf
  exec : IndirectEnv

inductive BlockOutcome where
  | rejected (error : Int)
  | submitted (cdb : Cdb) (data : List VringSg)
deriving DecidableEq, Repr

namespace BlockEnv

/-- The data segments: from the pipeline, or from `DoIO` without a slot. -/
def mapped (env : BlockEnv) (req : IOStdReq) : Option (List VringSg) :=
  if env.slotFree then
    (mapUserData req.ioData req.ioLength env.data).2.map Mapped.segments
  else prepareDma req.ioData req.ioLength env.data

def sgList (env : BlockEnv) (isWrite : Bool) (data : List VringSg) : SgList :=
  buildSg isWrite env.reqDma env.respDma data

def Refuses (env : BlockEnv) (req : IOStdReq) (isWrite : Bool) : Prop :=
  match env.mapped req with
  | none => True
  | some data =>
      let sg := env.sgList isWrite data
      maxSgEntries < sg.outNum + sg.inNum ∨
        env.vq.numFree.toNat <
          (addBufPath env.vq.useIndirect (sg.outNum + sg.inNum) env.exec).needed
            (sg.outNum + sg.inNum)

instance (env : BlockEnv) (req : IOStdReq) (isWrite : Bool) :
    Decidable (env.Refuses req isWrite) := by
  unfold Refuses
  split <;> infer_instance

end BlockEnv

/-- `submit_block_io` up to the queue; later attempts of `DoIO` send the same
CDB again. -/
def submitBlockIo (g : UnitGeometry) (req : IOStdReq) (isWrite : Bool)
    (env : BlockEnv) : BlockOutcome :=
  let cdb := submitBlockIoCdb g req.offset64 req.ioLength isWrite
  match env.mapped req with
  | none => .rejected hferrDma
  | some data =>
      let sg := env.sgList isWrite data
      if maxSgEntries < sg.outNum + sg.inNum then .rejected hferrDma
      else if (env.vq.addBuf sg.get sg.outNum sg.inNum env.buf env.exec).rc ≠ 0 then
        .rejected tderrNotSpecified
      else .submitted cdb data

def BlockTransfer.bytes (t : BlockTransfer) (blksz : ℕ) : Set ℕ :=
  Set.Ico (t.lba * blksz) ((t.lba + t.blocks) * blksz)

/-- The request is answered with an error, or the device is asked for exactly
its bytes, with data segments for all of them. -/
def TransfersExactly (g : UnitGeometry) (req : IOStdReq) (isWrite : Bool)
    (env : BlockEnv) : Prop :=
  match submitBlockIo g req isWrite env with
  | .rejected error => error ≠ 0
  | .submitted cdb data =>
      ∃ t, decodeCdb (requestCdb cdb) = some t ∧ t.isWrite = isWrite ∧
        t.bytes g.blksz.toNat = Set.Ico req.offset64.toNat
          (req.offset64.toNat + req.ioLength.toNat) ∧
        (data.map fun sg => sg.len.toNat).sum = req.ioLength.toNat

section

variable {g : UnitGeometry} {req : IOStdReq} {isWrite : Bool} {env : BlockEnv}

theorem BlockEnv.mapped_total {data : List VringSg}
    (hcovers : env.data.Covers req.ioLength)
    (hmapped : env.mapped req = some data) :
    (data.map fun sg => sg.len.toNat).sum =
      if req.ioData = 0 then 0 else req.ioLength.toNat := by
  unfold BlockEnv.mapped at hmapped
  split_ifs at hmapped
  · obtain ⟨m, hm, rfl⟩ := Option.map_eq_some_iff.mp hmapped
    exact mapUserData_total hcovers hm
  · exact prepareDma_total hcovers hmapped

theorem submitBlockIo_cases :
    (env.Refuses req isWrite ∧
        ∃ error, submitBlockIo g req isWrite env = .rejected error ∧ error ≠ 0) ∨
      (¬ env.Refuses req isWrite ∧ ∃ data, env.mapped req = some data ∧
        submitBlockIo g req isWrite env =
          .submitted (submitBlockIoCdb g req.offset64 req.ioLength isWrite) data) := by
  unfold submitBlockIo BlockEnv.Refuses
  cases hmapped : env.mapped req with
  | none => exact .inl ⟨trivial, hferrDma, rfl, by decide⟩
  | some data =>
      dsimp only
      by_cases hlong : maxSgEntries <
          (env.sgList isWrite data).outNum + (env.sgList isWrite data).inNum
      · rw [if_pos hlong]
        exact .inl ⟨.inl hlong, hferrDma, rfl, by decide⟩
      · rw [if_neg hlong]
        have houtcome : AddBufOutcome env.vq
            ((env.sgList isWrite data).outNum + (env.sgList isWrite data).inNum)
            (addBufPath env.vq.useIndirect
              ((env.sgList isWrite data).outNum + (env.sgList isWrite data).inNum) env.exec)
            (env.vq.addBuf (env.sgList isWrite data).get (env.sgList isWrite data).outNum
              (env.sgList isWrite data).inNum env.buf env.exec) := addBuf_outcome
        have hcode := houtcome.code
        split_ifs at hcode with hroom
        · rw [if_pos (by rw [hcode]; decide)]
          exact .inl ⟨.inr hroom, tderrNotSpecified, rfl, by decide⟩
        · rw [if_neg (not_not.mpr hcode)]
          exact .inr ⟨not_or.mpr ⟨hlong, hroom⟩, data, rfl, rfl⟩

theorem blockRange_eq_iff {offset length blksz : ℕ} (hblksz : 0 < blksz) :
    Set.Ico (offset / blksz * blksz)
        ((offset / blksz + max 1 (length / blksz)) * blksz) =
      Set.Ico offset (offset + length) ↔
      0 < length ∧ blksz ∣ offset ∧ blksz ∣ length := by
  have hblocks : 1 ≤ max 1 (length / blksz) := le_max_left _ _
  have hrange : offset / blksz * blksz <
      (offset / blksz + max 1 (length / blksz)) * blksz :=
    Nat.mul_lt_mul_of_pos_right (by omega) hblksz
  constructor
  · intro heq
    have hlength : 0 < length := by
      by_contra hzero
      obtain rfl := Nat.eq_zero_of_not_pos hzero
      rw [Nat.add_zero, Set.Ico_self] at heq
      exact (Set.nonempty_Ico.mpr hrange).ne_empty heq
    have hlow : offset / blksz * blksz = offset := by
      have := congrArg sInf heq
      rwa [csInf_Ico hrange, csInf_Ico (by omega)] at this
    rw [Nat.add_mul, hlow] at heq
    have hhigh : max 1 (length / blksz) * blksz = length := by
      have hleft := (Set.Ico_subset_Ico_iff (by
        have := Nat.mul_le_mul_right blksz hblocks
        omega)).mp heq.subset
      have hright := (Set.Ico_subset_Ico_iff (by omega)).mp heq.superset
      omega
    exact ⟨hlength, Dvd.intro_left _ hlow, Dvd.intro_left _ hhigh⟩
  · rintro ⟨hlength, hoffset, hdvd⟩
    have hone : 1 ≤ length / blksz :=
      (Nat.one_le_div_iff hblksz).mpr (Nat.le_of_dvd hlength hdvd)
    rw [max_eq_right hone, Nat.add_mul, Nat.div_mul_cancel hoffset,
      Nat.div_mul_cancel hdvd]

/-- A block request transfers exactly the bytes asked for, or is rejected,
exactly if it cannot be queued or block size divides offset and length of a
buffer that is there. -/
theorem transfersExactly_iff (g : UnitGeometry) (req : IOStdReq)
    (isWrite : Bool) (env : BlockEnv) (hcovers : env.data.Covers req.ioLength) :
    TransfersExactly g req isWrite env ↔
      env.Refuses req isWrite ∨
        (req.ioData ≠ 0 ∧ 0 < req.ioLength.toNat ∧
          g.blksz.toNat ∣ req.offset64.toNat ∧
          g.blksz.toNat ∣ req.ioLength.toNat) := by
  unfold TransfersExactly
  have hcases := @submitBlockIo_cases g req isWrite env
  rcases hcases with ⟨hrefuses, error, hresult, herror⟩ | ⟨haccepts, data, hmapped, hresult⟩
  · rw [hresult]
    simp only [hrefuses, true_or, iff_true]
    exact herror
  · rw [hresult, or_iff_right haccepts]
    have hconveys := submitBlockIoCdb_conveys g req.offset64 req.ioLength isWrite
    have htotal := BlockEnv.mapped_total hcovers hmapped
    have hrange := @blockRange_eq_iff req.offset64.toNat req.ioLength.toNat _ g.blksz_pos
    dsimp only
    rw [hconveys.decoded, htotal]
    constructor
    · rintro ⟨t, ht, -, hbytes, hsum⟩
      obtain rfl := Option.some.inj ht
      obtain ⟨hlength, hoffset, hdvd⟩ := hrange.mp hbytes
      refine ⟨?_, hlength, hoffset, hdvd⟩
      intro hdata
      rw [if_pos hdata] at hsum
      omega
    · rintro ⟨hdata, haligned⟩
      exact ⟨_, rfl, rfl, hrange.mpr haligned, if_neg hdata⟩

end

section Sample

/-- A free slot and room in the queue. -/
def sampleBlockEnv : BlockEnv where
  slotFree := true
  buf := .slot 0 1
  reqDma := [⟨0x1000, 51⟩]
  respDma := [⟨0x2000, 108⟩]
  data := ⟨[], true, 0x3000, true⟩
  vq := Virtqueue.allocate 16 false false false
  exec := ⟨none, 0, none⟩

def sampleGeometry : UnitGeometry := ⟨4096, 512, true⟩

theorem transfersExactly_iff_sampleBlockEnv :
    TransfersExactly sampleGeometry ⟨.cmdRead, 0, 1024, 512, 4096⟩ false
        sampleBlockEnv ↔
      sampleBlockEnv.Refuses ⟨.cmdRead, 0, 1024, 512, 4096⟩ false ∨
        ((4096 : ℕ) ≠ 0 ∧ 0 < (512 : BitVec 32).toNat ∧
          sampleGeometry.blksz.toNat ∣ (1024 : ℕ) ∧
          sampleGeometry.blksz.toNat ∣ (512 : BitVec 32).toNat) :=
  transfersExactly_iff sampleGeometry ⟨.cmdRead, 0, 1024, 512, 4096⟩ false
    sampleBlockEnv (fun h => absurd rfl h)

/-- A read of 100 bytes asks the device for a block of 512. -/
theorem transfersExactly_fails_subBlock :
    ¬ TransfersExactly sampleGeometry ⟨.cmdRead, 0, 0, 100, 4096⟩ false
      sampleBlockEnv := by
  intro hexact
  have hresult : submitBlockIo sampleGeometry ⟨.cmdRead, 0, 0, 100, 4096⟩ false
      sampleBlockEnv = .submitted (makeRead10Cdb 0 1) [⟨0x3000, 100⟩] := by
    decide
  unfold TransfersExactly at hexact
  rw [hresult] at hexact
  obtain ⟨t, ht, -, hbytes, -⟩ := hexact
  have hdecoded : decodeCdb (requestCdb (makeRead10Cdb 0 1)) =
      some ⟨false, 0, 1⟩ := by decide
  obtain rfl := Option.some.inj (hdecoded.symm.trans ht)
  have hend : (100 : ℕ) ∈ Set.Ico 0 (0 + 100) := by
    have hmem : (100 : ℕ) ∈ BlockTransfer.bytes ⟨false, 0, 1⟩
        sampleGeometry.blksz.toNat := by
      simp [BlockTransfer.bytes, sampleGeometry, UnitGeometry.blksz]
    rw [hbytes] at hmem
    exact hmem
  exact absurd hend (by simp)

end Sample

end VirtioScsi
