import VirtioScsi.DeviceCommands

/-!
# Command descriptor blocks for block I/O

The CDB builders of `scsi_cdb_helpers.c`, the two copies of the code that
chooses between them (`submit_block_io` in `unit_task.c` and
`Handle_NS_TD_IO64` in `ns_td_io64.c`), the 32 bytes of the request header a
CDB is copied to, and the decoding of a CDB by the device.
-/

namespace VirtioScsi

abbrev Cdb := List (BitVec 8)

/-! ## Builders -/

def makeRead10Cdb (lba : BitVec 32) (blocks : BitVec 16) : Cdb :=
  [0x28, 0,
    (lba >>> 24).setWidth 8, (lba >>> 16).setWidth 8,
    (lba >>> 8).setWidth 8, lba.setWidth 8,
    0, (blocks >>> 8).setWidth 8, blocks.setWidth 8, 0]

def makeWrite10Cdb (lba : BitVec 32) (blocks : BitVec 16) : Cdb :=
  [0x2A, 0,
    (lba >>> 24).setWidth 8, (lba >>> 16).setWidth 8,
    (lba >>> 8).setWidth 8, lba.setWidth 8,
    0, (blocks >>> 8).setWidth 8, blocks.setWidth 8, 0]

def makeRead16Cdb (lba : BitVec 64) (blocks : BitVec 32) : Cdb :=
  [0x88, 0,
    (lba >>> 56).setWidth 8, (lba >>> 48).setWidth 8,
    (lba >>> 40).setWidth 8, (lba >>> 32).setWidth 8,
    (lba >>> 24).setWidth 8, (lba >>> 16).setWidth 8,
    (lba >>> 8).setWidth 8, lba.setWidth 8,
    (blocks >>> 24).setWidth 8, (blocks >>> 16).setWidth 8,
    (blocks >>> 8).setWidth 8, blocks.setWidth 8, 0, 0]

def makeWrite16Cdb (lba : BitVec 64) (blocks : BitVec 32) : Cdb :=
  [0x8A, 0,
    (lba >>> 56).setWidth 8, (lba >>> 48).setWidth 8,
    (lba >>> 40).setWidth 8, (lba >>> 32).setWidth 8,
    (lba >>> 24).setWidth 8, (lba >>> 16).setWidth 8,
    (lba >>> 8).setWidth 8, lba.setWidth 8,
    (blocks >>> 24).setWidth 8, (blocks >>> 16).setWidth 8,
    (blocks >>> 8).setWidth 8, blocks.setWidth 8, 0, 0]

/-- `req_cmd->cdb`: at most 32 bytes are copied and the rest is cleared. -/
def virtioScsiCdbSize : ℕ := 32

def requestCdb (cdb : Cdb) : Cdb :=
  let copyLen := min cdb.length virtioScsiCdbSize
  cdb.take copyLen ++ List.replicate (virtioScsiCdbSize - copyLen) 0

/-! ## Choosing a CDB -/

structure UnitGeometry where
  totalBlocks : BitVec 64
  blockSize : BitVec 32
  geometryValid : Bool
deriving DecidableEq, Repr

namespace UnitGeometry

/-- The block size in use: the cached one, or 512. -/
def blksz (g : UnitGeometry) : BitVec 32 :=
  if g.geometryValid && decide (g.blockSize ≠ 0) then g.blockSize else 512

theorem blksz_ne_zero (g : UnitGeometry) : g.blksz ≠ 0 := by
  unfold blksz
  split
  · next hvalid =>
    simp only [Bool.and_eq_true, decide_eq_true_eq] at hvalid
    exact hvalid.2
  · decide

theorem blksz_pos (g : UnitGeometry) : 0 < g.blksz.toNat := by
  have hne := g.blksz_ne_zero
  rw [Nat.pos_iff_ne_zero]
  exact fun hzero => hne (BitVec.eq_of_toNat_eq hzero)

end UnitGeometry

def blockCount (length blksz : BitVec 32) : BitVec 32 :=
  let blocks := length / blksz
  if blocks = 0 then 1 else blocks

/-- The CDB of `submit_block_io`. -/
def submitBlockIoCdb (g : UnitGeometry) (offset64 : BitVec 64)
    (length : BitVec 32) (isWrite : Bool) : Cdb :=
  let lba := offset64 / g.blksz.setWidth 64
  let blocks := blockCount length g.blksz
  if 0xFFFFFFFF#64 < lba ∨ 0xFFFF#32 < blocks then
    if isWrite then makeWrite16Cdb lba blocks else makeRead16Cdb lba blocks
  else if isWrite then
    makeWrite10Cdb (lba.setWidth 32) (blocks.setWidth 16)
  else makeRead10Cdb (lba.setWidth 32) (blocks.setWidth 16)

/-- The CDB `Handle_NS_TD_IO64` passes to `DoIO`; without data it refuses the
request with `IOERR_BADADDRESS`. -/
def handleNsTdIo64Cdb (g : UnitGeometry) (req : IOStdReq) : Option Cdb :=
  let offset64 := unpackIo64Offset req.ioActual req.ioOffset
  if req.ioData = 0 ∨ req.ioLength = 0 then none
  else
    let lba := offset64 / g.blksz.setWidth 64
    let blocks := req.ioLength / g.blksz
    let blocks := if blocks = 0 then 1 else blocks
    let isWrite := decide (req.ioCommand ≠ .nscmdTdRead64)
    if 0xFFFFFFFF#64 < lba ∨ 0xFFFF#32 < blocks then
      some (if isWrite then makeWrite16Cdb lba blocks
        else makeRead16Cdb lba blocks)
    else
      some (if isWrite then
          makeWrite10Cdb (lba.setWidth 32) (blocks.setWidth 16)
        else makeRead10Cdb (lba.setWidth 32) (blocks.setWidth 16))

/-! ## Decoding -/

def bigEndian (bytes : List (BitVec 8)) : ℕ :=
  bytes.foldl (fun value byte => 256 * value + byte.toNat) 0

structure BlockTransfer where
  isWrite : Bool
  lba : ℕ
  blocks : ℕ
deriving DecidableEq, Repr

/-- What a READ or WRITE CDB asks the device for. -/
def decodeCdb (cdb : Cdb) : Option BlockTransfer :=
  match cdb.head? with
  | some 0x28 =>
      some ⟨false, bigEndian ((cdb.drop 2).take 4), bigEndian ((cdb.drop 7).take 2)⟩
  | some 0x2A =>
      some ⟨true, bigEndian ((cdb.drop 2).take 4), bigEndian ((cdb.drop 7).take 2)⟩
  | some 0x88 =>
      some ⟨false, bigEndian ((cdb.drop 2).take 8), bigEndian ((cdb.drop 10).take 4)⟩
  | some 0x8A =>
      some ⟨true, bigEndian ((cdb.drop 2).take 8), bigEndian ((cdb.drop 10).take 4)⟩
  | _ => none

def opcodeLength (opcode : BitVec 8) : ℕ :=
  if opcode = 0x28 ∨ opcode = 0x2A then 10 else 16

/-- A CDB that reaches the device whole and asks for `transfer`. -/
structure Conveys (cdb : Cdb) (transfer : BlockTransfer) : Prop where
  length : ∀ opcode ∈ cdb.head?, cdb.length = opcodeLength opcode
  padded : requestCdb cdb = cdb ++ List.replicate (32 - cdb.length) 0
  size : (requestCdb cdb).length = 32
  decoded : decodeCdb (requestCdb cdb) = some transfer

theorem bigEndian_two (w : BitVec 16) :
    bigEndian [(w >>> 8).setWidth 8, w.setWidth 8] = w.toNat := by
  have := w.isLt
  simp only [bigEndian, List.foldl, BitVec.toNat_setWidth,
    BitVec.toNat_ushiftRight, Nat.shiftRight_eq_div_pow]
  omega

theorem bigEndian_four (w : BitVec 32) :
    bigEndian [(w >>> 24).setWidth 8, (w >>> 16).setWidth 8,
      (w >>> 8).setWidth 8, w.setWidth 8] = w.toNat := by
  have := w.isLt
  simp only [bigEndian, List.foldl, BitVec.toNat_setWidth,
    BitVec.toNat_ushiftRight, Nat.shiftRight_eq_div_pow]
  omega

theorem bigEndian_eight (w : BitVec 64) :
    bigEndian [(w >>> 56).setWidth 8, (w >>> 48).setWidth 8,
      (w >>> 40).setWidth 8, (w >>> 32).setWidth 8,
      (w >>> 24).setWidth 8, (w >>> 16).setWidth 8,
      (w >>> 8).setWidth 8, w.setWidth 8] = w.toNat := by
  have := w.isLt
  simp only [bigEndian, List.foldl, BitVec.toNat_setWidth,
    BitVec.toNat_ushiftRight, Nat.shiftRight_eq_div_pow]
  omega

section Builders

variable {lba : BitVec 32} {blocks : BitVec 16} {lba64 : BitVec 64}
  {blocks32 : BitVec 32}

theorem makeRead10Cdb_conveys :
    Conveys (makeRead10Cdb lba blocks) ⟨false, lba.toNat, blocks.toNat⟩ :=
  ⟨by simp [makeRead10Cdb, opcodeLength], rfl, rfl,
    by simp [requestCdb, makeRead10Cdb, virtioScsiCdbSize, decodeCdb,
      bigEndian_two, bigEndian_four]⟩

theorem makeWrite10Cdb_conveys :
    Conveys (makeWrite10Cdb lba blocks) ⟨true, lba.toNat, blocks.toNat⟩ :=
  ⟨by simp [makeWrite10Cdb, opcodeLength], rfl, rfl,
    by simp [requestCdb, makeWrite10Cdb, virtioScsiCdbSize, decodeCdb,
      bigEndian_two, bigEndian_four]⟩

theorem makeRead16Cdb_conveys :
    Conveys (makeRead16Cdb lba64 blocks32)
      ⟨false, lba64.toNat, blocks32.toNat⟩ :=
  ⟨by simp [makeRead16Cdb, opcodeLength], rfl, rfl,
    by simp [requestCdb, makeRead16Cdb, virtioScsiCdbSize, decodeCdb,
      bigEndian_four, bigEndian_eight]⟩

theorem makeWrite16Cdb_conveys :
    Conveys (makeWrite16Cdb lba64 blocks32)
      ⟨true, lba64.toNat, blocks32.toNat⟩ :=
  ⟨by simp [makeWrite16Cdb, opcodeLength], rfl, rfl,
    by simp [requestCdb, makeWrite16Cdb, virtioScsiCdbSize, decodeCdb,
      bigEndian_four, bigEndian_eight]⟩

end Builders

/-! ## The choice loses nothing -/

def transferOf (g : UnitGeometry) (offset64 : BitVec 64)
    (length : BitVec 32) (isWrite : Bool) : BlockTransfer where
  isWrite := isWrite
  lba := offset64.toNat / g.blksz.toNat
  blocks := max 1 (length.toNat / g.blksz.toNat)

theorem blockCount_toNat (length blksz : BitVec 32) :
    (blockCount length blksz).toNat = max 1 (length.toNat / blksz.toNat) := by
  unfold blockCount
  dsimp only
  by_cases hzero : length / blksz = 0
  · have hnat : length.toNat / blksz.toNat = 0 := by
      rw [← BitVec.toNat_udiv, hzero]
      rfl
    rw [if_pos hzero, hnat]
    rfl
  · have hnat : length.toNat / blksz.toNat ≠ 0 := by
      intro h
      rw [← BitVec.toNat_udiv] at h
      exact hzero (BitVec.eq_of_toNat_eq h)
    rw [if_neg hzero, BitVec.toNat_udiv]
    exact (max_eq_right (Nat.one_le_iff_ne_zero.mpr hnat)).symm

theorem lba_toNat (g : UnitGeometry) (offset64 : BitVec 64) :
    (offset64 / g.blksz.setWidth 64).toNat =
      offset64.toNat / g.blksz.toNat := by
  have := g.blksz.isLt
  rw [BitVec.toNat_udiv, BitVec.toNat_setWidth]
  congr 1
  exact Nat.mod_eq_of_lt (by omega)

theorem submitBlockIoCdb_conveys (g : UnitGeometry) (offset64 : BitVec 64)
    (length : BitVec 32) (isWrite : Bool) :
    Conveys (submitBlockIoCdb g offset64 length isWrite)
      (transferOf g offset64 length isWrite) := by
  unfold submitBlockIoCdb transferOf
  dsimp only
  rw [← lba_toNat, ← blockCount_toNat]
  generalize offset64 / g.blksz.setWidth 64 = lba
  generalize blockCount length g.blksz = blocks
  by_cases hlong : 0xFFFFFFFF#64 < lba ∨ 0xFFFF#32 < blocks
  · rw [if_pos hlong]
    cases isWrite
    · exact makeRead16Cdb_conveys
    · exact makeWrite16Cdb_conveys
  · rw [if_neg hlong]
    rw [BitVec.lt_def, BitVec.lt_def, not_or] at hlong
    have hlba : lba.toNat = (lba.setWidth 32).toNat := by
      rw [BitVec.toNat_setWidth, Nat.mod_eq_of_lt]
      have := hlong.1
      simp only [BitVec.toNat_ofNat] at this
      omega
    have hblocks : blocks.toNat = (blocks.setWidth 16).toNat := by
      rw [BitVec.toNat_setWidth, Nat.mod_eq_of_lt]
      have := hlong.2
      simp only [BitVec.toNat_ofNat] at this
      omega
    rw [hlba, hblocks]
    cases isWrite
    · exact makeRead10Cdb_conveys
    · exact makeWrite10Cdb_conveys

theorem Conveys.transfer_eq {cdb : Cdb} {t t' : BlockTransfer}
    (h : Conveys cdb t) (h' : Conveys cdb t') : t = t' :=
  Option.some.inj (h.decoded.symm.trans h'.decoded)

theorem handleNsTdIo64Cdb_eq (g : UnitGeometry) (req : IOStdReq) :
    handleNsTdIo64Cdb g req =
      if req.ioData = 0 ∨ req.ioLength = 0 then none
      else some (submitBlockIoCdb g (unpackIo64Offset req.ioActual req.ioOffset)
        req.ioLength (decide (req.ioCommand ≠ .nscmdTdRead64))) := by
  unfold handleNsTdIo64Cdb submitBlockIoCdb blockCount
  dsimp only
  split_ifs <;> rfl

/-- What the CDBs sent for a request say.  `Handle_NS_TD_IO64` sends one
whenever the request has data. -/
structure CdbFaithful (g : UnitGeometry) (req : IOStdReq) : Prop where
  submitted : ∀ isWrite, req.ioCommand.dispatch = .block isWrite →
    Conveys (submitBlockIoCdb g req.offset64 req.ioLength isWrite)
      (transferOf g req.offset64 req.ioLength !req.ioCommand.reads)
  sent : (handleNsTdIo64Cdb g req).isSome =
    decide (req.ioData ≠ 0 ∧ req.ioLength ≠ 0)
  handled : req.ioCommand.isNsTdIo64 = true →
    ∀ cdb ∈ handleNsTdIo64Cdb g req,
      Conveys cdb (transferOf g req.offset64 req.ioLength !req.ioCommand.reads)
  same : req.ioCommand.isNsTdIo64 = true →
    ∀ isWrite, req.ioCommand.dispatch = .block isWrite →
      ∀ cdb ∈ handleNsTdIo64Cdb g req,
        cdb = submitBlockIoCdb g req.offset64 req.ioLength isWrite

theorem direction_eq {c : IoCommand} (h : c.isNsTdIo64 = true) :
    decide (c ≠ .nscmdTdRead64) = !c.reads := by
  revert h
  cases c <;> simp [IoCommand.isNsTdIo64, IoCommand.reads]

theorem handleNsTdIo64Cdb_isSome (g : UnitGeometry) (req : IOStdReq) :
    (handleNsTdIo64Cdb g req).isSome =
      decide (req.ioData ≠ 0 ∧ req.ioLength ≠ 0) := by
  rw [handleNsTdIo64Cdb_eq]
  by_cases hrefused : req.ioData = 0 ∨ req.ioLength = 0
  · rw [if_pos hrefused, decide_eq_false fun h => hrefused.elim h.1 h.2]
    rfl
  · rw [if_neg hrefused, decide_eq_true (not_or.mp hrefused)]
    rfl

/-- For its own commands `Handle_NS_TD_IO64` sends what `submit_block_io`
sends. -/
theorem handleNsTdIo64Cdb_submit {g : UnitGeometry} {req : IOStdReq} {cdb : Cdb}
    (hns : req.ioCommand.isNsTdIo64 = true)
    (hcdb : cdb ∈ handleNsTdIo64Cdb g req) :
    cdb = submitBlockIoCdb g req.offset64 req.ioLength !req.ioCommand.reads := by
  rw [handleNsTdIo64Cdb_eq] at hcdb
  by_cases hrefused : req.ioData = 0 ∨ req.ioLength = 0
  · rw [if_pos hrefused] at hcdb
    exact absurd hcdb (Option.not_mem_none cdb)
  · rw [if_neg hrefused, Option.mem_def, Option.some.injEq] at hcdb
    rw [← hcdb, direction_eq hns, IOStdReq.offset64_ns hns]

/-- Neither function loses anything of the address, the count or the direction
of a request on the way to the device, and both choose the same CDB. -/
theorem cdbFaithful (g : UnitGeometry) :
    (∀ offset64 length isWrite,
      Conveys (submitBlockIoCdb g offset64 length isWrite)
        (transferOf g offset64 length isWrite)) ∧
      ∀ req, CdbFaithful g req := by
  refine ⟨submitBlockIoCdb_conveys g, fun req => ⟨?_, ?_, ?_, ?_⟩⟩
  · intro isWrite hblock
    rw [IoCommand.dispatch_block hblock]
    exact submitBlockIoCdb_conveys g _ _ _
  · exact handleNsTdIo64Cdb_isSome g req
  · intro hns cdb hcdb
    rw [handleNsTdIo64Cdb_submit hns hcdb]
    exact submitBlockIoCdb_conveys g _ _ _
  · intro hns isWrite hblock cdb hcdb
    rw [handleNsTdIo64Cdb_submit hns hcdb, IoCommand.dispatch_block hblock]

end VirtioScsi
