import VirtioScsi.BlockCdb

/-!
# Cached geometry and block addressing

`ensure_geometry_cached` and the three commands that call it, and what their
order means for block I/O: the unit keeps its cached geometry for the
driver's lifetime, and block I/O on a unit without one takes 512 bytes for a
block.
-/

namespace VirtioScsi

def ioerrBadLength : Int := -4

/-- The `sizeof` of the two geometry structures of the SDK. -/
structure SdkSizes where
  driveGeometry : ℕ
  driveGeometry64 : ℕ

/-- What `VirtIOSCSI_DoIO` returned and left in the caller's buffer. -/
structure DoioReply where
  rc : Int
  scsiStatus : BitVec 8
  data : List (BitVec 8)
deriving DecidableEq, Repr

def loadWord (n : ℕ) (data : List (BitVec 8)) (start : ℕ) : BitVec (8 * n) :=
  BitVec.ofNat (8 * n) (bigEndian ((data.drop start).take n))

/-- READ CAPACITY (10), and (16) when the first does not hold the last block
address. -/
def ensureGeometryCached (g : UnitGeometry) (cap10 cap16 : DoioReply) :
    Int × UnitGeometry :=
  if g.geometryValid then (0, g)
  else if cap10.rc ≠ 0 then (cap10.rc, g)
  else if cap10.scsiStatus ≠ 0 then (hferrBadStatus, g)
  else
    let lastLba10 := loadWord 4 cap10.data 0
    if lastLba10 = 0xFFFFFFFF then
      if cap16.rc ≠ 0 then (cap16.rc, g)
      else if cap16.scsiStatus ≠ 0 then (hferrBadStatus, g)
      else
        let lastLba64 := loadWord 8 cap16.data 0
        (0, ⟨lastLba64 + 1, loadWord 4 cap16.data 8, true⟩)
    else
      (0, ⟨lastLba10.setWidth 64 + 1, loadWord 4 cap10.data 4, true⟩)

/-- A command on a unit, with the replies its handler would get. -/
structure UnitCommand where
  req : IOStdReq
  cap10 : DoioReply
  cap16 : DoioReply
deriving DecidableEq, Repr

namespace UnitCommand

/-- Both `Handle_TD_GetGeometry` and `Handle_NS_TD_GetGeometry64`. -/
def getGeometry (size : ℕ) (g : UnitGeometry) (c : UnitCommand) :
    Int × UnitGeometry :=
  if c.req.ioLength.toNat < size then (ioerrBadLength, g)
  else
    let result := ensureGeometryCached g c.cap10 c.cap16
    if result.1 ≠ 0 then result
    else if result.2.geometryValid then (0, result.2)
    else (hferrBadStatus, result.2)

/-- `Handle_TD_GetNumTracks`, which never fails. -/
def getNumTracks (g : UnitGeometry) (c : UnitCommand) : Int × UnitGeometry :=
  (0, if g.geometryValid then g else (ensureGeometryCached g c.cap10 c.cap16).2)

/-- `io_Error` and the cached geometry after a command that looks at the
geometry; no other command touches it. -/
def handleGeometry (sizes : SdkSizes) (g : UnitGeometry) (c : UnitCommand) :
    Option (Int × UnitGeometry) :=
  match c.req.ioCommand with
  | .tdGetGeometry => some (getGeometry sizes.driveGeometry g c)
  | .nscmdTdGetGeometry64 => some (getGeometry sizes.driveGeometry64 g c)
  | .tdGetNumTracks => some (getNumTracks g c)
  | _ => none

def after (sizes : SdkSizes) (g : UnitGeometry) (c : UnitCommand) :
    UnitGeometry :=
  ((c.handleGeometry sizes g).map Prod.snd).getD g

end UnitCommand

def UnitGeometry.fresh : UnitGeometry := ⟨0, 0, false⟩

/-- The geometry cached after a sequence of commands, in one or several
openings of the unit. -/
def UnitGeometry.run (sizes : SdkSizes) (g : UnitGeometry)
    (commands : List UnitCommand) : UnitGeometry :=
  commands.foldl (UnitCommand.after sizes) g

/-! ## A device that answers READ CAPACITY -/

/-- The last block address and the block size of the device. -/
structure Capacity where
  lastLba : BitVec 64
  blockSize : BitVec 32

namespace Capacity

def answer10 (cap : Capacity) : List (BitVec 8) :=
  let lba : BitVec 32 :=
    if cap.lastLba < 0xFFFFFFFF then cap.lastLba.setWidth 32 else 0xFFFFFFFF
  [(lba >>> 24).setWidth 8, (lba >>> 16).setWidth 8,
    (lba >>> 8).setWidth 8, lba.setWidth 8,
    (cap.blockSize >>> 24).setWidth 8, (cap.blockSize >>> 16).setWidth 8,
    (cap.blockSize >>> 8).setWidth 8, cap.blockSize.setWidth 8]

def answer16 (cap : Capacity) : List (BitVec 8) :=
  let lba := cap.lastLba
  [(lba >>> 56).setWidth 8, (lba >>> 48).setWidth 8,
    (lba >>> 40).setWidth 8, (lba >>> 32).setWidth 8,
    (lba >>> 24).setWidth 8, (lba >>> 16).setWidth 8,
    (lba >>> 8).setWidth 8, lba.setWidth 8,
    (cap.blockSize >>> 24).setWidth 8, (cap.blockSize >>> 16).setWidth 8,
    (cap.blockSize >>> 8).setWidth 8, cap.blockSize.setWidth 8] ++
    List.replicate 20 0

def Answers (cap : Capacity) (c : UnitCommand) : Prop :=
  (c.cap10.rc = 0 → c.cap10.scsiStatus = 0 → c.cap10.data = cap.answer10) ∧
    (c.cap16.rc = 0 → c.cap16.scsiStatus = 0 → c.cap16.data = cap.answer16)

instance (cap : Capacity) (c : UnitCommand) : Decidable (cap.Answers c) :=
  inferInstanceAs (Decidable (_ ∧ _))

def geometry (cap : Capacity) : UnitGeometry :=
  ⟨cap.lastLba + 1, cap.blockSize, true⟩

variable {cap : Capacity}

theorem loadWord_answer10 :
    loadWord 4 cap.answer10 4 = cap.blockSize := by
  simp [loadWord, answer10, bigEndian_four]

theorem loadWord_answer16 :
    loadWord 4 cap.answer16 8 = cap.blockSize := by
  simp [loadWord, answer16, bigEndian_four]

/-- Nothing but the device's own block size is ever cached. -/
def Cached (cap : Capacity) (g : UnitGeometry) : Prop :=
  g.geometryValid = true → g.blockSize = cap.blockSize

theorem Cached.ensure {g : UnitGeometry} {c : UnitCommand}
    (hg : cap.Cached g) (hc : cap.Answers c) :
    cap.Cached (ensureGeometryCached g c.cap10 c.cap16).2 := by
  unfold ensureGeometryCached
  dsimp only
  by_cases hvalid : g.geometryValid = true
  · rw [if_pos hvalid]
    exact hg
  rw [if_neg hvalid]
  by_cases hrc10 : c.cap10.rc = 0
  case neg => rwa [if_pos hrc10]
  rw [if_neg (not_not.mpr hrc10)]
  by_cases hstatus10 : c.cap10.scsiStatus = 0
  case neg => rwa [if_pos hstatus10]
  rw [if_neg (not_not.mpr hstatus10)]
  split
  · by_cases hrc16 : c.cap16.rc = 0
    case neg => rwa [if_pos hrc16]
    rw [if_neg (not_not.mpr hrc16)]
    by_cases hstatus16 : c.cap16.scsiStatus = 0
    case neg => rwa [if_pos hstatus16]
    rw [if_neg (not_not.mpr hstatus16)]
    intro _
    rw [hc.2 hrc16 hstatus16]
    exact loadWord_answer16
  · intro _
    rw [hc.1 hrc10 hstatus10]
    exact loadWord_answer10

theorem Cached.getGeometry {g : UnitGeometry} {c : UnitCommand} {size : ℕ}
    (hg : cap.Cached g) (hc : cap.Answers c) :
    cap.Cached (c.getGeometry size g).2 := by
  unfold UnitCommand.getGeometry
  dsimp only
  split_ifs
  · exact hg
  · exact hg.ensure hc
  · exact hg.ensure hc
  · exact hg.ensure hc

theorem Cached.after {sizes : SdkSizes} {g : UnitGeometry} {c : UnitCommand}
    (hg : cap.Cached g) (hc : cap.Answers c) : cap.Cached (c.after sizes g) := by
  unfold UnitCommand.after UnitCommand.handleGeometry
  split
  · exact hg.getGeometry hc
  · exact hg.getGeometry hc
  · simp only [Option.map_some, Option.getD_some, UnitCommand.getNumTracks]
    split_ifs
    · exact hg
    · exact hg.ensure hc
  · exact hg

theorem Cached.run {sizes : SdkSizes} {g : UnitGeometry}
    {commands : List UnitCommand} (hg : cap.Cached g)
    (hcommands : ∀ c ∈ commands, cap.Answers c) :
    cap.Cached (g.run sizes commands) := by
  induction commands generalizing g with
  | nil => exact hg
  | cons c commands ih =>
      rw [List.forall_mem_cons] at hcommands
      exact ih (hg.after hcommands.1) hcommands.2

theorem Cached.blksz {g : UnitGeometry} (hg : cap.Cached g)
    (hblock : cap.blockSize ≠ 0) (hvalid : g.geometryValid = true) :
    g.blksz = cap.blockSize := by
  unfold UnitGeometry.blksz
  rw [hg hvalid, hvalid, if_pos (by simpa using hblock)]

end Capacity

/-! ## What is cached stays cached -/

theorem UnitCommand.after_of_valid {sizes : SdkSizes} {g : UnitGeometry}
    (c : UnitCommand) (hvalid : g.geometryValid = true) :
    c.after sizes g = g := by
  have hensure : ∀ cap10 cap16, ensureGeometryCached g cap10 cap16 = (0, g) := by
    intro cap10 cap16
    rw [ensureGeometryCached, if_pos hvalid]
  unfold after handleGeometry getGeometry getNumTracks
  simp only [hensure, hvalid]
  split <;> simp only [Option.map_some, Option.map_none, Option.getD_some,
    Option.getD_none] <;> split_ifs <;> simp_all

theorem UnitGeometry.run_of_valid {sizes : SdkSizes} {g : UnitGeometry}
    (commands : List UnitCommand) (hvalid : g.geometryValid = true) :
    g.run sizes commands = g := by
  induction commands with
  | nil => rfl
  | cons c commands ih =>
      unfold run at ih ⊢
      rw [List.foldl_cons, c.after_of_valid hvalid]
      exact ih

theorem UnitCommand.handleGeometry_of_other {sizes : SdkSizes}
    {g : UnitGeometry} {c : UnitCommand}
    (hother : c.req.ioCommand.asksGeometry = false) :
    c.handleGeometry sizes g = none := by
  revert hother
  unfold handleGeometry IoCommand.asksGeometry
  split <;> simp

theorem UnitGeometry.run_of_other {sizes : SdkSizes} {g : UnitGeometry}
    {commands : List UnitCommand}
    (hother : ∀ c ∈ commands, c.req.ioCommand.asksGeometry = false) :
    g.run sizes commands = g := by
  induction commands with
  | nil => rfl
  | cons c commands ih =>
      rw [List.forall_mem_cons] at hother
      unfold run at ih ⊢
      rw [List.foldl_cons, UnitCommand.after,
        UnitCommand.handleGeometry_of_other hother.1]
      exact ih hother.2

/-! ## Block addressing -/

theorem submitBlockIoCdb_eq_iff {g g' : UnitGeometry} {offset64 : BitVec 64}
    {length : BitVec 32} {isWrite : Bool} :
    submitBlockIoCdb g offset64 length isWrite =
        submitBlockIoCdb g' offset64 length isWrite ↔
      offset64.toNat / g.blksz.toNat = offset64.toNat / g'.blksz.toNat ∧
        max 1 (length.toNat / g.blksz.toNat) =
          max 1 (length.toNat / g'.blksz.toNat) := by
  constructor
  · intro heq
    have hconveys := submitBlockIoCdb_conveys g offset64 length isWrite
    rw [heq] at hconveys
    have htransfer := hconveys.transfer_eq
      (submitBlockIoCdb_conveys g' offset64 length isWrite)
    exact ⟨congrArg BlockTransfer.lba htransfer,
      congrArg BlockTransfer.blocks htransfer⟩
  · rintro ⟨hlba, hblocks⟩
    rw [← lba_toNat, ← lba_toNat] at hlba
    rw [← blockCount_toNat, ← blockCount_toNat] at hblocks
    unfold submitBlockIoCdb
    rw [BitVec.eq_of_toNat_eq hlba, BitVec.eq_of_toNat_eq hblocks]

/-- The CDB two histories of one unit lead to is the one for the device's
block size. -/
def SameAddressing (sizes : SdkSizes) (cap : Capacity) (opened : UnitGeometry)
    (asked notAsked : List UnitCommand) (offset64 : BitVec 64)
    (length : BitVec 32) (isWrite : Bool) : Prop :=
  submitBlockIoCdb (opened.run sizes asked) offset64 length isWrite =
      submitBlockIoCdb cap.geometry offset64 length isWrite ∧
    submitBlockIoCdb (opened.run sizes notAsked) offset64 length isWrite =
      submitBlockIoCdb cap.geometry offset64 length isWrite

instance {sizes cap opened asked notAsked offset64 length isWrite} :
    Decidable (SameAddressing sizes cap opened asked notAsked offset64 length
      isWrite) :=
  inferInstanceAs (Decidable (_ ∧ _))

/-- Block I/O goes to the same blocks, whatever a first history asked for and
without a second one asking for the geometry, exactly if it is cached from an
earlier opening or 512 and the device's block size divide the request alike. -/
theorem sameAddressing_iff (sizes : SdkSizes) (cap : Capacity)
    (past asked notAsked : List UnitCommand) (offset64 : BitVec 64)
    (length : BitVec 32) (isWrite : Bool) (hblock : cap.blockSize ≠ 0)
    (hpast : ∀ c ∈ past, cap.Answers c) (hasked : ∀ c ∈ asked, cap.Answers c)
    (hnone : ∀ c ∈ notAsked, c.req.ioCommand.asksGeometry = false) :
    SameAddressing sizes cap (UnitGeometry.fresh.run sizes past) asked notAsked
        offset64 length isWrite ↔
      (UnitGeometry.fresh.run sizes past).geometryValid = true ∨
        (offset64.toNat / 512 = offset64.toNat / cap.blockSize.toNat ∧
          max 1 (length.toNat / 512) =
            max 1 (length.toNat / cap.blockSize.toNat)) := by
  have hopened : cap.Cached (UnitGeometry.fresh.run sizes past) := by
    refine Capacity.Cached.run ?_ hpast
    intro hvalid
    exact absurd hvalid (by decide)
  revert hopened
  generalize UnitGeometry.fresh.run sizes past = opened
  intro hopened
  have hdevice : cap.geometry.blksz = cap.blockSize :=
    Capacity.Cached.blksz (fun _ => rfl) hblock rfl
  unfold SameAddressing
  rw [UnitGeometry.run_of_other hnone]
  by_cases hvalid : opened.geometryValid = true
  · rw [UnitGeometry.run_of_valid asked hvalid]
    simp only [hvalid, true_or, iff_true, and_self]
    rw [submitBlockIoCdb_eq_iff, hdevice, hopened.blksz hblock hvalid]
    exact ⟨rfl, rfl⟩
  · have hdefault : opened.blksz.toNat = 512 := by
      rw [UnitGeometry.blksz, if_neg (by simp [hvalid])]
      rfl
    rw [or_iff_right hvalid, submitBlockIoCdb_eq_iff, submitBlockIoCdb_eq_iff,
      hdefault, hdevice]
    refine and_iff_right_of_imp fun hsame => ?_
    -- The first history cached the device's block size, or still has 512.
    by_cases hlater : (opened.run sizes asked).geometryValid = true
    · have hcached : cap.Cached (opened.run sizes asked) := hopened.run hasked
      rw [hcached.blksz hblock hlater]
      exact ⟨rfl, rfl⟩
    · have hblksz : (opened.run sizes asked).blksz.toNat = 512 := by
        rw [UnitGeometry.blksz, if_neg (by simp [hlater])]
        rfl
      rw [hblksz]
      exact hsame

section Sample

/-- A disk with 2048-byte blocks. -/
def sampleCapacity : Capacity := ⟨1023, 2048⟩

def sampleGetGeometry : UnitCommand :=
  ⟨⟨.tdGetGeometry, 0, 0, 32, 4096⟩, ⟨0, 0, sampleCapacity.answer10⟩,
    ⟨0, 0, sampleCapacity.answer16⟩⟩

/-- Without asking, byte 2048 is taken for block 4. -/
theorem sameAddressing_fails_sampleCapacity :
    (sampleGetGeometry.handleGeometry ⟨32, 40⟩ .fresh).map Prod.fst = some 0 ∧
      ¬ SameAddressing ⟨32, 40⟩ sampleCapacity .fresh [sampleGetGeometry] []
        2048 2048 false := by
  decide

theorem sameAddressing_iff_sampleCapacity :
    SameAddressing ⟨32, 40⟩ sampleCapacity .fresh [sampleGetGeometry] []
        0 512 false ↔
      UnitGeometry.fresh.geometryValid = true ∨ (0 / 512 = 0 / 2048 ∧
        max 1 (512 / 512) = max 1 (512 / 2048)) :=
  sameAddressing_iff ⟨32, 40⟩ sampleCapacity [] [sampleGetGeometry] []
    0 512 false (by decide) (by decide) (by decide) (by decide)

end Sample

end VirtioScsi
