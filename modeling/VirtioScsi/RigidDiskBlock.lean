import VirtioScsi.ReadTrace
import VirtioScsi.DiskGeometry

/-!
# The rigid disk block

`ensure_rdb_geometry_cached` reads block 0 and the first partition block and
takes a cylinder, head and sector count from them.  Both blocks are parsed in
memory buffers of one block each; the model has the bytes of the memory at
each buffer's address, also those behind the buffer, and records which of them
are read.
-/

namespace VirtioScsi

open ReadTrace

abbrev Memory := ℕ → BitVec 8

inductive RdbBuffer where
  | buf
  | pbuf
deriving DecidableEq, Repr

/-- A computation that reads bytes of the two buffers. -/
abbrev RdbReading := Reading (RdbBuffer × ℕ)

/-! ## Fields -/

/-- The big-endian longword at an offset. -/
def longAt (mem : Memory) (i : ℕ) : BitVec 32 :=
  ((mem i).setWidth 32 <<< 24) ||| ((mem (i + 1)).setWidth 32 <<< 16) |||
    ((mem (i + 2)).setWidth 32 <<< 8) ||| (mem (i + 3)).setWidth 32

def readByte (b : RdbBuffer) (mem : Memory) (i : ℕ) : RdbReading (BitVec 8) :=
  cell (fun x => mem x.2) (b, i)

def readLong (b : RdbBuffer) (mem : Memory) (i : ℕ) : RdbReading (BitVec 32) := do
  let b0 ← readByte b mem i
  let b1 ← readByte b mem (i + 1)
  let b2 ← readByte b mem (i + 2)
  let b3 ← readByte b mem (i + 3)
  pure ((b0.setWidth 32 <<< 24) ||| (b1.setWidth 32 <<< 16) |||
    (b2.setWidth 32 <<< 8) ||| b3.setWidth 32)

/-- Compare bytes from offset `i` on, up to the first that differs. -/
def startsWith (b : RdbBuffer) (mem : Memory) :
    ℕ → List (BitVec 8) → RdbReading Bool
  | _, [] => pure true
  | i, c :: cs => do
      let v ← readByte b mem i
      if v ≠ c then pure false else startsWith b mem (i + 1) cs

def rdsk : List (BitVec 8) := [0x52, 0x44, 0x53, 0x4B]

def part : List (BitVec 8) := [0x50, 0x41, 0x52, 0x54]

/-- The checksum loop from longword `i` on. -/
def sumLongs (mem : Memory) : ℕ → ℕ → BitVec 32 → RdbReading (BitVec 32)
  | 0, _, cksum => pure cksum
  | left + 1, i, cksum => do
      let lw ← readLong .buf mem (i * 4)
      sumLongs mem left (i + 1) (cksum + lw)

/-! ## The two blocks -/

structure Chs where
  cyls : BitVec 32
  sectors : BitVec 32
  heads : BitVec 32
deriving DecidableEq, Repr

/-- `((uint64)cyls * sectors * heads)`. -/
def Chs.product64 (chs : Chs) : BitVec 64 :=
  chs.cyls.setWidth 64 * chs.sectors.setWidth 64 * chs.heads.setWidth 64

/-- The values block 0 declares, if they fit the disk. -/
def readChs (mem : Memory) (totalBlocks : BitVec 64) :
    RdbReading (Option Chs) := do
  let cyls ← readLong .buf mem 0x40
  let sectors ← readLong .buf mem 0x44
  let heads ← readLong .buf mem 0x48
  let chs : Chs := ⟨cyls, sectors, heads⟩
  if cyls = 0 ∨ sectors = 0 ∨ heads = 0 ∨ totalBlocks < chs.product64 then
    pure none
  else pure (some chs)

/-- The checks on block 0 and the values it declares. -/
def readHeader (mem : Memory) (totalBlocks : BitVec 64) :
    RdbReading (Option Chs) := do
  let signed ← startsWith .buf mem 0 rdsk
  if signed then
    let summedLongs ← readLong .buf mem 0x04
    if summedLongs = 0 ∨ 128 < summedLongs then pure none
    else
      let cksum ← sumLongs mem summedLongs.toNat 0 0
      if cksum ≠ 0 then pure none else readChs mem totalBlocks
  else pure none

/-- The partition block's shape replaces the header's if both make cylinders
of the same size. -/
def readShape (mem : Memory) (chs : Chs) : RdbReading Chs := do
  let signed ← startsWith .pbuf mem 0 part
  if signed then
    let surfaces ← readLong .pbuf mem (128 + 12)
    let blkpt ← readLong .pbuf mem (128 + 20)
    if 0 < surfaces ∧ 0 < blkpt ∧ surfaces * blkpt = chs.sectors * chs.heads then
      pure { chs with heads := surfaces, sectors := blkpt }
    else pure chs
  else pure chs

/-! ## The probe -/

/-- A buffer of one block and the command that fills it. -/
structure BlockRead where
  allocated : Bool
  rc : Int
  scsiStatus : BitVec 8
  mem : Memory

def BlockRead.Done (r : BlockRead) : Prop :=
  r.allocated = true ∧ r.rc = 0 ∧ r.scsiStatus = 0

instance (r : BlockRead) : Decidable r.Done :=
  inferInstanceAs (Decidable (_ ∧ _))

/-- What the probe meets: the replies to READ CAPACITY, and the reads of
single blocks. -/
structure RdbEnv where
  capacity : Doio
  read : Cdb → BlockRead

/-- The fields of a unit the probe works on. -/
structure RdbUnit where
  geometry : UnitGeometry
  rdbGeometryValid : Bool
  rdbPhysCyls : BitVec 32
  rdbPhysSectors : BitVec 32
  rdbPhysHeads : BitVec 32
deriving DecidableEq, Repr

namespace RdbUnit

def reset (u : RdbUnit) : RdbUnit := ⟨u.geometry, false, 0, 0, 0⟩

def setChs (u : RdbUnit) (chs : Chs) : RdbUnit :=
  ⟨u.geometry, true, chs.cyls, chs.sectors, chs.heads⟩

/-- The capacity is read only if it is not cached. -/
def discover (u : RdbUnit) (env : RdbEnv) : Int × UnitGeometry :=
  if u.geometry.geometryValid then (0, u.geometry)
  else u.geometry.ensure env.capacity

end RdbUnit

def UnitGeometry.bs (g : UnitGeometry) : BitVec 32 :=
  if g.blockSize ≠ 0 then g.blockSize else 512

/-- The partition block is looked at if its number is plausible. -/
def LinkPlausible (link : BitVec 32) (totalBlocks : BitVec 64) : Prop :=
  link ≠ 0xFFFFFFFF ∧ 0 < link ∧ link.setWidth 64 < totalBlocks

instance (link : BitVec 32) (totalBlocks : BitVec 64) :
    Decidable (LinkPlausible link totalBlocks) :=
  inferInstanceAs (Decidable (_ ∧ _))

/-- From the accepted header on. -/
def followPartitionList (u : RdbUnit) (mem : Memory) (chs : Chs) (env : RdbEnv) :
    RdbReading RdbUnit := do
  let link ← readLong .buf mem 0x1C
  if LinkPlausible link u.geometry.totalBlocks then
    let partition := env.read (makeRead10Cdb link 1)
    if partition.Done then
      let shape ← readShape partition.mem chs
      pure (u.setChs shape)
    else pure (u.setChs chs)
  else pure (u.setChs chs)

/-- From the read of block 0 on. -/
def probeBlock0 (u : RdbUnit) (env : RdbEnv) : RdbReading RdbUnit :=
  let block0 := env.read (makeRead10Cdb 0 1)
  if block0.Done then do
    let header ← readHeader block0.mem u.geometry.totalBlocks
    match header with
    | some chs => followPartitionList u block0.mem chs env
    | none => pure u
  else pure u

/-- `ensure_rdb_geometry_cached`. -/
def ensureRdbGeometryCached (u : RdbUnit) (env : RdbEnv) :
    RdbReading (Int × RdbUnit) :=
  let (rc, geometry) := u.reset.discover env
  let u := { u.reset with geometry := geometry }
  if rc ≠ 0 then pure (rc, u)
  else do
    let u ← probeBlock0 u env
    pure (0, u)

/-! ## What is read and what comes of it -/

def bytesAt (mem : Memory) (i n : ℕ) : List (BitVec 8) :=
  (List.range' i n).map mem

def compared (mem : Memory) : ℕ → List (BitVec 8) → ℕ
  | _, [] => 0
  | i, c :: cs => if mem i = c then compared mem (i + 1) cs + 1 else 1

/-- The sum of the first longwords, as many as the header says. -/
def headerSum (mem : Memory) : BitVec 32 :=
  ((List.range' 0 (longAt mem 0x04).toNat).map fun i => longAt mem (i * 4)).sum

def chsAt (mem : Memory) : Chs :=
  ⟨longAt mem 0x40, longAt mem 0x44, longAt mem 0x48⟩

/-- Nonzero values whose 64-bit product does not exceed the disk. -/
def Chs.Plausible (chs : Chs) (totalBlocks : BitVec 64) : Prop :=
  chs.cyls ≠ 0 ∧ chs.sectors ≠ 0 ∧ chs.heads ≠ 0 ∧ chs.product64 ≤ totalBlocks

instance (chs : Chs) (totalBlocks : BitVec 64) :
    Decidable (chs.Plausible totalBlocks) :=
  inferInstanceAs (Decidable (_ ∧ _))

/-- SummedLongs is between 1 and 128. -/
def SummedPlausible (mem : Memory) : Prop :=
  longAt mem 0x04 ≠ 0 ∧ longAt mem 0x04 ≤ 128

instance (mem : Memory) : Decidable (SummedPlausible mem) :=
  inferInstanceAs (Decidable (_ ∧ _))

def HeaderAccepted (mem : Memory) (totalBlocks : BitVec 64) : Prop :=
  bytesAt mem 0 4 = rdsk ∧ SummedPlausible mem ∧ headerSum mem = 0 ∧
    (chsAt mem).Plausible totalBlocks

instance (mem : Memory) (totalBlocks : BitVec 64) :
    Decidable (HeaderAccepted mem totalBlocks) :=
  inferInstanceAs (Decidable (_ ∧ _))

def surfaces (mem : Memory) : BitVec 32 := longAt mem (128 + 12)

def blocksPerTrack (mem : Memory) : BitVec 32 := longAt mem (128 + 20)

def ShapeAccepted (mem : Memory) (chs : Chs) : Prop :=
  bytesAt mem 0 4 = part ∧ 0 < surfaces mem ∧ 0 < blocksPerTrack mem ∧
    surfaces mem * blocksPerTrack mem = chs.sectors * chs.heads

instance (mem : Memory) (chs : Chs) : Decidable (ShapeAccepted mem chs) :=
  inferInstanceAs (Decidable (_ ∧ _))

/-- The bytes of block 0 that are looked at, from its first one on. -/
def headerBytes (mem : Memory) : ℕ :=
  if bytesAt mem 0 4 ≠ rdsk then compared mem 0 rdsk
  else if ¬ SummedPlausible mem then 8
  else if headerSum mem ≠ 0 then max 8 ((longAt mem 0x04).toNat * 4)
  else max 0x4C ((longAt mem 0x04).toNat * 4)

/-- The bytes of the partition block that are looked at. -/
def partitionBytes (mem : Memory) : ℕ :=
  if bytesAt mem 0 4 ≠ part then compared mem 0 part else 128 + 24

section

variable {b : RdbBuffer} {mem : Memory} {n : ℕ}

@[simp] theorem readLong_value (i : ℕ) :
    (readLong b mem i).value = longAt mem i := by
  simp [readLong, readByte, longAt]

theorem startsWith_value (i : ℕ) (cs : List (BitVec 8)) :
    (startsWith b mem i cs).value = decide (bytesAt mem i cs.length = cs) := by
  induction cs generalizing i with
  | nil => rfl
  | cons c cs ih =>
      unfold startsWith bytesAt
      by_cases hc : mem i = c
      · have htail := ih (i + 1)
        unfold bytesAt at htail
        simp [readByte, hc, htail, List.range'_succ]
      · simp [readByte, hc, List.range'_succ]

theorem compared_of_equal {i : ℕ} {cs : List (BitVec 8)}
    (hequal : bytesAt mem i cs.length = cs) : compared mem i cs = cs.length := by
  induction cs generalizing i with
  | nil => rfl
  | cons c cs ih =>
      rw [bytesAt, List.length_cons, List.range'_succ, List.map_cons,
        List.cons.injEq] at hequal
      rw [compared, if_pos hequal.1, ih hequal.2, List.length_cons]

theorem compared_le (i : ℕ) (cs : List (BitVec 8)) :
    compared mem i cs ≤ cs.length := by
  induction cs generalizing i with
  | nil => exact Nat.le_refl 0
  | cons c cs ih =>
      have htail := ih (i + 1)
      rw [compared, List.length_cons]
      split_ifs <;> omega

/-- The checksum loop adds up the longs of the header. -/
theorem sumLongs_value (left i : ℕ) (cksum : BitVec 32) :
    (sumLongs mem left i cksum).value =
      cksum + ((List.range' i left).map fun k => longAt mem (k * 4)).sum := by
  induction left generalizing i cksum with
  | zero => simp [sumLongs]
  | succ left ih =>
      simp only [sumLongs, value_bind, readLong_value, ih, List.range'_succ,
        List.map_cons, List.sum_cons, add_assoc]

theorem chs_rejected {chs : Chs} {totalBlocks : BitVec 64} :
    ¬ chs.Plausible totalBlocks ↔ chs.cyls = 0 ∨ chs.sectors = 0 ∨
      chs.heads = 0 ∨ totalBlocks < chs.product64 := by
  unfold Chs.Plausible
  simp only [not_and_or, not_not, BitVec.not_le]

theorem readChs_value (totalBlocks : BitVec 64) :
    (readChs mem totalBlocks).value =
      if (chsAt mem).Plausible totalBlocks then some (chsAt mem) else none := by
  unfold readChs
  simp only [value_bind, readLong_value, value_ite, value_pure]
  by_cases hchs : (chsAt mem).Plausible totalBlocks
  · rw [if_pos hchs]
    exact if_neg fun h => chs_rejected.mpr h hchs
  · rw [if_neg hchs]
    exact if_pos (chs_rejected.mp hchs)

theorem not_summedPlausible :
    ¬ SummedPlausible mem ↔ longAt mem 0x04 = 0 ∨ 128 < longAt mem 0x04 := by
  rw [SummedPlausible, not_and_or, not_not, BitVec.not_le]

theorem readHeader_value (totalBlocks : BitVec 64) :
    (readHeader mem totalBlocks).value =
      if HeaderAccepted mem totalBlocks then some (chsAt mem) else none := by
  have hlength : rdsk.length = 4 := rfl
  unfold readHeader HeaderAccepted
  rw [value_bind, startsWith_value, hlength]
  by_cases hsigned : bytesAt mem 0 4 = rdsk
  case neg => simp [hsigned]
  simp only [hsigned, decide_true, if_true, true_and, value_bind, readLong_value]
  by_cases hlongs : SummedPlausible mem
  case neg =>
    rw [if_pos (not_summedPlausible.mp hlongs), if_neg (fun h => hlongs h.1)]
    rfl
  rw [if_neg (fun h => not_summedPlausible.mpr h hlongs), value_bind,
    sumLongs_value, zero_add, ← headerSum]
  by_cases hsum : headerSum mem = 0
  · simp only [hlongs, hsum, ne_eq, not_true_eq_false, if_false, true_and]
    exact readChs_value totalBlocks
  · rw [if_pos hsum, if_neg fun h => hsum h.2.1]
    rfl

theorem readShape_value (chs : Chs) :
    (readShape mem chs).value =
      if ShapeAccepted mem chs then
        { chs with heads := surfaces mem, sectors := blocksPerTrack mem }
      else chs := by
  have hlength : part.length = 4 := rfl
  unfold readShape ShapeAccepted
  rw [value_bind, startsWith_value, hlength]
  by_cases hsigned : bytesAt mem 0 4 = part
  · simp only [hsigned, decide_true, if_true, true_and, value_bind,
      readLong_value, value_ite, value_pure]
    rfl
  · simp [hsigned]

/-! ## Reads inside a buffer of `n` bytes -/

/-- Every byte read is one of the first `n`. -/
def Inside {β : Type} (n : ℕ) (x : RdbReading β) : Prop :=
  Within (fun r => r.2 < n) x

@[simp] theorem inside_readByte {i : ℕ} :
    Inside n (readByte b mem i) ↔ i < n :=
  within_cell _ _

@[simp] theorem inside_pure {β : Type} (v : β) :
    Inside n (pure v : RdbReading β) :=
  within_pure v

@[simp] theorem inside_bind {β γ : Type} (x : RdbReading β)
    (f : β → RdbReading γ) :
    Inside n (x >>= f) ↔ Inside n x ∧ Inside n (f x.value) :=
  within_bind x f

@[simp] theorem inside_ite {β : Type} (c : Prop) [Decidable c]
    (x y : RdbReading β) :
    Inside n (if c then x else y) ↔
      (c → Inside n x) ∧ (¬ c → Inside n y) :=
  within_ite c x y

@[simp] theorem inside_readLong {i : ℕ} :
    Inside n (readLong b mem i) ↔ i + 3 < n := by
  unfold readLong
  simp only [inside_bind, inside_readByte, inside_pure, and_true]
  omega

theorem inside_startsWith {i : ℕ} {cs : List (BitVec 8)} (hi : i ≤ n) :
    Inside n (startsWith b mem i cs) ↔ i + compared mem i cs ≤ n := by
  induction cs generalizing i with
  | nil => simp [startsWith, compared, hi]
  | cons c cs ih =>
      unfold startsWith compared
      simp only [inside_bind, inside_readByte]
      by_cases hlt : i < n
      · have hread : (readByte b mem i).value = mem i := rfl
        rw [hread]
        by_cases hc : mem i = c
        · rw [if_neg (not_not.mpr hc), if_pos hc, ih (by omega)]
          omega
        · rw [if_pos hc, if_neg hc]
          simp only [inside_pure, and_true]
          omega
      · have hpos : 0 < if mem i = c then compared mem (i + 1) cs + 1 else 1 := by
          split_ifs <;> omega
        simp only [hlt, false_and, false_iff]
        omega

theorem inside_sumLongs {left i : ℕ} {cksum : BitVec 32} (hi : i * 4 ≤ n) :
    Inside n (sumLongs mem left i cksum) ↔ (i + left) * 4 ≤ n := by
  induction left generalizing i cksum with
  | zero => simp [sumLongs, hi]
  | succ left ih =>
      simp only [sumLongs, inside_bind, inside_readLong]
      by_cases hlt : i * 4 + 3 < n
      · rw [ih (by omega)]
        simp only [hlt, true_and]
        rw [Nat.add_right_comm, Nat.add_assoc]
      · simp only [hlt, false_and, false_iff]
        omega

theorem inside_readChs (totalBlocks : BitVec 64) :
    Inside n (readChs mem totalBlocks) ↔ 0x4C ≤ n := by
  unfold readChs
  simp only [inside_bind, inside_readLong, inside_ite, inside_pure,
    implies_true, and_true]
  omega

theorem inside_readHeader (totalBlocks : BitVec 64) :
    Inside n (readHeader mem totalBlocks) ↔ headerBytes mem ≤ n := by
  have hlength : rdsk.length = 4 := rfl
  unfold readHeader headerBytes
  rw [inside_bind, inside_startsWith (Nat.zero_le n), Nat.zero_add,
    startsWith_value, hlength]
  by_cases hsigned : bytesAt mem 0 4 = rdsk
  case neg => simp [hsigned]
  have hall : compared mem 0 rdsk = 4 := compared_of_equal hsigned
  simp only [hsigned, hall, decide_true, if_true, ne_eq, not_true_eq_false,
    if_false, inside_bind, inside_readLong, readLong_value]
  by_cases hlongs : SummedPlausible mem
  case neg =>
    rw [if_pos (not_summedPlausible.mp hlongs), if_pos hlongs]
    simp only [inside_pure, and_true]
    omega
  rw [if_neg (fun h => not_summedPlausible.mpr h hlongs),
    if_neg (not_not.mpr hlongs), inside_bind,
    inside_sumLongs (by omega), sumLongs_value, ← headerSum, Nat.zero_add,
    zero_add (headerSum mem)]
  by_cases hsum : headerSum mem = 0
  · rw [if_neg (not_not.mpr hsum), if_neg (not_not.mpr hsum), inside_readChs]
    omega
  · rw [if_pos hsum, if_pos hsum]
    simp only [inside_pure, and_true]
    omega

theorem inside_readShape (chs : Chs) :
    Inside n (readShape mem chs) ↔ partitionBytes mem ≤ n := by
  have hlength : part.length = 4 := rfl
  unfold readShape partitionBytes
  rw [inside_bind, inside_startsWith (Nat.zero_le n), Nat.zero_add,
    startsWith_value, hlength]
  by_cases hsigned : bytesAt mem 0 4 = part
  · have hall : compared mem 0 part = 4 := compared_of_equal hsigned
    simp only [hsigned, hall, decide_true, if_true, ne_eq, not_true_eq_false,
      if_false, inside_bind, inside_readLong, inside_ite, inside_pure,
      implies_true, and_true]
    omega
  · simp [hsigned]

theorem headerBytes_le : headerBytes mem ≤ 512 := by
  unfold headerBytes
  have hcompared : compared mem 0 rdsk ≤ 4 := compared_le 0 rdsk
  by_cases hlongs : SummedPlausible mem
  · have hle := hlongs.2
    rw [BitVec.le_def] at hle
    simp only [BitVec.reduceToNat] at hle
    split_ifs <;> omega
  · simp only [hlongs, not_false_iff, if_true]
    split_ifs <;> omega

theorem partitionBytes_le : partitionBytes mem ≤ 152 := by
  unfold partitionBytes
  have hcompared : compared mem 0 part ≤ 4 := compared_le 0 part
  split_ifs <;> omega

end

/-! ## The probe as a whole -/

namespace RdbEnv

def block0 (env : RdbEnv) : BlockRead := env.read (makeRead10Cdb 0 1)

def Accepts (env : RdbEnv) (g : UnitGeometry) : Prop :=
  env.block0.Done ∧ HeaderAccepted env.block0.mem g.totalBlocks

def partition (env : RdbEnv) : BlockRead :=
  env.read (makeRead10Cdb (longAt env.block0.mem 0x1C) 1)

def Follows (env : RdbEnv) (g : UnitGeometry) : Prop :=
  env.Accepts g ∧ LinkPlausible (longAt env.block0.mem 0x1C) g.totalBlocks ∧
    env.partition.Done

/-- Its shape replaces the one of block 0. -/
def Overrides (env : RdbEnv) (g : UnitGeometry) : Prop :=
  env.Follows g ∧ ShapeAccepted env.partition.mem (chsAt env.block0.mem)

instance (env : RdbEnv) (g : UnitGeometry) : Decidable (env.Accepts g) :=
  inferInstanceAs (Decidable (_ ∧ _))

instance (env : RdbEnv) (g : UnitGeometry) : Decidable (env.Follows g) :=
  inferInstanceAs (Decidable (_ ∧ _))

instance (env : RdbEnv) (g : UnitGeometry) : Decidable (env.Overrides g) :=
  inferInstanceAs (Decidable (_ ∧ _))

def reported (env : RdbEnv) (g : UnitGeometry) : Chs :=
  if env.Overrides g then
    { chsAt env.block0.mem with
      heads := surfaces env.partition.mem
      sectors := blocksPerTrack env.partition.mem }
  else chsAt env.block0.mem

end RdbEnv

section

variable {u : RdbUnit} {env : RdbEnv} {n : ℕ}

theorem followPartitionList_value (haccepts : env.Accepts u.geometry) :
    (followPartitionList u env.block0.mem (chsAt env.block0.mem) env).value =
      u.setChs (env.reported u.geometry) := by
  unfold followPartitionList
  rw [value_bind, readLong_value, value_ite]
  by_cases hfollows : env.Follows u.geometry
  · have hdone : (env.read (makeRead10Cdb (longAt env.block0.mem 0x1C) 1)).Done :=
      hfollows.2.2
    rw [if_pos hfollows.2.1]
    simp only [hdone, if_true, value_bind, value_pure, readShape_value]
    by_cases hshape : ShapeAccepted env.partition.mem (chsAt env.block0.mem)
    · have hoverrides : env.Overrides u.geometry := ⟨hfollows, hshape⟩
      rw [RdbEnv.reported, if_pos hoverrides]
      exact congrArg u.setChs (if_pos hshape)
    · have hkept : ¬ env.Overrides u.geometry := fun h => hshape h.2
      rw [RdbEnv.reported, if_neg hkept]
      exact congrArg u.setChs (if_neg hshape)
  · have hkept : ¬ env.Overrides u.geometry := fun h => hfollows h.1
    rw [RdbEnv.reported, if_neg hkept]
    by_cases hlink : LinkPlausible (longAt env.block0.mem 0x1C) u.geometry.totalBlocks
    · have hfailed : ¬ (env.read (makeRead10Cdb (longAt env.block0.mem 0x1C) 1)).Done :=
        fun hdone => hfollows ⟨haccepts, hlink, hdone⟩
      rw [if_pos hlink]
      simp only [hfailed, if_false, value_pure]
    · rw [if_neg hlink]
      rfl

/-- Block 0 decides the geometry, and the first partition may refine it. -/
theorem probeBlock0_value :
    (probeBlock0 u env).value =
      if env.Accepts u.geometry then u.setChs (env.reported u.geometry)
      else u := by
  unfold probeBlock0
  dsimp only
  rw [← RdbEnv.block0]
  by_cases hdone : env.block0.Done
  case neg =>
    rw [if_neg hdone, if_neg fun h => hdone h.1]
    rfl
  rw [if_pos hdone, value_bind, readHeader_value]
  by_cases haccepted : HeaderAccepted env.block0.mem u.geometry.totalBlocks
  · have haccepts : env.Accepts u.geometry := ⟨hdone, haccepted⟩
    rw [if_pos haccepted, if_pos haccepts]
    exact followPartitionList_value haccepts
  · rw [if_neg haccepted, if_neg fun h => haccepted h.2]
    rfl

theorem headerBytes_of_accepted {mem : Memory} {totalBlocks : BitVec 64}
    (haccepted : HeaderAccepted mem totalBlocks) :
    headerBytes mem = max 0x4C ((longAt mem 0x04).toNat * 4) := by
  unfold headerBytes
  rw [if_neg (not_not.mpr haccepted.1), if_neg (not_not.mpr haccepted.2.1),
    if_neg (not_not.mpr haccepted.2.2.1)]

theorem inside_probeBlock0 :
    Inside n (probeBlock0 u env) ↔
      (env.block0.Done → headerBytes env.block0.mem ≤ n ∧
        (env.Follows u.geometry → partitionBytes env.partition.mem ≤ n)) := by
  unfold probeBlock0
  dsimp only
  rw [← RdbEnv.block0]
  by_cases hdone : env.block0.Done
  case neg => simp [hdone]
  rw [if_pos hdone, inside_bind, inside_readHeader, readHeader_value]
  simp only [hdone, true_implies]
  refine and_congr_right fun hheader => ?_
  by_cases haccepted : HeaderAccepted env.block0.mem u.geometry.totalBlocks
  case neg =>
    rw [if_neg haccepted]
    simp [RdbEnv.Follows, RdbEnv.Accepts, haccepted]
  rw [headerBytes_of_accepted haccepted] at hheader
  rw [if_pos haccepted]
  unfold followPartitionList
  simp only [inside_bind, inside_readLong, readLong_value, inside_ite,
    inside_pure, and_true, implies_true, inside_readShape]
  have hlink : 0x1C + 3 < n := by omega
  have haccepts : env.Accepts u.geometry := ⟨hdone, haccepted⟩
  simp only [hlink, true_and]
  constructor
  · intro hinside hfollows
    exact hinside hfollows.2.1 hfollows.2.2
  · intro hinside hchs hread
    exact hinside ⟨haccepts, hchs, hread⟩

theorem ensureRdb_unit :
    (ensureRdbGeometryCached u env).value.2 =
      let unit : RdbUnit := { u.reset with geometry := (u.discover env).2 }
      if (u.discover env).1 = 0 ∧ env.Accepts unit.geometry then
        unit.setChs (env.reported unit.geometry)
      else unit := by
  have hdiscover : u.reset.discover env = u.discover env := rfl
  unfold ensureRdbGeometryCached
  rw [hdiscover]
  by_cases hrc : (u.discover env).1 = 0
  · simp only [hrc, ne_eq, not_true_eq_false, if_false, true_and, value_bind,
      value_pure, probeBlock0_value]
  · simp only [hrc, ne_eq, not_false_eq_true, if_true, false_and, if_false,
      value_pure]

/-- The buffers that are long enough for the blocks read, exactly. -/
theorem inside_ensureRdb :
    Inside n (ensureRdbGeometryCached u env) ↔
      ((u.discover env).1 = 0 → env.block0.Done →
        headerBytes env.block0.mem ≤ n ∧
          (env.Follows (u.discover env).2 →
            partitionBytes env.partition.mem ≤ n)) := by
  have hdiscover : u.reset.discover env = u.discover env := rfl
  unfold ensureRdbGeometryCached
  rw [hdiscover]
  by_cases hrc : (u.discover env).1 = 0
  · simp only [hrc, ne_eq, not_true_eq_false, if_false, true_implies,
      inside_bind, inside_pure, and_true, inside_probeBlock0]
  · simp only [hrc, ne_eq, not_false_eq_true, if_true, inside_pure,
      false_implies]

end

/-! ## Reads stay inside the buffers -/

/-- The probe reads inside its buffers exactly if one block holds what the
contents of the two blocks make it look at. -/
theorem rdb_reads_inside_iff (u : RdbUnit) (env : RdbEnv) :
    (∀ r ∈ (ensureRdbGeometryCached u env).reads,
        r.2 < (u.discover env).2.bs.toNat) ↔
      ((u.discover env).1 = 0 → env.block0.Done →
        headerBytes env.block0.mem ≤ (u.discover env).2.bs.toNat ∧
          (env.Follows (u.discover env).2 →
            partitionBytes env.partition.mem ≤ (u.discover env).2.bs.toNat)) :=
  inside_ensureRdb

theorem rdb_reads_inside_of_512 (u : RdbUnit) (env : RdbEnv)
    (hsize : 512 ≤ (u.discover env).2.bs.toNat) :
    ∀ r ∈ (ensureRdbGeometryCached u env).reads,
      r.2 < (u.discover env).2.bs.toNat := by
  apply inside_ensureRdb.mpr
  intro _ _
  constructor
  · exact headerBytes_le.trans hsize
  · intro _
    exact partitionBytes_le.trans (by omega)

/-! ## What is accepted is genuine -/

/-- Block 0 is a rigid disk block whose summed longwords lie in the block. -/
structure GenuineHeader (bs : ℕ) (mem : Memory) : Prop where
  signature : bytesAt mem 0 4 = rdsk
  summedLongs : 1 ≤ (longAt mem 0x04).toNat ∧ (longAt mem 0x04).toNat ≤ 128
  inBlock : max 8 ((longAt mem 0x04).toNat * 4) ≤ bs
  checksum : headerSum mem = 0

/-- The values reported are genuine and fit the disk, or there are none. -/
structure RdbExact (bs : ℕ) (mem : Memory) (u : RdbUnit) : Prop where
  genuine : u.rdbGeometryValid = true → GenuineHeader bs mem
  nonzero : u.rdbGeometryValid = true →
    u.rdbPhysCyls ≠ 0 ∧ u.rdbPhysHeads ≠ 0 ∧ u.rdbPhysSectors ≠ 0
  fits : u.rdbGeometryValid = true →
    u.rdbPhysCyls.toNat * u.rdbPhysHeads.toNat * u.rdbPhysSectors.toNat ≤
      u.geometry.totalBlocks.toNat
  shape : u.rdbGeometryValid = true →
    u.rdbPhysHeads.toNat * u.rdbPhysSectors.toNat =
      (chsAt mem).heads.toNat * (chsAt mem).sectors.toNat
  cleared : u.rdbGeometryValid = false →
    u.rdbPhysCyls = 0 ∧ u.rdbPhysHeads = 0 ∧ u.rdbPhysSectors = 0

/-- For an accepted header: the summed longwords lie in the block, the three
values multiply without carry out of 64 bits, and the shapes that are compared
agree above bit 31, too. -/
def RdbEnv.NoWrap (env : RdbEnv) (g : UnitGeometry) : Prop :=
  env.Accepts g →
    max 8 ((longAt env.block0.mem 0x04).toNat * 4) ≤ g.bs.toNat ∧
      (chsAt env.block0.mem).cyls.toNat * (chsAt env.block0.mem).sectors.toNat *
        (chsAt env.block0.mem).heads.toNat < 2 ^ 64 ∧
      (env.Overrides g →
        (surfaces env.partition.mem).toNat *
            (blocksPerTrack env.partition.mem).toNat / 2 ^ 32 =
          (chsAt env.block0.mem).sectors.toNat *
            (chsAt env.block0.mem).heads.toNat / 2 ^ 32)

theorem Chs.product64_toNat (chs : Chs) :
    chs.product64.toNat =
      chs.cyls.toNat * chs.sectors.toNat * chs.heads.toNat % 2 ^ 64 := by
  have hwiden : ∀ w : BitVec 32, (w.setWidth 64).toNat = w.toNat := by
    intro w
    have hw := w.isLt
    rw [BitVec.toNat_setWidth, Nat.mod_eq_of_lt (by omega)]
  unfold product64
  rw [BitVec.toNat_mul, BitVec.toNat_mul, hwiden, hwiden, hwiden, Nat.mod_mul_mod]

/-- Two shapes that passed the 32-bit comparison have the same size exactly if
they agree above bit 31. -/
theorem ShapeAccepted.product_iff {mem : Memory} {chs : Chs}
    (h : ShapeAccepted mem chs) :
    (surfaces mem).toNat * (blocksPerTrack mem).toNat =
        chs.sectors.toNat * chs.heads.toNat ↔
      (surfaces mem).toNat * (blocksPerTrack mem).toNat / 2 ^ 32 =
        chs.sectors.toNat * chs.heads.toNat / 2 ^ 32 := by
  have hlow := congrArg BitVec.toNat h.2.2.2
  rw [BitVec.toNat_mul, BitVec.toNat_mul] at hlow
  constructor
  · intro heq
    rw [heq]
  · intro hhigh
    rw [← Nat.div_add_mod ((surfaces mem).toNat * (blocksPerTrack mem).toNat)
      (2 ^ 32), hhigh, hlow, Nat.div_add_mod]

namespace RdbEnv

variable {env : RdbEnv} {g : UnitGeometry}

theorem Accepts.genuine_iff {bs : ℕ} (h : env.Accepts g) :
    GenuineHeader bs env.block0.mem ↔
      max 8 ((longAt env.block0.mem 0x04).toNat * 4) ≤ bs := by
  constructor
  · exact GenuineHeader.inBlock
  · intro hblock
    obtain ⟨-, hsigned, hlongs, hsum, -⟩ := h
    refine ⟨hsigned, ⟨?_, hlongs.2⟩, hblock, hsum⟩
    rw [Nat.one_le_iff_ne_zero]
    exact fun hzero => hlongs.1 (BitVec.eq_of_toNat_eq hzero)

theorem reported_cyls : (env.reported g).cyls = (chsAt env.block0.mem).cyls := by
  unfold reported
  split_ifs <;> rfl

theorem Accepts.reported_nonzero (h : env.Accepts g) :
    (env.reported g).cyls ≠ 0 ∧ (env.reported g).heads ≠ 0 ∧
      (env.reported g).sectors ≠ 0 := by
  have hchs : (chsAt env.block0.mem).Plausible g.totalBlocks :=
    h.2.2.2.2
  unfold reported
  by_cases hoverrides : env.Overrides g
  · have hpositive : ∀ w : BitVec 32, 0 < w → w ≠ 0 := by
      rintro w hw rfl
      exact absurd hw (by decide)
    rw [if_pos hoverrides]
    exact ⟨hchs.1, hpositive _ hoverrides.2.2.1,
      hpositive _ hoverrides.2.2.2.1⟩
  · rw [if_neg hoverrides]
    exact ⟨hchs.1, hchs.2.2.1, hchs.2.1⟩

theorem reported_shape_iff :
    (env.reported g).heads.toNat * (env.reported g).sectors.toNat =
        (chsAt env.block0.mem).heads.toNat * (chsAt env.block0.mem).sectors.toNat ↔
      (env.Overrides g →
        (surfaces env.partition.mem).toNat *
            (blocksPerTrack env.partition.mem).toNat / 2 ^ 32 =
          (chsAt env.block0.mem).sectors.toNat *
            (chsAt env.block0.mem).heads.toNat / 2 ^ 32) := by
  unfold reported
  by_cases hoverrides : env.Overrides g
  · rw [if_pos hoverrides]
    simp only [hoverrides, true_implies]
    rw [← hoverrides.2.product_iff,
      Nat.mul_comm (chsAt env.block0.mem).heads.toNat]
  · rw [if_neg hoverrides]
    simp only [hoverrides, false_implies]

end RdbEnv

/-- The geometry taken from the rigid disk block is genuine and fits the disk
exactly if nothing wrapped around. -/
theorem rdb_exact_iff (u : RdbUnit) (env : RdbEnv) :
    RdbExact (u.discover env).2.bs.toNat env.block0.mem
        (ensureRdbGeometryCached u env).value.2 ↔
      ((u.discover env).1 = 0 → env.NoWrap (u.discover env).2) := by
  rw [ensureRdb_unit]
  dsimp only
  generalize (u.discover env).1 = rc
  generalize (u.discover env).2 = g
  by_cases haccepts : rc = 0 ∧ env.Accepts g
  case neg =>
    -- Nothing was accepted, so the fields are as they were reset.
    rw [if_neg haccepts]
    constructor
    · intro _ hrc haccept
      exact absurd ⟨hrc, haccept⟩ haccepts
    · intro _
      have hinvalid : ¬ (false = true) := Bool.false_ne_true
      exact ⟨fun h => absurd h hinvalid, fun h => absurd h hinvalid,
        fun h => absurd h hinvalid, fun h => absurd h hinvalid,
        fun _ => ⟨rfl, rfl, rfl⟩⟩
  obtain ⟨hrc, haccepts⟩ := haccepts
  rw [if_pos ⟨hrc, haccepts⟩]
  have hproduct := (chsAt env.block0.mem).product64_toNat
  have hfits : (chsAt env.block0.mem).product64.toNat ≤ g.totalBlocks.toNat :=
    haccepts.2.2.2.2.2.2.2
  have htotal := g.totalBlocks.isLt
  have hshape := @RdbEnv.reported_shape_iff env g
  -- With the size of a cylinder kept, both products are the header's.
  have hvolume : (env.reported g).heads.toNat * (env.reported g).sectors.toNat =
      (chsAt env.block0.mem).heads.toNat * (chsAt env.block0.mem).sectors.toNat →
      (env.reported g).cyls.toNat * (env.reported g).heads.toNat *
          (env.reported g).sectors.toNat =
        (chsAt env.block0.mem).cyls.toNat * (chsAt env.block0.mem).sectors.toNat *
          (chsAt env.block0.mem).heads.toNat := by
    intro hkept
    rw [Nat.mul_assoc, hkept, RdbEnv.reported_cyls]
    ring
  constructor
  · intro hexact _ _
    have hkept := hexact.shape rfl
    refine ⟨(hexact.genuine rfl).inBlock, ?_, hshape.mp hkept⟩
    have hle := hexact.fits rfl
    calc
      (chsAt env.block0.mem).cyls.toNat * (chsAt env.block0.mem).sectors.toNat *
          (chsAt env.block0.mem).heads.toNat =
          (env.reported g).cyls.toNat * (env.reported g).heads.toNat *
            (env.reported g).sectors.toNat := (hvolume hkept).symm
      _ ≤ g.totalBlocks.toNat := hle
      _ < 2 ^ 64 := htotal
  · intro hnoWrap
    obtain ⟨hblock, hsmall, hhigh⟩ := hnoWrap hrc haccepts
    have hkept := hshape.mpr hhigh
    rw [Nat.mod_eq_of_lt hsmall] at hproduct
    constructor
    · intro _
      exact haccepts.genuine_iff.mpr hblock
    · intro _
      exact haccepts.reported_nonzero
    · intro _
      show (env.reported g).cyls.toNat * (env.reported g).heads.toNat *
        (env.reported g).sectors.toNat ≤ g.totalBlocks.toNat
      rw [hvolume hkept, ← hproduct]
      exact hfits
    · intro _
      exact hkept
    · intro hinvalid
      cases hinvalid

section Sample

def memoryOf (longs : List (BitVec 32)) : Memory :=
  fun i => (longs.getD (i / 4) 0 >>> (24 - 8 * (i % 4))).setWidth 8

/-- A header with a correct checksum and no partitions, and 2 ^ 31 cylinders
with 2 ^ 31 sectors on each of 4 heads. -/
def sampleWrappingHeader : List (BitVec 32) :=
  [0x5244534B, 19, 0xADBBAC9F, 0, 0, 0, 0, 0xFFFFFFFF, 0, 0, 0, 0, 0, 0, 0, 0,
    0x80000000, 0x80000000, 4]

/-- A header that sums its first 16 longwords. -/
def sampleShortHeader : List (BitVec 32) :=
  [0x5244534B, 16, 0xADBBACA6, 0, 0, 0, 0, 0xFFFFFFFF]

def sampleRdbEnv (header : List (BitVec 32)) : RdbEnv :=
  ⟨sampleDoio, fun _ => ⟨true, 0, 0, memoryOf header⟩⟩

/-- A disk of 4096 blocks of the given size, probed before. -/
def sampleRdbUnit (blockSize : BitVec 32) : RdbUnit :=
  ⟨⟨4096, blockSize, true⟩, true, 64, 32, 2⟩

/-- The product of the three values wraps around to 0. -/
theorem rdb_exact_fails_sampleWrappingHeader :
    ¬ RdbExact
      ((sampleRdbUnit 512).discover (sampleRdbEnv sampleWrappingHeader)).2.bs.toNat
      (sampleRdbEnv sampleWrappingHeader).block0.mem
      (ensureRdbGeometryCached (sampleRdbUnit 512)
        (sampleRdbEnv sampleWrappingHeader)).value.2 := by
  intro hexact
  have hunit : (ensureRdbGeometryCached (sampleRdbUnit 512)
      (sampleRdbEnv sampleWrappingHeader)).value.2 =
        ⟨⟨4096, 512, true⟩, true, 0x80000000, 0x80000000, 4⟩ := by
    decide +kernel
  rw [hunit] at hexact
  exact absurd (hexact.fits rfl) (by decide)

/-- In blocks of 64 bytes the cylinder count lies behind the buffer. -/
theorem rdb_reads_outside_sampleShortHeader :
    ¬ ∀ r ∈ (ensureRdbGeometryCached (sampleRdbUnit 64)
        (sampleRdbEnv sampleShortHeader)).reads,
      r.2 < ((sampleRdbUnit 64).discover
        (sampleRdbEnv sampleShortHeader)).2.bs.toNat := by
  decide +kernel

end Sample

end VirtioScsi
