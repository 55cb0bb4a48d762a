import Mathlib
import VirtioScsi.Alignment

/-!
# Where the rings of a queue lie

The addresses `VirtQueue_Allocate` (`virtqueue.c`) computes for the descriptor
table and the two rings, in 32-bit words: the rings follow each other, the used
ring on a page of its own, in an allocation that is one page larger than they
are so that its first page boundary can be their base.
-/

namespace VirtioScsi

def virtioPciVringAlign : BitVec 32 := 4096

/-! ## Sizes -/

namespace VringSize

variable (queueSize : BitVec 32)

def descSize : BitVec 32 := 16 * queueSize

def availSize : BitVec 32 := 2 * (3 + queueSize)

def availEnd : BitVec 32 := descSize queueSize + availSize queueSize

def usedOffset : BitVec 32 := Alignment.roundUp virtioPciVringAlign (availEnd queueSize)

def usedSize : BitVec 32 := 2 * 3 + 8 * queueSize

def totalMem : BitVec 32 := usedOffset queueSize + usedSize queueSize

/-- One page more, for the alignment. -/
def allocSize : BitVec 32 := totalMem queueSize + virtioPciVringAlign

end VringSize

/-! ## Placement -/

/-- What `AllocVecTags` answers to `VirtQueue_Allocate`. -/
structure VringEnv where
  raw : Option (BitVec 32)
  vq : Option (BitVec 32)
  cookies : Option (BitVec 32)
  indirectTables : Option (BitVec 32)
deriving DecidableEq, Repr

/-- The fields of `struct virtqueue` that say where the vring is. -/
structure VringPlacement where
  memBlock : BitVec 32
  memSize : BitVec 32
  desc : BitVec 32
  avail : BitVec 32
  used : BitVec 32
deriving DecidableEq, Repr

open VringSize in
def virtQueueAllocate (queueSize : BitVec 32) (env : VringEnv) : Option VringPlacement :=
  match env.raw, env.vq, env.cookies, env.indirectTables with
  | some raw, some _, some _, some _ =>
      let base := Alignment.roundUp virtioPciVringAlign raw
      some
        { memBlock := raw
          memSize := totalMem queueSize
          desc := base
          avail := base + descSize queueSize
          used := base + usedOffset queueSize }
  | _, _, _, _ => none

def cells (addr : BitVec 32) (bytes : ℕ) : Set ℕ := Set.Ico addr.toNat (addr.toNat + bytes)

/-- The offset of `ring[i]` in `struct vring_avail`. -/
def availRing (i : ℕ) : ℕ := 2 + 2 + 2 * i

/-- The offset of `ring[i]` in `struct vring_used`. -/
def usedRing (i : ℕ) : ℕ := 2 + 2 + 8 * i

namespace VringPlacement

variable (p : VringPlacement) (n : ℕ)

def descCells : Set ℕ := cells p.desc (16 * n)

/-- With `used_event`, the word at `avail->ring[n]`. -/
def availCells : Set ℕ := cells p.avail (availRing n + 2)

/-- With `avail_event`, the word after `used->ring[n - 1]`. -/
def usedCells : Set ℕ := cells p.used (usedRing n + 2)

/-- The rings of a queue of `n` entries, in an allocation of `allocSize` bytes. -/
structure Sound (raw : BitVec 32) (allocSize : ℕ) : Prop where
  desc_avail : Disjoint (p.descCells n) (p.availCells n)
  desc_used : Disjoint (p.descCells n) (p.usedCells n)
  avail_used : Disjoint (p.availCells n) (p.usedCells n)
  allocated : p.descCells n ∪ p.availCells n ∪ p.usedCells n ⊆ cells raw allocSize
  mapped : p.descCells n ∪ p.availCells n ∪ p.usedCells n ⊆ cells p.desc p.memSize.toNat
  desc_aligned : 4096 ∣ p.desc.toNat
  used_aligned : 4096 ∣ p.used.toNat

end VringPlacement

/-! ## Arithmetic -/

namespace VringSize

variable {queueSize raw : BitVec 32}

theorem toNat_align : virtioPciVringAlign.toNat = 2 ^ 12 := rfl

theorem toNat_descSize (hmax : queueSize.toNat ≤ 65535) :
    (descSize queueSize).toNat = 16 * queueSize.toNat := by
  unfold descSize
  bv_omega

theorem toNat_availSize (hmax : queueSize.toNat ≤ 65535) :
    (availSize queueSize).toNat = 2 * (3 + queueSize.toNat) := by
  unfold availSize
  bv_omega

theorem toNat_availEnd (hmax : queueSize.toNat ≤ 65535) :
    (availEnd queueSize).toNat = 16 * queueSize.toNat + 2 * (3 + queueSize.toNat) := by
  have hdesc := toNat_descSize hmax
  have havail := toNat_availSize hmax
  unfold availEnd
  bv_omega

theorem toNat_usedSize (hmax : queueSize.toNat ≤ 65535) :
    (usedSize queueSize).toNat = 2 * 3 + 8 * queueSize.toNat := by
  unfold usedSize
  bv_omega

theorem toNat_usedOffset (hmax : queueSize.toNat ≤ 65535) :
    (usedOffset queueSize).toNat =
      (16 * queueSize.toNat + 2 * (3 + queueSize.toNat) + 4095) / 4096 * 4096 := by
  have hend := toNat_availEnd hmax
  unfold usedOffset
  rw [Alignment.toNat_roundUp toNat_align (by rw [hend, toNat_align]; omega), hend, toNat_align]
  omega

/-- The used ring begins on the first page boundary behind the available ring. -/
theorem usedOffset_bounds (hmax : queueSize.toNat ≤ 65535) :
    16 * queueSize.toNat + 2 * (3 + queueSize.toNat) ≤ (usedOffset queueSize).toNat ∧
      (usedOffset queueSize).toNat <
        16 * queueSize.toNat + 2 * (3 + queueSize.toNat) + 4096 ∧
      4096 ∣ (usedOffset queueSize).toNat := by
  rw [toNat_usedOffset hmax]
  omega

theorem toNat_totalMem (hmax : queueSize.toNat ≤ 65535) :
    (totalMem queueSize).toNat =
      (usedOffset queueSize).toNat + (2 * 3 + 8 * queueSize.toNat) := by
  have hused := toNat_usedSize hmax
  have hbounds := usedOffset_bounds hmax
  unfold totalMem
  bv_omega

theorem toNat_allocSize (hmax : queueSize.toNat ≤ 65535) :
    (allocSize queueSize).toNat = (totalMem queueSize).toNat + 4096 := by
  have htotal := toNat_totalMem hmax
  have hbounds := usedOffset_bounds hmax
  unfold allocSize virtioPciVringAlign
  bv_omega

end VringSize

/-! ## The rings do not meet -/

theorem cells_disjoint {a b : BitVec 32} {m n : ℕ} (h : a.toNat + m ≤ b.toNat) :
    Disjoint (cells a m) (cells b n) := by
  rw [Set.disjoint_left]
  intro i hi hi'
  exact absurd (hi.2.trans_le h) (not_lt.mpr hi'.1)

theorem cells_subset {a b : BitVec 32} {m n : ℕ} (hle : b.toNat ≤ a.toNat)
    (hend : a.toNat + m ≤ b.toNat + n) : cells a m ⊆ cells b n :=
  Set.Ico_subset_Ico hle hend

open VringSize in
theorem virtQueueAllocate_fields {queueSize : BitVec 32} {env : VringEnv} {p : VringPlacement}
    (halloc : virtQueueAllocate queueSize env = some p) :
    env.raw = some p.memBlock ∧ p.memSize = totalMem queueSize ∧
      p.desc = Alignment.roundUp virtioPciVringAlign p.memBlock ∧
      p.avail = p.desc + descSize queueSize ∧ p.used = p.desc + usedOffset queueSize := by
  unfold virtQueueAllocate at halloc
  split at halloc
  · next hraw _ _ _ =>
    rw [Option.some.injEq] at halloc
    subst halloc
    exact ⟨hraw, rfl, rfl, rfl, rfl⟩
  · cases halloc

open VringSize in
/-- The three parts of a ring lie in the allocated block, aligned and apart from each
other. -/
theorem virtQueueAllocate_sound {queueSize raw : BitVec 32} {env : VringEnv}
    {p : VringPlacement} (hmax : queueSize.toNat ≤ 65535) (hraw : env.raw = some raw)
    (hwrap : raw.toNat + (allocSize queueSize).toNat ≤ 2 ^ 32)
    (halloc : virtQueueAllocate queueSize env = some p) :
    p.Sound queueSize.toNat raw (allocSize queueSize).toNat := by
  obtain ⟨hblock, hmem, hbase, havail, hused⟩ := virtQueueAllocate_fields halloc
  obtain rfl : raw = p.memBlock := Option.some.inj (hraw.symm.trans hblock)
  have hsize := toNat_descSize hmax
  have htotal := toNat_totalMem hmax
  have hallocSize := toNat_allocSize hmax
  obtain ⟨hbehind, hbefore, hpage⟩ := usedOffset_bounds hmax
  have hfits : p.memBlock.toNat + virtioPciVringAlign.toNat ≤ 2 ^ 32 := by
    rw [toNat_align]
    omega
  -- The base is less than a page behind the raw address, so nothing below wraps.
  have hle := Alignment.le_roundUp toNat_align hfits
  have hlt := Alignment.roundUp_lt toNat_align hfits
  have hdvd := Alignment.dvd_roundUp toNat_align p.memBlock
  rw [toNat_align] at hlt hdvd
  rw [← hbase] at hle hlt hdvd
  have havail' : p.avail.toNat = p.desc.toNat + 16 * queueSize.toNat := by
    rw [havail]
    bv_omega
  have hused' : p.used.toNat = p.desc.toNat + (usedOffset queueSize).toNat := by
    rw [hused]
    bv_omega
  have havailEnd : availRing queueSize.toNat + 2 = 2 * (3 + queueSize.toNat) := by
    unfold availRing
    omega
  have husedEnd : usedRing queueSize.toNat + 2 = 2 * 3 + 8 * queueSize.toNat := by
    unfold usedRing
    omega
  constructor
  · apply cells_disjoint
    rw [havail']
  · apply cells_disjoint
    omega
  · apply cells_disjoint
    omega
  · refine Set.union_subset (Set.union_subset ?_ ?_) ?_
    · apply cells_subset <;> omega
    · apply cells_subset <;> omega
    · apply cells_subset <;> omega
  · rw [hmem, htotal]
    refine Set.union_subset (Set.union_subset ?_ ?_) ?_
    · apply cells_subset <;> omega
    · apply cells_subset <;> omega
    · apply cells_subset <;> omega
  · exact hdvd
  · rw [hused']
    exact Nat.dvd_add hdvd hpage

end VirtioScsi
