import VirtioScsi.ByteOrder

/-!
# The virtqueue

The split virtqueue of `virtqueue.c` and `virtqueue.h`: the descriptor table,
the two rings as the processor sees their fields, and the management struct,
with `VirtQueue_Allocate`, `VirtQueue_AddBuf` and `VirtQueue_GetBuf`.

A field of the vring is kept as the word the big-endian processor loads from
it, so every access goes through `vr16`, `vr32` or `vr64` exactly where the
source goes through them.  Free-list links are native words.  A cookie is a
non-NULL pointer of an arbitrary type; `none` in the cookie array is NULL.
-/

namespace VirtioScsi

open ByteOrder

/-! ## Vring fields -/

def vringDescFNext : BitVec 16 := 1
def vringDescFWrite : BitVec 16 := 2
def vringDescFIndirect : BitVec 16 := 4

/-- Maximum scatter-gather entries of a request. -/
def maxSgEntries : ℕ := 64

def vr16 (modern : Bool) (v : BitVec 16) : BitVec 16 :=
  if modern then bswap 2 v else v

def vr32 (modern : Bool) (v : BitVec 32) : BitVec 32 :=
  if modern then bswap 4 v else v

def vr64 (modern : Bool) (v : BitVec 64) : BitVec 64 :=
  if modern then bswap 8 v else v

@[simp] theorem vr16_vr16 (modern : Bool) (v : BitVec 16) :
    vr16 modern (vr16 modern v) = v := by
  cases modern
  · rfl
  · exact bswap_bswap 2 v

@[simp] theorem vr32_vr32 (modern : Bool) (v : BitVec 32) :
    vr32 modern (vr32 modern v) = v := by
  cases modern
  · rfl
  · exact bswap_bswap 4 v

@[simp] theorem vr64_vr64 (modern : Bool) (v : BitVec 64) :
    vr64 modern (vr64 modern v) = v := by
  cases modern
  · rfl
  · exact bswap_bswap 8 v

@[simp] theorem vr16_zero (modern : Bool) : vr16 modern 0 = 0 := by
  cases modern <;> decide

/-- `struct vring_desc`, and `struct vring_indirect_desc` with the same layout. -/
structure VringDesc where
  addr : BitVec 64
  len : BitVec 32
  flags : BitVec 16
  next : BitVec 16
deriving DecidableEq, Repr

/-- `struct vring_avail`; the word `ring num` after the ring is `used_event`. -/
structure VringAvail where
  flags : BitVec 16
  idx : BitVec 16
  ring : ℕ → BitVec 16

structure VringUsedElem where
  id : BitVec 32
  len : BitVec 32
deriving DecidableEq, Repr

structure VringUsed where
  flags : BitVec 16
  idx : BitVec 16
  ring : ℕ → VringUsedElem

/-- A scatter-gather entry: physical address and length in bytes. -/
structure VringSg where
  addr : BitVec 32
  len : BitVec 32
deriving DecidableEq, Repr

/-- A live indirect table: its virtual address and the memory behind it. -/
structure IndirectTable where
  virt : ℕ
  entries : List VringDesc
deriving DecidableEq, Repr

/-- `struct virtqueue`.  Descriptor slots are addressed by the 16-bit index
that heads, links and the checked used ids all have. -/
structure Virtqueue (α : Type*) where
  num : ℕ
  desc : BitVec 16 → VringDesc
  avail : VringAvail
  used : VringUsed
  freeHead : BitVec 16
  numFree : BitVec 16
  lastUsedIdx : BitVec 16
  cookies : BitVec 16 → Option α
  indirectTables : BitVec 16 → Option IndirectTable
  modern : Bool
  useEventIdx : Bool
  useIndirect : Bool

variable {α : Type*}

namespace Virtqueue

/-- `VirtQueue_Allocate` of a queue of `queueSize` entries, with the mode
flags `InitVirtIOSCSI` stores right after it.  The vring comes cleared. -/
def allocate (queueSize : ℕ) (modern useEventIdx useIndirect : Bool) :
    Virtqueue α where
  num := queueSize
  desc := fun i =>
    { addr := 0, len := 0, flags := 0
      next := if i.toNat < queueSize - 1 then i + 1 else 0 }
  avail := { flags := 0, idx := 0, ring := fun _ => 0 }
  used := { flags := 0, idx := 0, ring := fun _ => ⟨0, 0⟩ }
  freeHead := 0
  numFree := BitVec.ofNat 16 queueSize
  lastUsedIdx := 0
  cookies := fun _ => none
  indirectTables := fun _ => none
  modern := modern
  useEventIdx := useEventIdx
  useIndirect := useIndirect

/-- `used_event`, the word past `avail->ring[]`. -/
def usedEvent (vq : Virtqueue α) : BitVec 16 :=
  vr16 vq.modern (vq.avail.ring vq.num)

def setUsedEvent (vq : Virtqueue α) (event : BitVec 16) : Virtqueue α :=
  { vq with avail := { vq.avail with
      ring := Function.update vq.avail.ring vq.num (vr16 vq.modern event) } }

/-! ## Adding a buffer -/

/-- What Exec answers while `AddBuf` sets up an indirect table: the table's
address, the number of DMA entries, and the first physical address of the DMA
list when the list could be allocated. -/
structure IndirectEnv where
  itbl : Option ℕ
  itblEntries : ℕ
  itblDma : Option (BitVec 32)
deriving DecidableEq, Repr

/-- Exec memory and DMA calls that had an effect, in the order they are made;
the system objects are lists of DMA entries. -/
inductive ExecOp where
  | allocVec (virt size : ℕ)
  | freeVec (virt : ℕ)
  | startDMA (virt size : ℕ)
  | endDMA (virt size : ℕ)
  | allocSysObject (entries : ℕ)
  | freeSysObject (entries : ℕ)
deriving DecidableEq, Repr

structure AddBufResult (α : Type*) where
  rc : Int
  vq : Virtqueue α
  ops : List ExecOp

/-- Flags of segment `n`: WRITE for the device-writable ones, NEXT for all but
the last. -/
def segmentFlags (outNum total n : ℕ) : BitVec 16 :=
  (if outNum ≤ n then vringDescFWrite else 0) |||
    (if n < total - 1 then vringDescFNext else 0)

def indirectEntry (modern : Bool) (sg : ℕ → VringSg) (outNum total n : ℕ) :
    VringDesc where
  addr := vr64 modern ((sg n).addr.setWidth 64)
  len := vr32 modern (sg n).len
  flags := vr16 modern (segmentFlags outNum total n)
  next := vr16 modern (BitVec.ofNat 16 (n + 1))

def indirectEntries (modern : Bool) (sg : ℕ → VringSg) (outNum total : ℕ) :
    List VringDesc :=
  (List.range total).map (indirectEntry modern sg outNum total)

/-- Place `head` in the available ring and advance `avail->idx`. -/
def publish (vq : Virtqueue α) (head : BitVec 16) : Virtqueue α :=
  let availIdx := vr16 vq.modern vq.avail.idx
  { vq with avail := { vq.avail with
      ring := Function.update vq.avail.ring (availIdx.toNat % vq.num)
        (vr16 vq.modern head)
      idx := vr16 vq.modern (availIdx + 1) } }

/-- The direct loop from segment `n` on, at descriptor `idx`.  The free-list
link is read before the descriptor is overwritten; only the last segment
leaves its link in place and hands it on as the new `free_head`. -/
def writeChain (modern : Bool) (sg : ℕ → VringSg) (outNum total : ℕ) :
    ℕ → ℕ → BitVec 16 → (BitVec 16 → VringDesc) →
      (BitVec 16 → VringDesc) × BitVec 16
  | 0, _, idx, desc => (desc, idx)
  | left + 1, n, idx, desc =>
      let nextIdx := (desc idx).next
      let written : VringDesc :=
        { addr := vr64 modern ((sg n).addr.setWidth 64)
          len := vr32 modern (sg n).len
          flags := vr16 modern (segmentFlags outNum total n)
          next := if n < total - 1 then vr16 modern nextIdx else nextIdx }
      writeChain modern sg outNum total left (n + 1) nextIdx
        (Function.update desc idx written)

def addBufDirect (vq : Virtqueue α) (sg : ℕ → VringSg) (outNum total : ℕ)
    (cookie : α) : Virtqueue α :=
  let head := vq.freeHead
  let written := writeChain vq.modern sg outNum total total 0 head vq.desc
  publish
    { vq with
      desc := written.1
      freeHead := written.2
      numFree := vq.numFree - BitVec.ofNat 16 total
      cookies := Function.update vq.cookies head (some cookie)
      indirectTables := Function.update vq.indirectTables head none } head

def addBufIndirect (vq : Virtqueue α) (sg : ℕ → VringSg) (outNum total : ℕ)
    (cookie : α) (virt : ℕ) (phys : BitVec 32) : Virtqueue α :=
  let head := vq.freeHead
  let nextHead := (vq.desc head).next
  publish
    { vq with
      desc := Function.update vq.desc head
        { addr := vr64 vq.modern (phys.setWidth 64)
          len := vr32 vq.modern (BitVec.ofNat 32 (16 * total))
          flags := vr16 vq.modern vringDescFIndirect
          next := 0 }
      freeHead := nextHead
      numFree := vq.numFree - 1
      cookies := Function.update vq.cookies head (some cookie)
      indirectTables := Function.update vq.indirectTables head
        (some ⟨virt, indirectEntries vq.modern sg outNum total⟩) } head

/-- The direct path, when the free list has room for the whole chain. -/
def addBufFallback (vq : Virtqueue α) (sg : ℕ → VringSg) (outNum total : ℕ)
    (cookie : α) (ops : List ExecOp) : AddBufResult α :=
  if vq.numFree.toNat < total then ⟨-1, vq, ops⟩
  else ⟨0, addBufDirect vq sg outNum total cookie, ops⟩

def addBuf (vq : Virtqueue α) (sg : ℕ → VringSg) (outNum inNum : ℕ)
    (cookie : α) (env : IndirectEnv) : AddBufResult α :=
  let total := outNum + inNum
  let size := 16 * total
  if vq.useIndirect && decide (1 < total) then
    if vq.numFree.toNat < 1 then ⟨-1, vq, []⟩
    else
      match env.itbl with
      | none => addBufFallback vq sg outNum total cookie []
      | some virt =>
          if 0 < env.itblEntries then
            match env.itblDma with
            | some phys =>
                ⟨0, addBufIndirect vq sg outNum total cookie virt phys,
                  [.allocVec virt size, .startDMA virt size,
                    .allocSysObject env.itblEntries,
                    .freeSysObject env.itblEntries]⟩
            | none =>
                addBufFallback vq sg outNum total cookie
                  [.allocVec virt size, .startDMA virt size,
                    .endDMA virt size, .freeVec virt]
          else
            addBufFallback vq sg outNum total cookie
              [.allocVec virt size, .freeVec virt]
  else addBufFallback vq sg outNum total cookie []

/-! ## Taking a completion -/

structure GetBufResult (α : Type*) where
  cookie : Option α
  written : Option (BitVec 32)
  vq : Virtqueue α
  ops : List ExecOp

/-- The chain walk of `GetBuf`: every descriptor is cleared and pushed on the
free list before the next one is visited. -/
def freeChain (modern : Bool) : ℕ → BitVec 16 → (BitVec 16 → VringDesc) →
    BitVec 16 → ℕ → Option ((BitVec 16 → VringDesc) × BitVec 16 × ℕ)
  | 0, _, _, _, _ => none
  | fuel + 1, idx, desc, freeHead, freed =>
      let next := vr16 modern (desc idx).next
      let hasNext := vr16 modern (desc idx).flags &&& vringDescFNext
      let desc' := Function.update desc idx
        { addr := 0, len := 0, flags := 0, next := freeHead }
      if hasNext = 0 then some (desc', idx, freed + 1)
      else freeChain modern fuel next desc' idx (freed + 1)

/-- The walk visits no descriptor index twice with NEXT still set, so one
visit for each 16-bit index and one more is never exceeded. -/
def walkBound : ℕ := 2 ^ 16 + 1

/-- The bookkeeping after the descriptors are back on the free list: count
them, advance `last_used_idx`, and ask for an interrupt on the next
completion. -/
def finishGetBuf (vq : Virtqueue α) (desc : BitVec 16 → VringDesc)
    (freeHead : BitVec 16) (freed : ℕ) : Virtqueue α :=
  let vq' : Virtqueue α :=
    { vq with
      desc := desc
      freeHead := freeHead
      numFree := vq.numFree + BitVec.ofNat 16 freed
      lastUsedIdx := vq.lastUsedIdx + 1 }
  if vq.useEventIdx then vq'.setUsedEvent vq'.lastUsedIdx else vq'

/-- `VirtQueue_GetBuf`; `none` only if the chain walk did not end. -/
def getBuf (vq : Virtqueue α) : Option (GetBufResult α) :=
  if vq.lastUsedIdx = vr16 vq.modern vq.used.idx then
    some ⟨none, none, vq, []⟩
  else
    let elem := vq.used.ring (vq.lastUsedIdx.toNat % vq.num)
    let descId := vr32 vq.modern elem.id
    let written := vr32 vq.modern elem.len
    if vq.num ≤ descId.toNat then
      -- The id comes from the device: drop the entry, report nothing usable.
      some ⟨none, none, { vq with lastUsedIdx := vq.lastUsedIdx + 1 }, []⟩
    else
      let idx : BitVec 16 := descId.setWidth 16
      let cookie := vq.cookies idx
      let itblVirt := vq.indirectTables idx
      let vq' : Virtqueue α :=
        { vq with
          cookies := Function.update vq.cookies idx none
          indirectTables := Function.update vq.indirectTables idx none }
      match itblVirt with
      | some itbl =>
          let itblSize := (vr32 vq.modern (vq.desc idx).len).toNat
          let desc := Function.update vq.desc idx
            { addr := 0, len := 0, flags := 0, next := vq.freeHead }
          some ⟨cookie, some written, finishGetBuf vq' desc idx 1,
            [.endDMA itbl.virt itblSize, .freeVec itbl.virt]⟩
      | none =>
          (freeChain vq.modern walkBound idx vq.desc vq.freeHead 0).map
            fun (desc, freeHead, freed) =>
              ⟨cookie, some written, finishGetBuf vq' desc freeHead freed, []⟩

end Virtqueue

end VirtioScsi
