import VirtioScsi.DeviceView
import VirtioScsi.TransferPaths
import VirtioScsi.UnitDma

/-!
# Physical addresses handed to the device

`GetDMAList` describes a buffer by any number of physical ranges.  The bounce
buffers, the indirect tables and the vrings are handed to the device by the
address of the first one and their full length, so the device reaches the
buffer exactly if the others follow behind it.
-/

namespace VirtioScsi

open Virtqueue

/-- Bytes of a buffer by the physical address the device gets for them; they
begin at `offset` in the buffer. -/
structure PhysRange where
  addr : ℕ
  offset : ℕ
  len : ℕ
deriving DecidableEq, Repr

def segmentSize (entries : List VringSg) : ℕ :=
  (entries.map fun e => e.len.toNat).sum

namespace PhysRange

/-- The device finds every byte of the range where the DMA list has it. -/
def Follows (entries : List VringSg) (r : PhysRange) : Prop :=
  ∀ i < r.len, (segmentCells entries)[r.offset + i]? = some (r.addr + i)

/-- Every entry with a byte of the range starts as far from its address as in
the buffer. -/
def Joined (entries : List VringSg) (r : PhysRange) : Prop :=
  ∀ before e after, entries = before ++ e :: after → 0 < e.len.toNat →
    segmentSize before < r.offset + r.len →
    r.offset < segmentSize before + e.len.toNat → 0 < r.len →
    e.addr.toNat + r.offset = r.addr + segmentSize before

end PhysRange

theorem segmentSize_cons (e : VringSg) (entries : List VringSg) :
    segmentSize (e :: entries) = e.len.toNat + segmentSize entries := rfl

theorem segmentCells_length (entries : List VringSg) :
    (segmentCells entries).length = segmentSize entries := by
  induction entries with
  | nil => rfl
  | cons e entries ih =>
      have hsplit : segmentCells (e :: entries) = e.cells ++ segmentCells entries := rfl
      rw [hsplit, List.length_append, ih, segmentSize_cons, VringSg.cells,
        List.length_range']

theorem segmentCells_getElem? (before : List VringSg) (e : VringSg) (after : List VringSg)
    {i : ℕ} (hi : i < e.len.toNat) :
    (segmentCells (before ++ e :: after))[segmentSize before + i]? =
      some (e.addr.toNat + i) := by
  have hsplit : segmentCells (e :: after) = e.cells ++ segmentCells after := rfl
  have hcells : i < e.cells.length := by
    rw [VringSg.cells, List.length_range']
    exact hi
  rw [TransferLayout.segmentCells_append, ← segmentCells_length,
    List.getElem?_append_right (by omega), Nat.add_sub_cancel_left, hsplit, List.getElem?_append_left hcells]
  simp [VringSg.cells, hi]

theorem exists_segment {entries : List VringSg} {i : ℕ} (hi : i < segmentSize entries) :
    ∃ before e after, entries = before ++ e :: after ∧ segmentSize before ≤ i ∧
      i < segmentSize before + e.len.toNat := by
  induction entries generalizing i with
  | nil => exact absurd hi (Nat.not_lt_zero i)
  | cons e entries ih =>
      rw [segmentSize_cons] at hi
      by_cases hfirst : i < e.len.toNat
      · refine ⟨[], e, entries, rfl, Nat.zero_le i, ?_⟩
        have hzero : segmentSize [] = 0 := rfl
        omega
      · obtain ⟨before, e', after, rfl, hle, hlt⟩ := ih (show i - e.len.toNat < _ by omega)
        refine ⟨e :: before, e', after, rfl, ?_, ?_⟩
        · rw [segmentSize_cons]
          omega
        · rw [segmentSize_cons]
          omega

/-- The device reaches the buffer exactly if the entries it needs are joined. -/
theorem PhysRange.follows_iff {entries : List VringSg} {r : PhysRange}
    (hcovered : r.offset + r.len ≤ segmentSize entries) :
    r.Follows entries ↔ r.Joined entries := by
  constructor
  · intro h before e after hentries hpos hbelow habove hlen
    subst hentries
    -- The first byte that the entry and the range share.
    by_cases hstart : segmentSize before ≤ r.offset
    · have hfollows := h 0 hlen
      have hcell := segmentCells_getElem? before e after
        (show r.offset - segmentSize before < e.len.toNat by omega)
      rw [Nat.add_sub_cancel' hstart, ← Nat.add_zero r.offset, hfollows] at hcell
      have heq := Option.some.inj hcell
      omega
    · have hfollows := h (segmentSize before - r.offset) (by omega)
      have hcell := segmentCells_getElem? before e after hpos
      rw [Nat.add_sub_cancel' (by omega), ← Nat.add_zero (segmentSize before),
        hcell] at hfollows
      have heq := Option.some.inj hfollows
      omega
  · intro h i hi
    obtain ⟨before, e, after, hentries, hle, hlt⟩ :=
      exists_segment (show r.offset + i < segmentSize entries by omega)
    have hjoined := h before e after hentries (by omega) (by omega) (by omega) (by omega)
    have hcell := segmentCells_getElem? before e after
      (show r.offset + i - segmentSize before < e.len.toNat by omega)
    rw [Nat.add_sub_cancel' hle, ← hentries] at hcell
    rw [hcell]
    congr 1
    omega

/-! ## Bounce buffers -/

/-- A request of `Submit` on a slot, whose bounce buffer was allocated before. -/
structure BounceUse where
  slot : SlotDma
  env : SlotEnv
  ioData : ℕ
  ioLength : BitVec 32
  data : DataEnv

namespace BounceUse

/-- The bounce segment of the request, if there is one. -/
def ranges (b : BounceUse) : List PhysRange :=
  let run := b.slot.allocOneBounce b.env
  if run.ok then
    match submitData b.ioData b.ioLength
        { b.data with bouncePhys := run.state.bounceDmaPhys } with
    | some (.bounce sg) => [⟨sg.addr.toNat, 0, sg.len.toNat⟩]
    | _ => []
  else []

/-- Exec gives the buffer, and the request is small enough. -/
def Used (b : BounceUse) : Prop :=
  b.env.bounce.isSome ∧ b.env.bounceDma.list.isSome ∧ b.ioData ≠ 0 ∧
    0 < b.ioLength.toNat ∧ b.ioLength.toNat ≤ bounceBufSize

instance (b : BounceUse) : Decidable b.Used := inferInstanceAs (Decidable (_ ∧ _))

def wanted (b : BounceUse) (first : VringSg) : List PhysRange :=
  [⟨first.addr.toNat, 0, b.ioLength.toNat⟩]

theorem ranges_eq (b : BounceUse) :
    b.ranges = if b.Used then b.env.bounceDma.dma.head?.toList.flatMap b.wanted else [] := by
  obtain ⟨d, ⟨req, resp, reqDma, respDma, bounce, ⟨dma, list⟩, pool⟩, ioData, ioLength,
    data⟩ := b
  unfold ranges Used SlotDma.allocOneBounce submitData
  cases bounce with
  | none => simp
  | some bounce =>
  cases dma with
  | nil => simp
  | cons first rest =>
  cases list with
  | none => simp
  | some tmp =>
      dsimp only
      by_cases hsmall : ioData ≠ 0 ∧ 0 < ioLength.toNat ∧ ioLength.toNat ≤ bounceBufSize
      · simp [hsmall, wanted]
      · rw [if_neg hsmall]
        have hunused : ¬ ((some bounce).isSome = true ∧ (some tmp).isSome = true ∧
            ioData ≠ 0 ∧ 0 < ioLength.toNat ∧ ioLength.toNat ≤ bounceBufSize) :=
          fun h => hsmall h.2.2
        rw [if_pos rfl]
        cases (mapUserData ioData ioLength { data with bouncePhys := first.addr }).2 with
        | none => exact (if_neg hunused).symm
        | some m => exact (if_neg hunused).symm

end BounceUse

/-! ## Indirect tables -/

/-- A call of `AddBuf`, with the DMA list of the table. -/
structure TableUse where
  vq : Virtqueue ReqBuf
  sg : ℕ → VringSg
  outNum : ℕ
  inNum : ℕ
  cookie : ReqBuf
  itbl : Option ℕ
  dma : MapEnv

namespace TableUse

def total (t : TableUse) : ℕ := t.outNum + t.inNum

/-- Exec's answers as `AddBuf` uses them. -/
def exec (t : TableUse) : IndirectEnv :=
  ⟨t.itbl, t.dma.dma.length,
    if t.dma.list.isSome then t.dma.dma.head?.map VringSg.addr else none⟩

/-- The descriptor of the table, as the device reads it. -/
def ranges (t : TableUse) : List PhysRange :=
  let result := t.vq.addBuf t.sg t.outNum t.inNum t.cookie t.exec
  if result.rc = 0 ∧ (result.vq.indirectTables t.vq.freeHead).isSome then
    let d := deviceDesc result.vq.modern (result.vq.desc t.vq.freeHead)
    [⟨d.addr.toNat, 0, d.len.toNat⟩]
  else []

def Used (t : TableUse) : Prop :=
  t.vq.useIndirect = true ∧ 1 < t.total ∧ 1 ≤ t.vq.numFree.toNat ∧ t.itbl.isSome ∧
    t.dma.list.isSome

instance (t : TableUse) : Decidable t.Used := inferInstanceAs (Decidable (_ ∧ _))

def size (t : TableUse) : BitVec 32 := BitVec.ofNat 32 (16 * t.total)

def wanted (t : TableUse) (first : VringSg) : List PhysRange :=
  [⟨first.addr.toNat, 0, t.size.toNat⟩]

theorem fallback_ranges (t : TableUse) (total : ℕ) (ops : List ExecOp) :
    ¬ ((t.vq.addBufFallback t.sg t.outNum total t.cookie ops).rc = 0 ∧
      ((t.vq.addBufFallback t.sg t.outNum total t.cookie ops).vq.indirectTables
        t.vq.freeHead).isSome) := by
  unfold addBufFallback
  split_ifs
  · rintro ⟨hrc, -⟩
    exact absurd hrc (show (-1 : Int) ≠ 0 by decide)
  · rintro ⟨-, htable⟩
    have hnone : (addBufDirect t.vq t.sg t.outNum total t.cookie).indirectTables
        t.vq.freeHead = none := Function.update_self _ _ _
    rw [hnone] at htable
    cases htable

theorem ranges_eq (t : TableUse) :
    t.ranges = if t.Used then t.dma.dma.head?.toList.flatMap t.wanted else [] := by
  have hdirect : ∀ ops, (t.vq.addBuf t.sg t.outNum t.inNum t.cookie t.exec) =
      t.vq.addBufFallback t.sg t.outNum t.total t.cookie ops →
      t.ranges = [] := by
    intro ops heq
    unfold ranges
    dsimp only
    rw [heq, if_neg (t.fallback_ranges t.total ops)]
  by_cases hindirect : (t.vq.useIndirect && decide (1 < t.total)) = true
  case neg =>
    have hunused : ¬ t.Used := by
      rintro ⟨huse, hmany, -⟩
      exact hindirect (by simp [huse, hmany])
    rw [if_neg hunused]
    apply hdirect []
    unfold addBuf
    exact if_neg hindirect
  rw [Bool.and_eq_true, decide_eq_true_eq] at hindirect
  obtain ⟨huse, hmany⟩ := hindirect
  unfold total at hmany
  by_cases hroom : t.vq.numFree.toNat < 1
  · have hunused : ¬ t.Used := fun h => absurd hroom (Nat.not_lt.mpr h.2.2.1)
    rw [if_neg hunused]
    unfold ranges addBuf
    simp [huse, hmany, hroom]
  obtain ⟨vq, sg, outNum, inNum, cookie, itbl, ⟨dma, list⟩⟩ := t
  dsimp only at huse hmany hroom
  cases itbl with
  | none =>
      rw [if_neg fun h => Bool.false_ne_true h.2.2.2.1]
      apply hdirect []
      simp [addBuf, huse, hmany, hroom, exec, total]
  | some virt =>
  cases dma with
  | nil =>
      rw [List.head?_nil, Option.toList_none, List.flatMap_nil, ite_self]
      apply hdirect [.allocVec virt (16 * (outNum + inNum)), .freeVec virt]
      simp [addBuf, huse, hmany, hroom, exec, total]
  | cons first rest =>
  cases list with
  | none =>
      rw [if_neg fun h => Bool.false_ne_true h.2.2.2.2]
      apply hdirect [.allocVec virt (16 * (outNum + inNum)),
        .startDMA virt (16 * (outNum + inNum)), .endDMA virt (16 * (outNum + inNum)),
        .freeVec virt]
      simp [addBuf, huse, hmany, hroom, exec, total]
  | some tmp =>
      have hused : Used ⟨vq, sg, outNum, inNum, cookie, some virt, ⟨first :: rest, some tmp⟩⟩ :=
        ⟨huse, hmany, Nat.le_of_not_lt hroom, rfl, rfl⟩
      have hfits : first.addr.toNat < 2 ^ 64 := by
        have hlt := first.addr.isLt
        omega
      rw [if_pos hused]
      simpa [ranges, addBuf, huse, hmany, hroom, exec, total, size, wanted, addBufIndirect, publish,
        deviceDesc] using hfits

end TableUse

/-! ## Vrings -/

def vringDescSize (q : ℕ) : ℕ := 16 * q

def vringAvailSize (q : ℕ) : ℕ := 2 * (3 + q)

/-- The used ring begins at the next page. -/
def vringUsedOffset (q : ℕ) : ℕ :=
  (vringDescSize q + vringAvailSize q + 4095) / 4096 * 4096

def vringUsedSize (q : ℕ) : ℕ := 2 * 3 + 8 * q

def vringMemSize (q : ℕ) : ℕ := vringUsedOffset q + vringUsedSize q

/-- What the device is told about a queue: a page frame number, or the address
of each ring. -/
inductive QueueSetup where
  | legacy (pfn : BitVec 32)
  | modern (desc avail used : BitVec 32)
deriving DecidableEq, Repr

/-- A queue of `InitVirtIOSCSI` or `InitVirtIOSCSI_Modern`, with the DMA list of
its vring. -/
structure VringUse where
  modern : Bool
  queueSize : BitVec 16
  dma : MapEnv

namespace VringUse

def setup (v : VringUse) : Option QueueSetup :=
  match v.dma.dma, v.dma.list with
  | first :: _, some _ =>
      let phys := first.addr
      if v.modern then
        some (.modern phys (phys + BitVec.ofNat 32 (vringDescSize v.queueSize.toNat))
          (phys + BitVec.ofNat 32 (vringUsedOffset v.queueSize.toNat)))
      else some (.legacy (phys / 4096))
  | _, _ => none

/-- The rings of a queue, where the device looks for them. -/
def rings (q : ℕ) (desc avail used : ℕ) : List PhysRange :=
  [⟨desc, 0, vringDescSize q⟩, ⟨avail, vringDescSize q, vringAvailSize q⟩,
    ⟨used, vringUsedOffset q, vringUsedSize q⟩]

def ranges (v : VringUse) : List PhysRange :=
  match v.setup with
  | some (.modern desc avail used) =>
      rings v.queueSize.toNat desc.toNat avail.toNat used.toNat
  | some (.legacy pfn) =>
      -- A legacy device has the layout formula and the page.
      let q := v.queueSize.toNat
      let base := pfn.toNat * 4096
      rings q base (base + vringDescSize q) (base + vringUsedOffset q)
  | none => []

def Used (v : VringUse) : Prop := v.dma.list.isSome

instance (v : VringUse) : Decidable v.Used := inferInstanceAs (Decidable (_ = _))

/-- The rings behind the first entry; a legacy device begins at its page. -/
def wanted (v : VringUse) (first : VringSg) : List PhysRange :=
  let q := v.queueSize.toNat
  if v.modern then
    rings q first.addr.toNat (first.addr + BitVec.ofNat 32 (vringDescSize q)).toNat
      (first.addr + BitVec.ofNat 32 (vringUsedOffset q)).toNat
  else
    let base := first.addr.toNat / 4096 * 4096
    rings q base (base + vringDescSize q) (base + vringUsedOffset q)

theorem ranges_eq (v : VringUse) :
    v.ranges = if v.Used then v.dma.dma.head?.toList.flatMap v.wanted else [] := by
  obtain ⟨modern, queueSize, ⟨dma, list⟩⟩ := v
  unfold ranges setup Used wanted
  cases dma with
  | nil => simp
  | cons first rest =>
  cases list with
  | none => simp
  | some tmp =>
  cases modern with
  | true => simp
  | false => simp [BitVec.toNat_udiv]

theorem rings_covered {q desc avail used : ℕ} {r : PhysRange}
    (hr : r ∈ rings q desc avail used) : r.offset + r.len ≤ vringMemSize q := by
  have hused : vringDescSize q + vringAvailSize q ≤ vringUsedOffset q := by
    unfold vringUsedOffset
    omega
  unfold rings at hr
  unfold vringMemSize
  simp only [List.mem_cons, List.not_mem_nil, or_false] at hr
  rcases hr with rfl | rfl | rfl
  · dsimp only
    omega
  · dsimp only
    omega
  · exact le_rfl

end VringUse

/-! ## All uses -/

/-- The buffers that are handed out by the first entry of their DMA list. -/
inductive DmaUse where
  | bounce (b : BounceUse)
  | table (t : TableUse)
  | vring (v : VringUse)

namespace DmaUse

def entries : DmaUse → List VringSg
  | bounce b => b.env.bounceDma.dma
  | table t => t.dma.dma
  | vring v => v.dma.dma

def size : DmaUse → ℕ
  | bounce _ => bounceBufSize
  | table t => t.size.toNat
  | vring v => vringMemSize v.queueSize.toNat

def ranges : DmaUse → List PhysRange
  | bounce b => b.ranges
  | table t => t.ranges
  | vring v => v.ranges

/-- Exec and the caller leave nothing for the driver to refuse. -/
def Used : DmaUse → Prop
  | bounce b => b.Used
  | table t => t.Used
  | vring v => v.Used

def wanted (first : VringSg) : DmaUse → List PhysRange
  | bounce b => b.wanted first
  | table t => t.wanted first
  | vring v => v.wanted first

theorem mem_ranges (u : DmaUse) (r : PhysRange) :
    r ∈ u.ranges ↔ u.Used ∧ ∃ first, u.entries.head? = some first ∧ r ∈ u.wanted first := by
  have hmem : ∀ {P : Prop} [Decidable P] (head : Option VringSg)
      (wanted : VringSg → List PhysRange),
      (r ∈ if P then head.toList.flatMap wanted else []) ↔
        P ∧ ∃ first, head = some first ∧ r ∈ wanted first := by
    intro P _ head wanted
    by_cases hP : P
    · rw [if_pos hP, List.mem_flatMap]
      simp only [Option.mem_toList, hP, true_and]
    · simp [hP]
  cases u with
  | bounce b =>
      rw [ranges, b.ranges_eq]
      exact hmem _ _
  | table t =>
      rw [ranges, t.ranges_eq]
      exact hmem _ _
  | vring v =>
      rw [ranges, v.ranges_eq]
      exact hmem _ _

theorem wanted_covered {u : DmaUse} {first : VringSg} {r : PhysRange} (hused : u.Used)
    (hr : r ∈ u.wanted first) : r.offset + r.len ≤ u.size := by
  cases u with
  | bounce b =>
      rw [List.mem_singleton.mp hr]
      exact (Nat.zero_add _).le.trans hused.2.2.2.2
  | table t =>
      rw [List.mem_singleton.mp hr]
      exact (Nat.zero_add _).le
  | vring v =>
      unfold wanted VringUse.wanted at hr
      dsimp only at hr
      split_ifs at hr
      · exact VringUse.rings_covered hr
      · exact VringUse.rings_covered hr

/-- The device is given addresses of the buffer and nothing else. -/
def Confined (u : DmaUse) : Prop := ∀ r ∈ u.ranges, r.Follows u.entries

/-- The device reaches nothing but the buffer exactly if the driver does not use
it, or all the entries a range needs follow the first one in physical memory. -/
theorem confined_iff (u : DmaUse)
    (hcovers : u.entries ≠ [] → segmentSize u.entries = u.size) :
    u.Confined ↔
      (u.Used → ∀ first, u.entries.head? = some first →
        ∀ r ∈ u.wanted first, r.Joined u.entries) := by
  have hrange : u.Used → ∀ first, u.entries.head? = some first → ∀ r ∈ u.wanted first,
      (r.Follows u.entries ↔ r.Joined u.entries) := by
    intro hused first hfirst r hr
    apply PhysRange.follows_iff
    rw [hcovers (by rintro hnil; rw [hnil] at hfirst; cases hfirst)]
    exact wanted_covered hused hr
  constructor
  · intro h hused first hfirst r hr
    exact (hrange hused first hfirst r hr).mp
      (h r ((u.mem_ranges r).mpr ⟨hused, first, hfirst, hr⟩))
  · intro h r hr
    obtain ⟨hused, first, hfirst, hr⟩ := (u.mem_ranges r).mp hr
    exact (hrange hused first hfirst r hr).mpr (h hused first hfirst r hr)

end DmaUse

section Sample

/-- A write of 8192 bytes through a bounce buffer of two pieces. -/
def sampleBounce : BounceUse where
  slot := .blank 0
  env := {
    req := none, resp := none, reqDma := ⟨[], none⟩, respDma := ⟨[], none⟩
    bounce := some 0x8000
    bounceDma := ⟨[⟨0x100000, 4096⟩, ⟨0x300000, 61440⟩], some 0x500⟩
    pool := none }
  ioData := 0x4000
  ioLength := 8192
  data := ⟨[], true, 0, false⟩

theorem confined_iff_sampleBounce :
    (DmaUse.bounce sampleBounce).Confined ↔
      ((DmaUse.bounce sampleBounce).Used → ∀ first,
        (DmaUse.bounce sampleBounce).entries.head? = some first →
          ∀ r ∈ (DmaUse.bounce sampleBounce).wanted first,
            r.Joined (DmaUse.bounce sampleBounce).entries) :=
  (DmaUse.bounce sampleBounce).confined_iff fun _ => rfl

/-- The device reads the second page from 0x101000, which is not the buffer's. -/
theorem confined_fails_sampleBounce : ¬ (DmaUse.bounce sampleBounce).Confined := by
  intro h
  have hrange : (⟨0x100000, 0, 8192⟩ : PhysRange) ∈ (DmaUse.bounce sampleBounce).ranges := by
    decide
  have hfollows := h _ hrange 4096 (by decide)
  have hcell := segmentCells_getElem? [⟨0x100000, 4096⟩] ⟨0x300000, 61440⟩ [] (i := 0)
    (by decide)
  have heq := hfollows.symm.trans hcell
  revert heq
  decide

end Sample

end VirtioScsi
