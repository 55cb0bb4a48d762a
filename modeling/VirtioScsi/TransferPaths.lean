import VirtioScsi.CellMemory
import VirtioScsi.DoioAttempts
import VirtioScsi.SgArray

/-!
# Bounce buffer and direct transfer

`VirtIOSCSI_Submit` sends the data of a request through the bounce buffer of
its slot or from the client's own memory, and `complete_inflight_slot` copies a
bounced read back.  Both branches are run on one memory with one device, and
compared by what the client and the device see.
-/

namespace VirtioScsi

open Virtqueue CellMemory

/-! ## Cells of a transfer -/

def VringSg.cells (sg : VringSg) : List ℕ :=
  List.range' sg.addr.toNat sg.len.toNat

def segmentCells (segments : List VringSg) : List ℕ :=
  segments.flatMap VringSg.cells

def bufferCells (phys : ℕ → ℕ) (virt n : ℕ) : List ℕ :=
  (List.range n).map fun i => phys (virt + i)

/-- A request and its slot in memory: `phys` gives the physical address of a
virtual one.  `GetDMAList` cuts the buffer of the client into entries in order,
and those of the request and response buffers cover these; the bounce buffer is
contiguous and apart from the client's. -/
structure TransferLayout where
  phys : ℕ → ℕ
  ioData : ℕ
  ioLength : BitVec 32
  bounceBuf : ℕ
  slot : BlockEnv
  partitioned : slot.data.dma ≠ [] →
    segmentCells slot.data.dma = bufferCells phys ioData ioLength.toNat
  nodup : (bufferCells phys ioData ioLength.toNat).Nodup
  contiguous : ∀ i < bounceBufSize, phys (bounceBuf + i) = slot.data.bouncePhys.toNat + i
  apart : ∀ cell ∈ bufferCells phys ioData ioLength.toNat,
    cell ∉ bufferCells phys bounceBuf bounceBufSize
  reqCells : (segmentCells slot.reqDma).length = reqCmdSize
  respCells : (segmentCells slot.respDma).length = respCmdSize

/-! ## The two branches -/

inductive TransferPath where
  | bounce
  | direct
deriving DecidableEq, Repr

def TransferPath.data (path : TransferPath) (ioData : ℕ) (ioLength : BitVec 32)
    (env : DataEnv) : Option DataSegments :=
  if ioData ≠ 0 ∧ 0 < ioLength.toNat then
    match path with
    | .bounce =>
        if ioLength.toNat ≤ bounceBufSize then
          some (.bounce ⟨env.bouncePhys, ioLength⟩)
        else none
    | .direct =>
        if env.dma.length = 0 then none
        else if env.pool = false ∨ maxSgEntries < env.dma.length then none
        else some (.direct env.dma)
  else some (.direct [])

/-- The driver takes the bounce buffer for what fits and the DMA list otherwise. -/
theorem submitData_path (ioData : ℕ) (ioLength : BitVec 32) (env : DataEnv) :
    submitData ioData ioLength env =
      (if ioLength.toNat ≤ bounceBufSize then TransferPath.bounce else .direct).data
        ioData ioLength env := by
  unfold submitData mapUserData TransferPath.data
  by_cases hdata : ioData ≠ 0 ∧ 0 < ioLength.toNat
  · by_cases hsmall : ioLength.toNat ≤ bounceBufSize
    · simp [hdata, hsmall]
    · simp only [hdata, hsmall, ne_eq, not_false_eq_true, and_self, and_false, if_true,
        if_false]
      split_ifs
      · rfl
      · rfl
      · rfl
  · have hbounce : ¬ (ioData ≠ 0 ∧ 0 < ioLength.toNat ∧ ioLength.toNat ≤ bounceBufSize) :=
      fun h => hdata ⟨h.1, h.2.1⟩
    rw [if_neg hbounce, if_neg hbounce, if_neg hdata, if_neg hdata]
    rfl

def SgStores.array (s : SgStores) : SgList :=
  ⟨s.stores.map Prod.fst, s.outNum, s.inNum⟩

theorem SgStores.Fills.array_eq {s : SgStores} {sg : SgList} (h : s.Fills sg) :
    s.array = sg := by
  unfold array
  rw [h.stores, h.outNum, h.inNum, List.zipIdx_map_fst]

/-- `using_bounce`. -/
def DataSegments.usingBounce : DataSegments → Bool
  | .bounce _ => true
  | .direct _ => false

/-- What comes of a transfer: what the client is told, memory, and the data
the device read. -/
structure TransferOutcome where
  ioError : Int
  ioActual : BitVec 32
  mem : ℕ → BitVec 8
  deviceRead : List (BitVec 8)

namespace TransferLayout

def userCells (t : TransferLayout) (n : ℕ) : List ℕ :=
  bufferCells t.phys t.ioData n

def bounceCells (t : TransferLayout) (n : ℕ) : List ℕ :=
  bufferCells t.phys t.bounceBuf n

/-- A request on one of the branches, from `Submit` to the reply; `none` if it
is not accepted.  The device reads the data behind the request header,
answers, and writes data behind the response header. -/
def run (t : TransferLayout) (path : TransferPath) (isWrite : Bool)
    (device : List (BitVec 8) → Response × List (BitVec 8)) (mem : ℕ → BitVec 8) :
    Option TransferOutcome :=
  match path.data t.ioData t.ioLength t.slot.data with
  | none => none
  | some data =>
      let mem₁ :=
        if data.usingBounce && isWrite then
          copy mem (t.userCells t.ioLength.toNat) (t.bounceCells t.ioLength.toNat)
        else mem
      let sg := (submitSg isWrite t.slot.reqDma t.slot.respDma data).array
      if maxSgEntries < sg.outNum + sg.inNum then none
      else if (t.slot.vq.addBuf sg.get sg.outNum sg.inNum t.slot.buf t.slot.exec).rc ≠ 0 then
        none
      else
        let out := (segmentCells (sg.segments.take sg.outNum)).drop reqCmdSize
        let ins := (segmentCells (sg.segments.drop sg.outNum)).drop respCmdSize
        let answer := device (out.map mem₁)
        let mem₂ := write mem₁ ins answer.2
        let status := completionStatus t.slot.vq.modern answer.1 t.ioLength
        let mem₃ :=
          if data.usingBounce && !isWrite && decide (status.1 = 0) &&
              decide (0 < status.2.toNat) then
            copy mem₂ (t.bounceCells status.2.toNat) (t.userCells status.2.toNat)
          else mem₂
        some ⟨status.1, status.2, mem₃, out.map mem₁⟩

/-! ## What the branches amount to -/

theorem bufferCells_length (phys : ℕ → ℕ) (virt n : ℕ) :
    (bufferCells phys virt n).length = n := by
  simp [bufferCells]

theorem bufferCells_getElem (phys : ℕ → ℕ) (virt n i : ℕ)
    (hi : i < (bufferCells phys virt n).length) :
    (bufferCells phys virt n)[i] = phys (virt + i) := by
  simp [bufferCells]

theorem mem_bufferCells {phys : ℕ → ℕ} {virt n cell : ℕ} :
    cell ∈ bufferCells phys virt n ↔ ∃ i < n, phys (virt + i) = cell := by
  simp [bufferCells]

theorem bufferCells_mono {phys : ℕ → ℕ} {virt m n cell : ℕ} (hle : m ≤ n)
    (h : cell ∈ bufferCells phys virt m) : cell ∈ bufferCells phys virt n := by
  rw [mem_bufferCells] at h ⊢
  obtain ⟨i, hi, hcell⟩ := h
  exact ⟨i, hi.trans_le hle, hcell⟩

theorem segmentCells_append (l l' : List VringSg) :
    segmentCells (l ++ l') = segmentCells l ++ segmentCells l' :=
  List.flatMap_append

variable {t : TransferLayout} {data : DataSegments} {isWrite : Bool}

theorem bounceCells_eq (t : TransferLayout) {n : ℕ} (hn : n ≤ bounceBufSize) :
    t.bounceCells n = List.range' t.slot.data.bouncePhys.toNat n := by
  apply List.ext_getElem
  · simp [bounceCells, bufferCells_length]
  · intro i hi _
    unfold bounceCells at hi ⊢
    rw [bufferCells_length] at hi
    rw [bufferCells_getElem, t.contiguous i (hi.trans_le hn), List.getElem_range']
    omega

theorem bounceCells_nodup (t : TransferLayout) {n : ℕ} (hn : n ≤ bounceBufSize) :
    (t.bounceCells n).Nodup := by
  rw [bounceCells_eq t hn]
  exact List.nodup_range'

theorem userCells_nodup (t : TransferLayout) {n : ℕ} (hn : n ≤ t.ioLength.toNat) :
    (t.userCells n).Nodup := by
  have htake : t.userCells n = (t.userCells t.ioLength.toNat).take n := by
    simp only [userCells, bufferCells, ← List.map_take, List.take_range, min_eq_left hn]
  rw [htake]
  exact t.nodup.sublist (List.take_sublist n _)

/-- The bytes of the request: a NULL buffer has none. -/
def size (t : TransferLayout) : ℕ :=
  if t.ioData = 0 then 0 else t.ioLength.toNat

theorem size_le (t : TransferLayout) : t.size ≤ t.ioLength.toNat := by
  unfold size
  split_ifs
  · exact Nat.zero_le _
  · exact le_rfl

theorem size_eq_zero (h : ¬ (t.ioData ≠ 0 ∧ 0 < t.ioLength.toNat)) : t.size = 0 := by
  unfold size
  split_ifs with hnull
  · rfl
  · exact Nat.eq_zero_of_not_pos fun hpos => h ⟨hnull, hpos⟩

theorem bounce_data (h : TransferPath.bounce.data t.ioData t.ioLength t.slot.data = some data) :
    t.size ≤ bounceBufSize ∧ segmentCells data.toList = t.bounceCells t.size ∧
      data.usingBounce = decide (0 < t.size) := by
  unfold TransferPath.data at h
  by_cases hdata : t.ioData ≠ 0 ∧ 0 < t.ioLength.toNat
  · rw [if_pos hdata] at h
    dsimp only at h
    by_cases hsmall : t.ioLength.toNat ≤ bounceBufSize
    · rw [if_pos hsmall] at h
      cases h
      have hsize : t.size = t.ioLength.toNat := if_neg hdata.1
      rw [hsize, bounceCells_eq t hsmall]
      exact ⟨hsmall, by simp [segmentCells, DataSegments.toList, VringSg.cells],
        by simp [DataSegments.usingBounce, hdata.2]⟩
    · rw [if_neg hsmall] at h
      cases h
  · rw [if_neg hdata] at h
    cases h
    rw [size_eq_zero hdata]
    exact ⟨Nat.zero_le _, rfl, rfl⟩

theorem direct_data (h : TransferPath.direct.data t.ioData t.ioLength t.slot.data = some data) :
    segmentCells data.toList = t.userCells t.size ∧ data.usingBounce = false := by
  unfold TransferPath.data at h
  by_cases hdata : t.ioData ≠ 0 ∧ 0 < t.ioLength.toNat
  · rw [if_pos hdata] at h
    dsimp only at h
    split_ifs at h with hempty hpool
    cases h
    have hsize : t.size = t.ioLength.toNat := if_neg hdata.1
    rw [hsize]
    exact ⟨t.partitioned fun hnil => hempty (List.length_eq_zero_iff.mpr hnil), rfl⟩
  · rw [if_neg hdata] at h
    cases h
    rw [size_eq_zero hdata]
    exact ⟨rfl, rfl⟩

/-- A request with its data in place: on its way out the device reads the data,
on its way in it writes them. -/
def finish (t : TransferLayout) (data : DataSegments) (isWrite : Bool)
    (device : List (BitVec 8) → Response × List (BitVec 8)) (mem : ℕ → BitVec 8) :
    TransferOutcome :=
  let cells := segmentCells data.toList
  let mem₁ :=
    if data.usingBounce && isWrite then
      copy mem (t.userCells t.ioLength.toNat) (t.bounceCells t.ioLength.toNat)
    else mem
  let read := if isWrite then cells.map mem₁ else []
  let answer := device read
  let mem₂ := if isWrite then mem₁ else write mem₁ cells answer.2
  let status := completionStatus t.slot.vq.modern answer.1 t.ioLength
  let mem₃ :=
    if data.usingBounce && !isWrite && decide (status.1 = 0) &&
        decide (0 < status.2.toNat) then
      copy mem₂ (t.bounceCells status.2.toNat) (t.userCells status.2.toNat)
    else mem₂
  ⟨status.1, status.2, mem₃, read⟩

theorem outCells_eq (t : TransferLayout) (isWrite : Bool) (data : List VringSg) :
    let sg := buildSg isWrite t.slot.reqDma t.slot.respDma data
    (segmentCells (sg.segments.take sg.outNum)).drop reqCmdSize =
      if isWrite then segmentCells data else [] := by
  unfold buildSg
  cases isWrite with
  | false => simp [List.drop_eq_nil_of_le t.reqCells.le]
  | true =>
      simp only [if_true, List.take_left' List.length_append, segmentCells_append,
        List.drop_left' t.reqCells]

theorem inCells_eq (t : TransferLayout) (isWrite : Bool) (data : List VringSg) :
    let sg := buildSg isWrite t.slot.reqDma t.slot.respDma data
    (segmentCells (sg.segments.drop sg.outNum)).drop respCmdSize =
      if isWrite then [] else segmentCells data := by
  unfold buildSg
  cases isWrite with
  | false => simp [segmentCells_append, List.drop_left' t.respCells]
  | true =>
      simp only [if_true, List.drop_left' List.length_append]
      exact List.drop_eq_nil_of_le t.respCells.le

theorem run_finish {path : TransferPath}
    {device : List (BitVec 8) → Response × List (BitVec 8)} {mem : ℕ → BitVec 8}
    {o : TransferOutcome} (h : t.run path isWrite device mem = some o) :
    ∃ data, path.data t.ioData t.ioLength t.slot.data = some data ∧
      o = t.finish data isWrite device mem := by
  unfold run at h
  cases hdata : path.data t.ioData t.ioLength t.slot.data with
  | none =>
      rw [hdata] at h
      cases h
  | some data =>
      refine ⟨data, rfl, ?_⟩
      rw [hdata] at h
      dsimp only at h
      rw [(submitSg_fills isWrite t.slot.reqDma t.slot.respDma data).array_eq,
        outCells_eq, inCells_eq] at h
      by_cases hlong : maxSgEntries <
          (buildSg isWrite t.slot.reqDma t.slot.respDma data.toList).outNum +
            (buildSg isWrite t.slot.reqDma t.slot.respDma data.toList).inNum
      · rw [if_pos hlong] at h
        cases h
      rw [if_neg hlong, Option.ite_none_left_eq_some, Option.some.injEq] at h
      rw [← h.2]
      cases isWrite with
      | false => simp [finish]
      | true => simp [finish]

/-! ## The branches compared -/

theorem completionStatus_le (modern : Bool) (r : Response) (ioLength : BitVec 32) :
    (completionStatus modern r ioLength).2.toNat ≤ ioLength.toNat := by
  unfold completionStatus
  dsimp only
  split_ifs with herror hlarge
  · exact Nat.zero_le _
  · exact Nat.zero_le _
  · rw [BitVec.toNat_sub_of_le (BitVec.not_lt.mp hlarge)]
    exact Nat.sub_le _ _

variable {device : List (BitVec 8) → Response × List (BitVec 8)} {mem : ℕ → BitVec 8}

theorem size_pos_eq (h : 0 < t.size) : t.size = t.ioLength.toNat := by
  unfold size at h ⊢
  split_ifs at h ⊢ with hnull
  · exact absurd h (Nat.lt_irrefl 0)
  · rfl

theorem finish_write (t : TransferLayout) (data : DataSegments)
    (device : List (BitVec 8) → Response × List (BitVec 8)) (mem : ℕ → BitVec 8) :
    (t.finish data true device mem).mem =
      if data.usingBounce = true then
        copy mem (t.userCells t.ioLength.toNat) (t.bounceCells t.ioLength.toNat)
      else mem := by
  simp [finish]

theorem finish_read (t : TransferLayout) (data : DataSegments)
    (device : List (BitVec 8) → Response × List (BitVec 8)) (mem : ℕ → BitVec 8) :
    let o := t.finish data false device mem
    let filled := write mem (segmentCells data.toList) (device []).2
    o.mem =
      if data.usingBounce = true ∧ o.ioError = 0 ∧ 0 < o.ioActual.toNat then
        copy filled (t.bounceCells o.ioActual.toNat) (t.userCells o.ioActual.toNat)
      else filled := by
  simp [finish, and_assoc]

theorem finish_actual_le (t : TransferLayout) (data : DataSegments) (isWrite : Bool)
    (device : List (BitVec 8) → Response × List (BitVec 8)) (mem : ℕ → BitVec 8) :
    (t.finish data isWrite device mem).ioActual.toNat ≤ t.ioLength.toNat :=
  completionStatus_le _ _ _

theorem bounce_read
    (hdata : TransferPath.bounce.data t.ioData t.ioLength t.slot.data = some data) :
    (t.finish data true device mem).deviceRead = (t.userCells t.size).map mem := by
  obtain ⟨hfits, hcells, husing⟩ := bounce_data hdata
  unfold finish
  dsimp only
  rw [if_pos rfl, hcells, husing, Bool.and_true]
  by_cases hsize : 0 < t.size
  · have hlength := size_pos_eq hsize
    rw [hlength] at hfits hsize ⊢
    rw [if_pos (by simpa using hsize)]
    apply map_copy (t.bounceCells_nodup hfits)
    simp [userCells, bounceCells, bufferCells_length]
  · rw [Nat.eq_zero_of_not_pos hsize]
    rfl

theorem direct_read
    (hdata : TransferPath.direct.data t.ioData t.ioLength t.slot.data = some data) :
    (t.finish data true device mem).deviceRead = (t.userCells t.size).map mem := by
  obtain ⟨hcells, husing⟩ := direct_data hdata
  unfold finish
  dsimp only
  rw [if_pos rfl, hcells, husing]
  rfl

/-- The client and the device see the same on both branches; of a read, the
bytes before `written`. -/
structure Indistinguishable (t : TransferLayout) (isWrite : Bool) (mem : ℕ → BitVec 8)
    (written : ℕ) (b d : TransferOutcome) : Prop where
  ioError : b.ioError = d.ioError
  ioActual : b.ioActual = d.ioActual
  actual_le : b.ioActual.toNat ≤ t.ioLength.toNat
  delivered : isWrite = false → b.ioError = 0 →
    ∀ i < b.ioActual.toNat, i < written →
      b.mem (t.phys (t.ioData + i)) = d.mem (t.phys (t.ioData + i))
  bounceFrame : ∀ cell, cell ∉ t.userCells t.ioLength.toNat →
    cell ∉ t.bounceCells bounceBufSize → b.mem cell = mem cell
  directFrame : ∀ cell, cell ∉ t.userCells t.ioLength.toNat → d.mem cell = mem cell
  sent : isWrite = true → b.deviceRead = (t.userCells t.size).map mem ∧
    d.deviceRead = (t.userCells t.size).map mem

/-- A transfer through the bounce buffer changes no memory but its own. -/
theorem bounce_frame
    (hdata : TransferPath.bounce.data t.ioData t.ioLength t.slot.data = some data)
    {cell : ℕ} (huser : cell ∉ t.userCells t.ioLength.toNat)
    (hbounce : cell ∉ t.bounceCells bounceBufSize) :
    (t.finish data isWrite device mem).mem cell = mem cell := by
  obtain ⟨hfits, hcells, husing⟩ := bounce_data hdata
  have houtside : ∀ n ≤ bounceBufSize, cell ∉ t.bounceCells n :=
    fun n hn hmem => hbounce (bufferCells_mono hn hmem)
  cases isWrite with
  | true =>
      rw [finish_write, husing]
      split_ifs with hsize
      · rw [decide_eq_true_eq] at hsize
        rw [size_pos_eq hsize] at hfits
        exact copy_of_notMem (houtside _ hfits)
      · rfl
  | false =>
      rw [finish_read]
      have hwritten : write mem (segmentCells data.toList) (device []).2 cell = mem cell := by
        rw [hcells]
        exact write_of_notMem (houtside _ hfits)
      split_ifs
      · rw [copy_of_notMem, hwritten]
        intro hmem
        exact huser (bufferCells_mono (t.finish_actual_le data false device mem) hmem)
      · exact hwritten

/-- A direct transfer changes no memory but the caller's. -/
theorem direct_frame
    (hdata : TransferPath.direct.data t.ioData t.ioLength t.slot.data = some data)
    {cell : ℕ} (huser : cell ∉ t.userCells t.ioLength.toNat) :
    (t.finish data isWrite device mem).mem cell = mem cell := by
  obtain ⟨hcells, husing⟩ := direct_data hdata
  cases isWrite with
  | true =>
      rw [finish_write, husing]
      rfl
  | false =>
      rw [finish_read, husing, if_neg (by simp), hcells]
      apply write_of_notMem
      intro hmem
      exact huser (bufferCells_mono t.size_le hmem)

/-- Byte `i` of a successful read through the bounce buffer: what the device
wrote, or what the bounce buffer held before. -/
theorem bounce_delivered
    (hdata : TransferPath.bounce.data t.ioData t.ioLength t.slot.data = some data)
    (hsize : 0 < t.size) (hok : (t.finish data false device mem).ioError = 0) {i : ℕ}
    (hi : i < (t.finish data false device mem).ioActual.toNat) :
    (t.finish data false device mem).mem (t.phys (t.ioData + i)) =
      (device []).2[i]?.getD (mem (t.phys (t.bounceBuf + i))) := by
  obtain ⟨hfits, hcells, husing⟩ := bounce_data hdata
  have hactual := t.finish_actual_le data false device mem
  have hsizeEq := size_pos_eq hsize
  have hmem := t.finish_read data device mem
  dsimp only at hmem
  rw [if_pos ⟨by rw [husing]; exact decide_eq_true hsize, hok, by omega⟩] at hmem
  generalize (t.finish data false device mem).ioActual.toNat = n at hi hactual hmem
  rw [hmem, hcells]
  have hdst : i < (t.userCells n).length := by rwa [userCells, bufferCells_length]
  have hsrc : i < (t.bounceCells n).length := by rwa [bounceCells, bufferCells_length]
  have hcell : i < (t.bounceCells t.size).length := by
    rw [bounceCells, bufferCells_length]
    omega
  have hcopied := copy_getElem (write mem (t.bounceCells t.size) (device []).2)
    (t.userCells_nodup hactual) hdst hsrc
  have hwritten := write_getElem mem (device []).2
    (t.bounceCells_nodup hfits) hcell
  simp only [userCells, bounceCells, bufferCells_getElem] at hcopied hwritten ⊢
  rw [hcopied, hwritten]

theorem direct_delivered
    (hdata : TransferPath.direct.data t.ioData t.ioLength t.slot.data = some data)
    (hsize : 0 < t.size) {i : ℕ}
    (hi : i < (t.finish data false device mem).ioActual.toNat) :
    (t.finish data false device mem).mem (t.phys (t.ioData + i)) =
      (device []).2[i]?.getD (mem (t.phys (t.ioData + i))) := by
  obtain ⟨hcells, husing⟩ := direct_data hdata
  have hactual := t.finish_actual_le data false device mem
  have hsizeEq := size_pos_eq hsize
  have hmem := t.finish_read data device mem
  dsimp only at hmem
  rw [if_neg (by rw [husing]; simp)] at hmem
  rw [hmem, hcells]
  have hcell : i < (t.userCells t.size).length := by
    rw [userCells, bufferCells_length]
    omega
  have hwritten := write_getElem mem (device []).2
    (t.userCells_nodup t.size_le) hcell
  simp only [userCells, bufferCells_getElem] at hwritten ⊢
  exact hwritten

/-- A request both branches accept is the same to the client on either, but
for bytes of a read that the device did not write. -/
theorem transfer_indistinguishable (t : TransferLayout) (isWrite : Bool)
    (device : List (BitVec 8) → Response × List (BitVec 8)) (mem : ℕ → BitVec 8)
    {b d : TransferOutcome} (hbounce : t.run .bounce isWrite device mem = some b)
    (hdirect : t.run .direct isWrite device mem = some d) :
    t.Indistinguishable isWrite mem (device []).2.length b d := by
  obtain ⟨data, hdata, rfl⟩ := run_finish hbounce
  obtain ⟨data', hdata', rfl⟩ := run_finish hdirect
  have hread : (t.finish data isWrite device mem).deviceRead =
      (t.finish data' isWrite device mem).deviceRead := by
    cases isWrite with
    | true => rw [bounce_read hdata, direct_read hdata']
    | false => rfl
  have hstatus : ∀ data : DataSegments,
      ((t.finish data isWrite device mem).ioError, (t.finish data isWrite device mem).ioActual) =
        completionStatus t.slot.vq.modern
          (device (t.finish data isWrite device mem).deviceRead).1 t.ioLength :=
    fun _ => rfl
  have hsame := (hstatus data).trans (by rw [hread, ← hstatus data'])
  rw [Prod.mk.injEq] at hsame
  constructor
  · exact hsame.1
  · exact hsame.2
  · exact t.finish_actual_le data isWrite device mem
  · intro hkind hok i hi hwritten
    subst hkind
    by_cases hsize : 0 < t.size
    · have hi' : i < (t.finish data' false device mem).ioActual.toNat := by
        rwa [← hsame.2]
      rw [bounce_delivered hdata hsize hok hi, direct_delivered hdata' hsize hi',
        List.getElem?_eq_getElem hwritten]
      rfl
    · obtain ⟨-, hcells, husing⟩ := bounce_data hdata
      obtain ⟨hcells', husing'⟩ := direct_data hdata'
      rw [Nat.eq_zero_of_not_pos hsize] at hcells husing hcells'
      rw [finish_read, finish_read, husing, husing', if_neg (by simp), if_neg (by simp),
        hcells, hcells']
      rfl
  · intro cell huser hbuffer
    exact bounce_frame hdata huser hbuffer
  · intro cell huser
    exact direct_frame hdata' huser
  · intro hkind
    subst hkind
    exact ⟨bounce_read hdata, direct_read hdata'⟩

section Sample

/-- A client buffer of four bytes in two pieces. -/
def sampleLayout : TransferLayout where
  phys := id
  ioData := 0x4000
  ioLength := 4
  bounceBuf := 0x100000
  slot := { sampleBlockEnv with
    data := ⟨[⟨0x4000, 1⟩, ⟨0x4001, 3⟩], true, 0x100000, true⟩ }
  partitioned := fun _ => by decide
  nodup := by decide
  contiguous := fun i _ => rfl
  apart := by
    intro cell huser hbounce
    obtain ⟨i, hi, rfl⟩ := mem_bufferCells.mp huser
    obtain ⟨j, -, hsame⟩ := mem_bufferCells.mp hbounce
    simp only [id_eq, BitVec.reduceToNat] at hi hsame
    omega
  reqCells := by decide
  respCells := by decide

/-- Sevens in the bounce buffer, ones elsewhere. -/
def sampleMemory (cell : ℕ) : BitVec 8 :=
  if 0x100000 ≤ cell then 7 else 1

/-- A device that reports a full transfer and writes `data`. -/
def goodDevice (data : List (BitVec 8)) :
    List (BitVec 8) → Response × List (BitVec 8) :=
  fun _ => (⟨0, 0, 0, 0⟩, data)

/-- A four-byte read, over both paths, leaves the same bytes and the same reply. -/
theorem transfer_indistinguishable_sampleLayout :
    ∃ b d, sampleLayout.run .bounce false (goodDevice [1, 2, 3, 4]) sampleMemory = some b ∧
      sampleLayout.run .direct false (goodDevice [1, 2, 3, 4]) sampleMemory = some d ∧
      sampleLayout.Indistinguishable false sampleMemory 4 b d := by
  have hb : (sampleLayout.run .bounce false (goodDevice [1, 2, 3, 4])
      sampleMemory).isSome = true := by decide +kernel
  have hd : (sampleLayout.run .direct false (goodDevice [1, 2, 3, 4])
      sampleMemory).isSome = true := by decide +kernel
  obtain ⟨b, hbounce⟩ := Option.isSome_iff_exists.mp hb
  obtain ⟨d, hdirect⟩ := Option.isSome_iff_exists.mp hd
  exact ⟨b, d, hbounce, hdirect,
    transfer_indistinguishable sampleLayout false _ sampleMemory hbounce hdirect⟩

/-- If the device writes nothing, the bounce branch delivers old sevens. -/
theorem transfer_distinguishable_unwritten :
    ∃ b d, sampleLayout.run .bounce false (goodDevice []) sampleMemory = some b ∧
      sampleLayout.run .direct false (goodDevice []) sampleMemory = some d ∧
      ¬ sampleLayout.Indistinguishable false sampleMemory b.ioActual.toNat b d := by
  have hb : (sampleLayout.run .bounce false (goodDevice []) sampleMemory).map
      (fun o => (o.ioError, o.ioActual, o.mem 0x4000)) = some (0, 4, 7) := by
    decide +kernel
  have hd : (sampleLayout.run .direct false (goodDevice []) sampleMemory).map
      (fun o => o.mem 0x4000) = some 1 := by
    decide +kernel
  obtain ⟨b, hbounce, hseen⟩ := Option.map_eq_some_iff.mp hb
  obtain ⟨d, hdirect, hkept⟩ := Option.map_eq_some_iff.mp hd
  simp only [Prod.mk.injEq] at hseen
  obtain ⟨hok, hactual, hold⟩ := hseen
  refine ⟨b, d, hbounce, hdirect, ?_⟩
  intro hsame
  have hbytes := hsame.delivered rfl hok 0
  rw [hactual] at hbytes
  have hfirst : b.mem 0x4000 = d.mem 0x4000 := hbytes (by decide) (by decide)
  rw [hold, hkept] at hfirst
  exact absurd hfirst (by decide)

end Sample

end TransferLayout

end VirtioScsi
