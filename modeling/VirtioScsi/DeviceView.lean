import VirtioScsi.QueueRuns

/-!
# What the device reads

A reader that follows the descriptors of a head in the negotiated byte order,
through the descriptor table or through an indirect table in memory.  Whatever
path `AddBuf` took, it reads the scatter-gather list.
-/

namespace VirtioScsi

open LinkWalk

variable {α : Type*}

structure Segment where
  addr : BitVec 64
  len : BitVec 32
  writable : Bool
deriving DecidableEq, Repr

def deviceDesc (modern : Bool) (d : VringDesc) : VringDesc where
  addr := deviceLoad 8 modern d.addr
  len := deviceLoad 4 modern d.len
  flags := deviceLoad 2 modern d.flags
  next := deviceLoad 2 modern d.next

/-- Follow a chain in a table of `size` descriptors.  A link out of the table,
an indirect descriptor inside a chain, and a chain that does not end within
`fuel` descriptors are errors. -/
def readChain (modern : Bool) (table : BitVec 16 → VringDesc) (size : ℕ) :
    ℕ → BitVec 16 → Option (List Segment)
  | 0, _ => none
  | fuel + 1, idx =>
      let d := deviceDesc modern (table idx)
      let seg : Segment :=
        ⟨d.addr, d.len, decide (d.flags &&& vringDescFWrite ≠ 0)⟩
      if size ≤ idx.toNat then none
      else if d.flags &&& vringDescFIndirect ≠ 0 then none
      else if d.flags &&& vringDescFNext ≠ 0 then
        (readChain modern table size fuel d.next).map (seg :: ·)
      else some [seg]

/-- Read the buffers of `head`.  `mem` is the memory as descriptors by
physical address; an indirect table starts at its entry 0. -/
def readBuffers (modern : Bool) (table : BitVec 16 → VringDesc) (size : ℕ)
    (mem : BitVec 64 → VringDesc) (head : BitVec 16) : Option (List Segment) :=
  let d := deviceDesc modern (table head)
  if d.flags &&& vringDescFIndirect ≠ 0 then
    let entries := d.len.toNat / 16
    readChain modern (fun i => mem (d.addr + 16 * i.setWidth 64)) entries
      entries 0
  else readChain modern table size size head

/-- The head a device takes from the available ring at position `idx`. -/
def readHead (vq : Virtqueue α) (idx : BitVec 16) : BitVec 16 :=
  deviceLoad 2 vq.modern (vq.avail.ring (idx.toNat % vq.num))

def segment (sg : ℕ → VringSg) (outNum n : ℕ) : Segment :=
  ⟨(sg n).addr.setWidth 64, (sg n).len, decide (outNum ≤ n)⟩

section Reader

variable {modern : Bool} {table : BitVec 16 → VringDesc} {size fuel n : ℕ}
  {sg : ℕ → VringSg} {outNum total : ℕ} {idx : BitVec 16}
  {cells : List (BitVec 16)} {d : VringDesc}

theorem segmentFlags_and_write :
    Virtqueue.segmentFlags outNum total n &&& vringDescFWrite =
      if outNum ≤ n then vringDescFWrite else 0 := by
  unfold Virtqueue.segmentFlags
  by_cases hout : outNum ≤ n <;> by_cases hlast : n < total - 1 <;>
    simp only [hout, hlast, if_true, if_false] <;> decide

theorem segmentFlags_and_indirect :
    Virtqueue.segmentFlags outNum total n &&& vringDescFIndirect = 0 := by
  unfold Virtqueue.segmentFlags
  by_cases hout : outNum ≤ n <;> by_cases hlast : n < total - 1 <;>
    simp only [hout, hlast, if_true, if_false] <;> decide

theorem Carries.flags_eq (hd : Carries modern sg outNum total n d) :
    (deviceDesc modern d).flags = Virtqueue.segmentFlags outNum total n := by
  simp [deviceDesc, hd.flags]

theorem Carries.segment_eq (hd : Carries modern sg outNum total n d) :
    (⟨(deviceDesc modern d).addr, (deviceDesc modern d).len,
      decide ((deviceDesc modern d).flags &&& vringDescFWrite ≠ 0)⟩ : Segment) =
      segment sg outNum n := by
  have hwrite : ¬ vringDescFWrite = 0#16 := by decide
  rw [hd.flags_eq, segmentFlags_and_write]
  simp only [deviceDesc, deviceLoad_eight, deviceLoad_four, hd.addr, hd.len,
    vr64_vr64, vr32_vr32, segment]
  by_cases hout : outNum ≤ n
  · simp [hout, hwrite]
  · simp [hout]

/-- Reading a chain that carries the list from segment `n` on gives that part
of the list, and stops. -/
theorem readChain_of_walk
    (hwalk : Walk (chainLink modern table) some (some idx) cells none)
    (hin : ∀ i ∈ cells, i.toNat < size)
    (hcarries : ∀ j (hj : j < cells.length),
      Carries modern sg outNum total (n + j) (table cells[j]))
    (hfuel : cells.length ≤ fuel) :
    readChain modern table size fuel idx =
      some ((List.range' n cells.length).map (segment sg outNum)) := by
  induction cells generalizing n idx fuel with
  | nil => exact absurd hwalk (by simp)
  | cons a cells ih =>
      obtain ⟨hidx, hrest⟩ := hwalk
      have hidx : idx = a := Option.some.inj hidx
      subst hidx
      cases fuel with
      | zero => simp at hfuel
      | succ fuel =>
          have hd : Carries modern sg outNum total n (table idx) :=
            hcarries 0 (by simp)
          have hvalid : ¬ size ≤ idx.toNat :=
            Nat.not_le.mpr (hin idx List.mem_cons_self)
          have hindirect : (deviceDesc modern (table idx)).flags &&&
              vringDescFIndirect = 0 := by
            rw [hd.flags_eq]
            exact segmentFlags_and_indirect
          have hnext : (deviceDesc modern (table idx)).flags &&& vringDescFNext =
              vr16 modern (table idx).flags &&& vringDescFNext := by
            simp [deviceDesc]
          simp only [readChain, hvalid, if_false, hindirect, ne_eq,
            not_true_eq_false, hd.segment_eq, hnext]
          rw [List.length_cons, List.range'_succ, List.map_cons]
          unfold chainLink at hrest
          by_cases hlast : vr16 modern (table idx).flags &&& vringDescFNext = 0
          · rw [if_pos hlast] at hrest
            cases cells with
            | nil => simp [hlast]
            | cons b cells => exact absurd hrest.1 (by simp)
          · rw [if_neg hlast] at hrest
            have hlink : (deviceDesc modern (table idx)).next =
                vr16 modern (table idx).next := by
              simp [deviceDesc]
            have htail := @ih fuel (n + 1) _ hrest
              (fun i hi => hin i (List.mem_cons_of_mem _ hi))
              (by
                intro j hj
                have hnth := hcarries (j + 1) (by simpa using hj)
                rw [List.getElem_cons_succ,
                  show n + (j + 1) = n + 1 + j by omega] at hnth
                exact hnth)
              (by simpa using hfuel)
            rw [if_pos hlast, hlink, htail]
            rfl

/-- A device that follows a linked chain reads the segments of its cells in order. -/
theorem readBuffers_of_walk {mem : BitVec 64 → VringDesc}
    (hwalk : Walk (chainLink modern table) some (some idx) cells none)
    (hin : ∀ i ∈ cells, i.toNat < size)
    (hcarries : ∀ j (hj : j < cells.length),
      Carries modern sg outNum total j (table cells[j]))
    (hfuel : cells.length ≤ size) :
    readBuffers modern table size mem idx =
      some ((List.range cells.length).map (segment sg outNum)) := by
  have hhead : (deviceDesc modern (table idx)).flags &&& vringDescFIndirect = 0 := by
    cases cells with
    | nil => exact absurd hwalk (by simp)
    | cons a cells =>
        rw [Option.some.inj hwalk.1]
        have hd := hcarries 0 (by simp)
        rw [List.getElem_cons_zero] at hd
        rw [hd.flags_eq]
        exact segmentFlags_and_indirect
  unfold readBuffers
  simp only [hhead, ne_eq, not_true_eq_false, if_false]
  rw [List.range_eq_range']
  exact readChain_of_walk hwalk hin
    (fun j hj => by rw [Nat.zero_add]; exact hcarries j hj) hfuel

theorem indirectEntries_walk
    (htable : ∀ i (hi : i < (Virtqueue.indirectEntries modern sg outNum
      total).length), table (BitVec.ofNat 16 i) =
        (Virtqueue.indirectEntries modern sg outNum total)[i])
    (htotal : total ≤ 2 ^ 15) {k left : ℕ} (hleft : k + (left + 1) = total) :
    Walk (chainLink modern table) some (some (BitVec.ofNat 16 k))
      ((List.range' k (left + 1)).map (BitVec.ofNat 16)) none := by
  have hentry : ∀ i, i < total → table (BitVec.ofNat 16 i) =
      Virtqueue.indirectEntry modern sg outNum total i := by
    intro i hi
    have hlen : i < (Virtqueue.indirectEntries modern sg outNum total).length := by
      simpa [Virtqueue.indirectEntries] using hi
    rw [htable i hlen]
    simp [Virtqueue.indirectEntries]
  induction left generalizing k with
  | zero =>
      refine ⟨rfl, ?_⟩
      have hlast : ¬ k < total - 1 := by omega
      unfold chainLink
      rw [hentry k (by omega)]
      simp only [Virtqueue.indirectEntry, vr16_vr16, segmentFlags_and_next,
        hlast, if_false, if_true]
      rfl
  | succ left ih =>
      rw [List.range'_succ, List.map_cons]
      refine ⟨rfl, ?_⟩
      have hmore : k < total - 1 := by omega
      have hne : vringDescFNext ≠ 0 := by decide
      have hlink : chainLink modern table (BitVec.ofNat 16 k) =
          some (BitVec.ofNat 16 (k + 1)) := by
        unfold chainLink
        rw [hentry k (by omega)]
        simp only [Virtqueue.indirectEntry, vr16_vr16, segmentFlags_and_next,
          hmore, if_true, hne, if_false]
      rw [hlink]
      exact ih (by omega)

end Reader

namespace Virtqueue

variable {vq : Virtqueue α} {cells rest : List (BitVec 16)}
  {chain : BitVec 16 → List (BitVec 16)} {cookie : α} {sg : ℕ → VringSg}
  {outNum total : ℕ} {mem : BitVec 64 → VringDesc}

/-- A direct chain reads back as the segments it was given. -/
theorem Conserved.readBuffers_direct
    (hc : vq.Conserved (cells ++ rest) chain) (hcells : cells ≠ []) :
    let vq' := vq.addBufDirect sg outNum cells.length cookie
    readBuffers vq.modern vq'.desc vq.num mem vq.freeHead =
      some ((List.range cells.length).map (segment sg outNum)) := by
  obtain ⟨after, hwalk⟩ := hc.freeWalk
  obtain ⟨mid, hfirst, -⟩ := walk_append.mp hwalk
  have hnodup : cells.Nodup :=
    (List.nodup_append.mp (List.nodup_append.mp hc.nodup).1).1
  obtain ⟨-, -, hcarries, hchain⟩ :=
    @writeChain_spec vq.modern sg outNum cells.length 0 _ _ _ _ hfirst hnodup
      (Nat.zero_add _)
  have hin : ∀ i ∈ cells, i.toNat < vq.num := by
    intro i hi
    rw [← mem_descriptors hc.size_le_range, ← hc.partition.mem_iff]
    exact List.mem_append_left _ (List.mem_append_left _ hi)
  have hlen : cells.length ≤ vq.num := by
    have hall := hc.partition.length_eq
    rw [List.length_append, List.length_append, descriptors_length] at hall
    omega
  have hcarries' : ∀ j (hj : j < cells.length), Carries vq.modern sg outNum
      cells.length j ((writeChain vq.modern sg outNum cells.length cells.length
        0 vq.freeHead vq.desc).1 cells[j]) := by
    intro j hj
    have hj' := hcarries j hj
    rwa [Nat.zero_add] at hj'
  exact readBuffers_of_walk (hchain hcells) hin hcarries' hlen

/-- An indirect table reads back as the segments it was given. -/
theorem readBuffers_indirect {virt : ℕ} {phys : BitVec 32}
    (hpos : 1 ≤ total) (htotal : total ≤ maxSgEntries)
    (hmem : ∀ i (hi : i < (indirectEntries vq.modern sg outNum total).length),
      mem (phys.setWidth 64 + 16 * BitVec.ofNat 64 i) =
        (indirectEntries vq.modern sg outNum total)[i]) :
    let vq' := vq.addBufIndirect sg outNum total cookie virt phys
    readBuffers vq.modern vq'.desc vq.num mem vq.freeHead =
      some ((List.range total).map (segment sg outNum)) := by
  unfold maxSgEntries at htotal
  intro vq'
  have hdesc : deviceDesc vq.modern (vq'.desc vq.freeHead) =
      { addr := phys.setWidth 64, len := BitVec.ofNat 32 (16 * total)
        flags := vringDescFIndirect, next := deviceLoad 2 vq.modern 0 } := by
    simp [vq', addBufIndirect, publish, deviceDesc]
  have hflag : vringDescFIndirect &&& vringDescFIndirect ≠ 0 := by decide
  have hentries : (BitVec.ofNat 32 (16 * total)).toNat / 16 = total := by
    rw [BitVec.toNat_ofNat]
    omega
  unfold readBuffers
  simp only [hdesc, hflag, ne_eq, not_false_eq_true, if_true, hentries]
  set table : BitVec 16 → VringDesc := fun i =>
    mem (phys.setWidth 64 + 16 * i.setWidth 64) with htable
  have hcell : ∀ i (hi : i < (indirectEntries vq.modern sg outNum total).length),
      table (BitVec.ofNat 16 i) =
        (indirectEntries vq.modern sg outNum total)[i] := by
    intro i hi
    have hlt : i < total := by simpa [indirectEntries] using hi
    have hwide : (BitVec.ofNat 16 i).setWidth 64 = BitVec.ofNat 64 i := by
      apply BitVec.eq_of_toNat_eq
      simp only [BitVec.toNat_setWidth, BitVec.toNat_ofNat]
      omega
    rw [← hmem i hi, htable]
    simp only [hwide]
  obtain ⟨left, hleft⟩ : ∃ left, total = left + 1 := ⟨total - 1, by omega⟩
  have hwalk := indirectEntries_walk hcell (by omega)
    (show 0 + (left + 1) = total by omega)
  rw [← hleft, ← List.range_eq_range'] at hwalk
  have hread := @readChain_of_walk vq.modern table total total 0 sg outNum
    total 0 _ hwalk ?_ ?_ (by simp)
  · rw [hread]
    simp [List.range_eq_range']
  · intro i hi
    obtain ⟨k, hk, rfl⟩ := List.mem_map.mp hi
    rw [List.mem_range] at hk
    rw [BitVec.toNat_ofNat]
    omega
  · intro j hj
    have hj' : j < total := by simpa using hj
    have hlen : j < (indirectEntries vq.modern sg outNum total).length := by
      simpa [indirectEntries] using hj'
    rw [List.getElem_map, List.getElem_range, hcell j hlen, Nat.zero_add]
    simp only [indirectEntries, List.getElem_map, List.getElem_range]
    exact ⟨rfl, rfl, rfl⟩

end Virtqueue

namespace RequestQueue

/-- After every run, on every path of a successful `AddBuf`, the device reads
the scatter-gather list from the head it finds in the available ring.  The
hypothesis on `mem` says that an indirect table is contiguous at the address
the driver stored. -/
theorem device_reads_segments {j : ℕ} {modern useEventIdx useIndirect : Bool}
    {events : List (Event α)} {q : RequestQueue α} {sg : ℕ → VringSg}
    {outNum inNum : ℕ} {cookie : α} {env : Virtqueue.IndirectEnv}
    {result : Virtqueue.AddBufResult α} {mem : BitVec 64 → VringDesc}
    (hpos : 1 ≤ j) (hle : j ≤ 15)
    (hrun : GuardedRun.run step
      (initial (2 ^ j) modern useEventIdx useIndirect) events = some q)
    (hsome : 1 ≤ outNum + inNum) (hmax : outNum + inNum ≤ maxSgEntries)
    (hadd : q.vq.addBuf sg outNum inNum cookie env = result)
    (hrc : result.rc = 0)
    (hmem : ∀ itbl, result.vq.indirectTables (readHead result.vq
        (deviceLoad 2 modern q.vq.avail.idx)) = some itbl →
      ∀ i (hi : i < itbl.entries.length),
        mem (deviceLoad 8 modern (result.vq.desc (readHead result.vq
          (deviceLoad 2 modern q.vq.avail.idx))).addr +
            16 * BitVec.ofNat 64 i) = itbl.entries[i]) :
    readBuffers modern result.vq.desc (2 ^ j) mem (readHead result.vq
        (deviceLoad 2 modern q.vq.avail.idx)) =
      some ((List.range (outNum + inNum)).map (segment sg outNum)) := by
  obtain ⟨⟨free, chain, hi⟩, hsetup⟩ := inv_run hpos hle hrun
  have hmodern : q.vq.modern = modern := hsetup.modern
  have hnum : q.vq.num = 2 ^ j := hsetup.num
  obtain ⟨hadded, -⟩ := hi.table.addBuf hsome hadd hrc
  have hhead : readHead result.vq (deviceLoad 2 modern q.vq.avail.idx) =
      q.vq.freeHead := by
    unfold readHead
    rw [deviceLoad_two, deviceLoad_two, hadded.setup.modern, hadded.setup.num,
      hadded.availRing, hmodern, Function.update_self, vr16_vr16]
  rw [hhead] at hmem ⊢
  rw [← hmodern, ← hnum]
  rcases Virtqueue.addBuf_cases hadd with ⟨hfail, -⟩ | ⟨-, hroom, hvq⟩ |
      ⟨-, hroom, virt, phys, -, -, hvq⟩
  · rw [hfail] at hrc
    exact absurd hrc (by decide)
  · have htable := hi.table
    have hlen : (free.take (outNum + inNum)).length = outNum + inNum := by
      rw [List.length_take, htable.freeLength]
      omega
    rw [← List.take_append_drop (outNum + inNum) free] at htable
    have hread := @Virtqueue.Conserved.readBuffers_direct _ _ _ _ _ cookie sg
      outNum mem htable (by
        intro hnil
        rw [hnil, List.length_nil] at hlen
        omega)
    rw [hlen] at hread
    rw [hvq]
    exact hread
  · rw [hvq]
    refine Virtqueue.readBuffers_indirect hsome hmax ?_
    intro i hi'
    have hentry := hmem ⟨virt, Virtqueue.indirectEntries q.vq.modern sg outNum
      (outNum + inNum)⟩ (by
        rw [hvq]
        simp [Virtqueue.addBufIndirect, Virtqueue.publish]) i hi'
    rw [← hentry, hvq, ← hmodern]
    simp [Virtqueue.addBufIndirect, Virtqueue.publish]

/-- A two-segment request on the indirect path of a fresh modern queue. -/
def sampleAddBuf : Virtqueue.AddBufResult ℕ :=
  (initial (2 ^ 2) true false true).vq.addBuf
    (fun n => ⟨BitVec.ofNat 32 (0x1000 * (n + 1)), 512⟩) 1 1 7
    ⟨some 64, 1, some 0x8000⟩

/-- Memory with the table of that request at `0x8000`. -/
def sampleMem (addr : BitVec 64) : VringDesc :=
  Virtqueue.indirectEntry true
    (fun n => ⟨BitVec.ofNat 32 (0x1000 * (n + 1)), 512⟩) 1 2
    ((addr.toNat - 0x8000) / 16)

theorem device_reads_segments_sampleAddBuf :
    readBuffers true sampleAddBuf.vq.desc (2 ^ 2) sampleMem
        (readHead sampleAddBuf.vq 0) =
      some [⟨0x1000, 512, false⟩, ⟨0x2000, 512, true⟩] := by
  have hread := @device_reads_segments ℕ 2 true false true [] _ _ 1 1 7 _
    sampleAddBuf sampleMem (by decide) (by decide) rfl (by decide) (by decide)
    rfl (by decide +kernel) (by
      intro itbl hitbl i hi
      have htable : sampleAddBuf.vq.indirectTables (readHead sampleAddBuf.vq
          (deviceLoad 2 true (initial (α := ℕ) (2 ^ 2) true false true).vq.avail.idx)) =
          some ⟨64, Virtqueue.indirectEntries true
            (fun n => ⟨BitVec.ofNat 32 (0x1000 * (n + 1)), 512⟩) 1 2⟩ := by
        decide +kernel
      obtain rfl := Option.some.inj (htable.symm.trans hitbl)
      have hlt : i < 2 := hi
      interval_cases i <;> decide +kernel +revert)
  exact hread.trans (by decide +kernel)

end RequestQueue
end VirtioScsi
