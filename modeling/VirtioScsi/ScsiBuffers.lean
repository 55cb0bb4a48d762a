import VirtioScsi.ScsiHandlers
import VirtioScsi.TransferPaths

/-!
# The data buffer of a SCSI direct command

Which bytes of the caller's data buffer are written: by the handlers that make
up a response, and by the device through the segments of a pass-through.  All
of it stays inside the buffer, but for log pages: they are cut to the
allocation length in the CDB and not to the length of the buffer.
-/

namespace VirtioScsi

theorem mem_storesFrom {i : ℕ} {bytes : List (BitVec 8)} {s : ByteStore}
    (h : s ∈ storesFrom i bytes) : i ≤ s.1 ∧ s.1 < i + bytes.length := by
  unfold storesFrom at h
  obtain ⟨⟨b, k⟩, hmem, rfl⟩ := List.mem_map.mp h
  have hle := List.le_snd_of_mem_zipIdx hmem
  have hlt := List.snd_lt_add_of_mem_zipIdx hmem
  exact ⟨hle, hlt⟩

theorem exists_mem_storesFrom (i : ℕ) {k : ℕ} {bytes : List (BitVec 8)}
    (hk : k < bytes.length) : ∃ s ∈ storesFrom i bytes, s.1 = i + k := by
  refine ⟨(i + k, bytes[k]), ?_, rfl⟩
  unfold storesFrom
  have hmem : (bytes[k], i + k) ∈ bytes.zipIdx i := by
    rw [List.mk_mem_zipIdx_iff_le_and_getElem?_sub, Nat.add_sub_cancel_left]
    exact ⟨Nat.le_add_right i k, List.getElem?_eq_getElem hk⟩
  exact List.mem_map.mpr ⟨_, hmem, rfl⟩

/-! ## Segments of a pass-through -/

namespace DoioCall

def dataSegments (c : DoioCall) (env : DoioEnv) : List VringSg :=
  (List.range (c.doio env).made).flatMap fun k =>
    (c.prepareData (env.attempt k).data).1.elim [] DmaBuffer.entries

theorem prepareData_entries {c : DoioCall} {env : MapEnv} {sg : VringSg}
    (h : sg ∈ (c.prepareData env).1.elim [] DmaBuffer.entries) :
    c.data ≠ 0 ∧ sg ∈ env.dma := by
  unfold prepareData at h
  by_cases hdata : c.data ≠ 0 ∧ 0 < c.dataLen.toNat
  · rw [if_pos hdata] at h
    refine ⟨hdata.1, ?_⟩
    cases hdb : (DmaBuffer.prepare c.data c.dataLen.toNat c.isWrite env).1 with
    | none =>
        rw [hdb] at h
        cases h
    | some db =>
        rw [hdb, Option.elim_some, prepare_entries hdata.2.ne' hdb] at h
        exact h
  · rw [if_neg hdata] at h
    cases h

end DoioCall

/-! ## Writes inside the buffer -/

/-- `GetDMAList` returns the physical addresses of the buffer, in order. -/
def ScsiUnit.MapsBuffer (u : ScsiUnit) (phys : ℕ → ℕ) (data : ℕ) (length : BitVec 32) :
    Prop :=
  ∀ header k, ((u.doio header).attempt k).data.dma ≠ [] →
    segmentCells ((u.doio header).attempt k).data.dma =
      bufferCells phys data length.toNat

/-- Handlers and device write only inside the buffer, and no success reports
more than it holds. -/
structure ScsiRun.InBuffer (phys : ℕ → ℕ) (u : ScsiUnit) (data : ℕ) (length : BitVec 32)
    (r : ScsiRun) : Prop where
  stores : ∀ s ∈ r.dataStores, s.1 < length.toNat
  device : ∀ header call, r.sent = some (header, call) →
    ∀ cell ∈ segmentCells (call.dataSegments (u.doio header)),
      ∃ i < length.toNat, phys (data + i) = cell
  actual : r.ioError = 0 → r.cmd.actual.toNat ≤ length.toNat

namespace ScsiRun

variable {phys : ℕ → ℕ} {u : ScsiUnit} {cdb : ℕ → BitVec 8} {r : ScsiRun}

def Untouched (r : ScsiRun) : Prop := r.dataStores = [] ∧ r.sent = none

theorem inBuffer_local {data : ℕ} {length : BitVec 32} (hsent : r.sent = none)
    (hstores : ∀ s ∈ r.dataStores, s.1 < length.toNat)
    (hactual : r.ioError = 0 → r.cmd.actual.toNat ≤ length.toNat) :
    r.InBuffer phys u data length := by
  constructor
  · exact hstores
  · intro header call hcall
    rw [hsent] at hcall
    cases hcall
  · exact hactual

theorem inBuffer_failed {data : ℕ} {length : BitVec 32} (h : r.Untouched)
    (herror : r.ioError ≠ 0) : r.InBuffer phys u data length := by
  apply inBuffer_local h.2
  · intro s hs
    rw [h.1] at hs
    cases hs
  · intro hgood
    exact absurd hgood herror

theorem inBuffer_passThrough {data : ℕ} {length : BitVec 32} {isWrite : Bool}
    {actual : BitVec 32 → BitVec 32} (h : r.Untouched)
    (hmaps : data ≠ 0 → u.MapsBuffer phys r.cmd.data r.cmd.length)
    (hactual : ∀ residual ≤ length, (actual residual).toNat ≤ r.cmd.length.toNat) :
    (r.passThrough u cdb data length isWrite actual).InBuffer phys u r.cmd.data
      r.cmd.length := by
  rw [passThrough_eq]
  constructor
  · intro s hs
    rw [show _ = r.dataStores from rfl, h.1] at hs
    cases hs
  · intro header call hcall cell hcell
    obtain ⟨hheader, hcall⟩ := Prod.mk.inj (Option.some.inj hcall)
    rw [← hcall] at hcell
    obtain ⟨sg, hsg, hcell⟩ := List.mem_flatMap.mp hcell
    obtain ⟨k, -, hsg⟩ := List.mem_flatMap.mp hsg
    obtain ⟨hdata, hsg⟩ := DoioCall.prepareData_entries hsg
    have hcover := hmaps hdata header k (List.ne_nil_of_mem hsg)
    apply TransferLayout.mem_bufferCells.mp
    rw [← hcover]
    exact List.mem_flatMap.mpr ⟨sg, hsg, hcell⟩
  · intro _
    exact hactual _ (DoioCall.told_residual_le _ _)

theorem inBuffer_transfer {isWrite : Bool} (h : r.Untouched)
    (hmaps : u.MapsBuffer phys r.cmd.data r.cmd.length) :
    (r.transfer u cdb isWrite).InBuffer phys u r.cmd.data r.cmd.length := by
  apply inBuffer_passThrough h fun _ => hmaps
  intro residual hle
  rw [BitVec.toNat_sub_of_le hle]
  exact Nat.sub_le _ _

theorem inBuffer_vpdPage {pageCode : BitVec 8} {page : List (BitVec 8)}
    (h : r.Untouched) :
    (r.vpdPage pageCode page).InBuffer phys u r.cmd.data r.cmd.length := by
  rw [vpdPage_eq]
  by_cases hshort : r.cmd.length.toNat < 3 + page.length ∨ r.cmd.data = 0
  · rw [if_pos hshort]
    have herror : r.refuseInquiry.ioError ≠ 0 := by
      show BitVec.ofInt 8 hferrBadStatus ≠ 0
      decide
    exact inBuffer_failed (r := r.refuseInquiry) h herror
  rw [if_neg hshort]
  have hfits : 3 + page.length ≤ r.cmd.length.toNat :=
    Nat.le_of_not_lt (not_or.mp hshort).1
  apply inBuffer_local
  · exact h.2
  · intro s hs
    simp only [vpdFinish, setIoActual, setActual, setStatus, storeData, h.1,
      List.nil_append, List.mem_append, List.mem_cons, List.not_mem_nil, or_false] at hs
    rcases hs with (hzero | hheader | hcode) | hpage
    · have hbound := (mem_storesFrom hzero).2
      rw [List.length_replicate] at hbound
      omega
    · rw [hheader]
      show 0 < r.cmd.length.toNat
      omega
    · rw [hcode]
      show 1 < r.cmd.length.toNat
      omega
    · have hbound := (mem_storesFrom hpage).2
      omega
  · intro _
    show (BitVec.ofNat 32 (3 + page.length)).toNat ≤ r.cmd.length.toNat
    rw [BitVec.toNat_ofNat]
    exact (Nat.mod_le _ _).trans hfits

theorem inBuffer_inquiry (h : r.Untouched)
    (hmaps : u.MapsBuffer phys r.cmd.data r.cmd.length) :
    (r.handleScsiInquiry u cdb).InBuffer phys u r.cmd.data r.cmd.length := by
  have herror : BitVec.ofInt 8 hferrBadStatus ≠ 0 := by decide
  unfold handleScsiInquiry
  by_cases hshort : r.cmd.length.toNat < 5
  · rw [if_pos hshort]
    exact inBuffer_failed (r := r.refuseInquiry) h herror
  rw [if_neg hshort]
  by_cases hevpd : r.evpd cdb = false
  · rw [if_pos hevpd]
    exact inBuffer_transfer h hmaps
  rw [if_neg hevpd]
  cases vpdPageOf u.targetId (r.pageCode cdb) with
  | some page => exact inBuffer_vpdPage h
  | none =>
      apply inBuffer_failed _ herror
      unfold vpdIllegalPage fail
      dsimp only
      split_ifs
      · exact h
      · exact h

theorem inBuffer_readCapacity10 (h : r.Untouched)
    (hmaps : u.MapsBuffer phys r.cmd.data r.cmd.length) :
    (r.handleScsiReadCapacity10 u cdb).InBuffer phys u r.cmd.data r.cmd.length := by
  have herror : BitVec.ofInt 8 hferrBadStatus ≠ 0 := by decide
  unfold handleScsiReadCapacity10
  split_ifs with hshort
  · exact inBuffer_failed h herror
  · exact inBuffer_transfer h hmaps

theorem smartData_inside {s : ByteStore} (hs : s ∈ smartData) : s.1 < 512 := by
  have hattrs : (smartAttrs.flatMap SmartAttr.bytes).length = 72 := by decide
  simp only [smartData, List.mem_append, List.mem_cons, List.not_mem_nil,
    or_false] at hs
  rcases hs with ((hzero | hfirst | hsecond) | hattr) | hlast
  · have hbound := (mem_storesFrom hzero).2
    rw [List.length_replicate] at hbound
    omega
  · rw [hfirst]
    norm_num
  · rw [hsecond]
    norm_num
  · have hbound := (mem_storesFrom hattr).2
    omega
  · rw [hlast]
    norm_num

theorem inBuffer_ataPassthrough (h : r.Untouched) :
    (r.handleScsiAtaPassthrough cdb).InBuffer phys u r.cmd.data r.cmd.length := by
  have herror : BitVec.ofInt 8 hferrBadStatus ≠ 0 := by decide
  unfold handleScsiAtaPassthrough
  split_ifs with hcommand hshort
  · exact inBuffer_failed h herror
  · exact inBuffer_failed h herror
  · have hfits : 512 ≤ r.cmd.length.toNat := Nat.le_of_not_lt (not_or.mp hshort).2
    apply inBuffer_local
    · exact h.2
    · intro s hs
      have hmem : s ∈ r.dataStores ++ smartData := hs
      rw [h.1, List.nil_append] at hmem
      exact (smartData_inside hmem).trans_le hfits
    · intro _
      exact hfits

/-- How many bytes LOG SENSE copies, of a known page. -/
def logTransferLen (cdb : ℕ → BitVec 8) (page : List (BitVec 8)) : ℕ :=
  min (allocationLength cdb).toNat page.length

theorem inBuffer_logSense_iff (h : r.Untouched) (hstatus : r.cmd.status = 0) :
    (r.handleScsiLogSense cdb).InBuffer phys u r.cmd.data r.cmd.length ↔
      (r.cmd.data ≠ 0 → ∀ page, logPageOf (logPageCode cdb) = some page →
        logTransferLen cdb page ≤ r.cmd.length.toNat) := by
  rw [handleScsiLogSense_eq hstatus]
  by_cases hnone : r.cmd.data = 0 ∨ (allocationLength cdb).toNat = 0
  · rw [if_pos hnone]
    apply iff_of_true
    · apply inBuffer_local
      · exact h.2
      · intro s hs
        have hmem : s ∈ r.dataStores := hs
        rw [h.1] at hmem
        cases hmem
      · intro _
        exact Nat.zero_le _
    · intro hdata page _
      rw [logTransferLen, hnone.resolve_left hdata, Nat.zero_min]
      exact Nat.zero_le _
  rw [if_neg hnone]
  obtain ⟨hdata, halloc⟩ := not_or.mp hnone
  cases hpage : logPageOf (logPageCode cdb) with
  | none =>
      have herror : BitVec.ofInt 8 hferrBadStatus ≠ 0 := by decide
      apply iff_of_true
      · exact inBuffer_failed h herror
      · intro _ page hsome
        cases hsome
  | some page =>
      dsimp only
      rw [← logTransferLen]
      have htake : (page.take (logTransferLen cdb page)).length =
          logTransferLen cdb page := by
        rw [List.length_take, logTransferLen]
        omega
      constructor
      · intro hin _ page' hpage'
        cases hpage'
        by_contra hlong
        -- The last byte copied lies behind the buffer.
        have hbehind : r.cmd.length.toNat <
            (page.take (logTransferLen cdb page)).length := by
          rw [htake]
          omega
        obtain ⟨s, hs, hindex⟩ := exists_mem_storesFrom 0 hbehind
        have hlt := hin.stores s (List.mem_append_right _ hs)
        omega
      · intro hfits
        have hle := hfits hdata page rfl
        apply inBuffer_local
        · exact h.2
        · intro s hs
          have hmem : s ∈ r.dataStores ++
            storesFrom 0 (page.take (logTransferLen cdb page)) := hs
          rw [h.1, List.nil_append] at hmem
          have hbound := (mem_storesFrom hmem).2
          omega
        · intro _
          show (BitVec.ofNat 32 (logTransferLen cdb page)).toNat ≤ r.cmd.length.toNat
          rw [BitVec.toNat_ofNat]
          exact (Nat.mod_le _ _).trans hle

end ScsiRun

/-! ## Every command -/

namespace ScsiRequest

/-- What a LOG SENSE command copies fits the buffer. -/
def LogPageFits (q : ScsiRequest) : Prop :=
  ¬ q.Refused → q.opcode = .logSense → q.cmd.data ≠ 0 →
    ∀ page, ScsiRun.logPageOf (ScsiRun.logPageCode q.cdb) = some page →
      ScsiRun.logTransferLen q.cdb page ≤ q.cmd.length.toNat

/-- HD_SCSICMD writes only inside the data buffer and reports no more than its
length exactly if no LOG SENSE copies more than it holds. -/
theorem inBuffer_iff (q : ScsiRequest) (u : ScsiUnit) (phys : ℕ → ℕ)
    (hmaps : u.MapsBuffer phys q.cmd.data q.cmd.length) :
    (q.parseScsiCommand u).InBuffer phys u q.cmd.data q.cmd.length ↔ q.LogPageFits := by
  unfold LogPageFits
  by_cases hrefused : q.Refused
  · obtain ⟨error, herror, hparse⟩ := parse_of_refused (u := u) hrefused
    rw [hparse]
    apply iff_of_true
    · exact ScsiRun.inBuffer_failed ⟨rfl, rfl⟩ herror
    · intro haccepted
      exact absurd hrefused haccepted
  have huntouched : q.begin.Untouched := ⟨rfl, rfl⟩
  have hbegin : q.begin.cmd.data = q.cmd.data ∧ q.begin.cmd.length = q.cmd.length :=
    ⟨rfl, rfl⟩
  rw [parse_of_accepted hrefused]
  simp only [hrefused, not_false_iff, true_implies]
  rw [← hbegin.1, ← hbegin.2] at hmaps ⊢
  cases hopcode : q.opcode with
  | logSense =>
      simp only [true_implies]
      exact ScsiRun.inBuffer_logSense_iff huntouched rfl
  | testUnitReady =>
      apply iff_of_true
      · unfold ScsiOpcode.handle ScsiRun.handleScsiTestUnitReady
        apply ScsiRun.inBuffer_passThrough huntouched
        · intro hnull
          exact absurd rfl hnull
        · intro _ _
          exact Nat.zero_le _
      · exact ScsiOpcode.noConfusion
  | inquiry => exact iff_of_true (ScsiRun.inBuffer_inquiry huntouched hmaps) ScsiOpcode.noConfusion
  | readCapacity10 =>
      exact iff_of_true (ScsiRun.inBuffer_readCapacity10 huntouched hmaps)
        ScsiOpcode.noConfusion
  | read10 =>
      exact iff_of_true (ScsiRun.inBuffer_transfer huntouched hmaps) ScsiOpcode.noConfusion
  | write10 =>
      exact iff_of_true (ScsiRun.inBuffer_transfer huntouched hmaps) ScsiOpcode.noConfusion
  | ataPassthrough =>
      exact iff_of_true (ScsiRun.inBuffer_ataPassthrough huntouched) ScsiOpcode.noConfusion
  | unsupported =>
      apply iff_of_true
      · apply ScsiRun.inBuffer_failed
        · unfold ScsiOpcode.handle ScsiRun.fail ScsiRun.fillAutoSense
          dsimp only
          split_ifs
          · exact huntouched
          · exact huntouched
        · show BitVec.ofInt 8 hferrBadStatus ≠ 0
          decide
      · exact ScsiOpcode.noConfusion

end ScsiRequest

section Sample

/-- A unit whose requests time out; its device gets the buffer at 0x8000. -/
def sampleScsiUnit : ScsiUnit where
  targetId := 0
  buf := .slot 0 0
  bufs := ⟨[⟨0x1000, 51⟩], [⟨0x2000, 108⟩]⟩
  doio := fun _ => ⟨true, none, none, ⟨[], none⟩, ⟨[], none⟩,
    fun _ => ⟨⟨[⟨0x8000, 16⟩], some 0x500⟩, Virtqueue.allocate 16 false false false,
      ⟨none, 0, none⟩, none⟩⟩
  sense := fun _ _ => 0

def sampleScsiCmd (length : BitVec 32) (cmdLength : BitVec 16) : ScsiCmd :=
  ⟨0x8000, length, 0, 0x4000, cmdLength, 0, 0, 0, 0, 0, 0⟩

def sampleScsiRequest (length : BitVec 32) (cdb : List (BitVec 8)) : ScsiRequest :=
  ⟨44, ⟨.hdScsiCmd, 0, 0, 44, 0x3000⟩,
    sampleScsiCmd length (BitVec.ofNat 16 cdb.length), fun i => cdb.getD i 0⟩

/-- LOG SENSE for page 0x2F with an allocation length of 64. -/
def sampleLogSense : List (BitVec 8) := [0x4D, 0, 0x2F, 0, 0, 0, 0, 0, 64, 0]

theorem inBuffer_iff_sampleLogSense :
    ((sampleScsiRequest 16 sampleLogSense).parseScsiCommand sampleScsiUnit).InBuffer
        id sampleScsiUnit 0x8000 16 ↔
      (sampleScsiRequest 16 sampleLogSense).LogPageFits :=
  ScsiRequest.inBuffer_iff (sampleScsiRequest 16 sampleLogSense) sampleScsiUnit id (by
    intro header k _
    show segmentCells [⟨0x8000, 16⟩] = bufferCells id 0x8000 16
    decide)

/-- 31 bytes are stored in a buffer of 16, and reported as transferred. -/
theorem inBuffer_fails_sampleLogSense :
    ¬ ((sampleScsiRequest 16 sampleLogSense).parseScsiCommand sampleScsiUnit).InBuffer
      id sampleScsiUnit 0x8000 16 := by
  intro hin
  have hactual := hin.actual (by decide)
  exact absurd hactual (by decide)

end Sample

end VirtioScsi
