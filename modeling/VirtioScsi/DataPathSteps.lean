import VirtioScsi.DataPath

/-!
# Requests on the data path

What the cells of a request hold after `Submit`, what the device finds and
writes there, and what the reply is made of.  Every part of the memory of a
request is apart from every other, so each step is read off the cells it
writes.
-/

namespace VirtioScsi

open CellMemory TransferLayout

/-! ## Cells of a request -/

/-- A scatter-gather entry as the device finds it. -/
def VringSg.toSegment (writable : Bool) (v : VringSg) : Segment :=
  ⟨v.addr.setWidth 64, v.len, writable⟩

theorem segmentsCells_append (writable : Bool) (l l' : List Segment) :
    segmentsCells writable (l ++ l') = segmentsCells writable l ++ segmentsCells writable l' := by
  unfold segmentsCells
  rw [List.filter_append, List.flatMap_append]

theorem segmentsCells_map (writable b : Bool) (l : List VringSg) :
    segmentsCells writable (l.map (VringSg.toSegment b)) =
      if b = writable then segmentCells l else [] := by
  induction l with
  | nil => simp [segmentsCells, segmentCells]
  | cons v l ih =>
      have hcells : (v.toSegment b).cells = v.cells := by
        have hbound := v.addr.isLt
        unfold Segment.cells VringSg.cells VringSg.toSegment
        rw [BitVec.toNat_setWidth, Nat.mod_eq_of_lt (by omega)]
      unfold segmentsCells segmentCells at ih ⊢
      by_cases hb : b = writable
      · have hkept : ((v.toSegment b).writable == writable) = true := by
          rw [beq_iff_eq]
          exact hb
        rw [if_pos hb] at ih ⊢
        rw [List.map_cons, List.filter_cons, if_pos hkept, List.flatMap_cons, List.flatMap_cons,
          hcells, ih]
      · have hdropped : ¬ ((v.toSegment b).writable == writable) = true := by
          rw [beq_iff_eq]
          exact hb
        rw [if_neg hb] at ih ⊢
        rw [List.map_cons, List.filter_cons, if_neg hdropped, ih]

/-- The segments of a list are its entries, the first `outNum` for reading. -/
theorem segments_eq (sg : SgList) (hlength : sg.segments.length = sg.outNum + sg.inNum) :
    (List.range (sg.outNum + sg.inNum)).map (segment sg.get sg.outNum) =
      (sg.segments.take sg.outNum).map (VringSg.toSegment false) ++
        (sg.segments.drop sg.outNum).map (VringSg.toSegment true) := by
  apply List.ext_getElem
  · simp only [List.length_map, List.length_range, List.length_append, List.length_take,
      List.length_drop]
    omega
  · intro i hi hi'
    have hlt : i < sg.segments.length := by
      rw [List.length_map, List.length_range] at hi
      omega
    have htake : ((sg.segments.take sg.outNum).map (VringSg.toSegment false)).length =
        sg.outNum := by
      rw [List.length_map, List.length_take]
      omega
    have hget : sg.get i = sg.segments[i] := by
      unfold SgList.get
      rw [List.getElem?_eq_getElem hlt]
      rfl
    rw [List.getElem_map, List.getElem_range]
    unfold segment
    rw [hget]
    by_cases hout : i < sg.outNum
    · rw [List.getElem_append_left (by omega), List.getElem_map, List.getElem_take,
        decide_eq_false (Nat.not_le.mpr hout)]
      rfl
    · have hback : sg.outNum + (i - sg.outNum) = i := by omega
      rw [List.getElem_append_right (by omega), List.getElem_map, List.getElem_drop,
        decide_eq_true (Nat.le_of_not_lt hout)]
      simp only [htake, hback]
      rfl

theorem segmentsCells_sgList (sg : SgList) (hlength : sg.segments.length = sg.outNum + sg.inNum)
    (writable : Bool) :
    segmentsCells writable
        ((List.range (sg.outNum + sg.inNum)).map (segment sg.get sg.outNum)) =
      segmentCells (if writable then sg.segments.drop sg.outNum
        else sg.segments.take sg.outNum) := by
  rw [segments_eq sg hlength, segmentsCells_append, segmentsCells_map, segmentsCells_map]
  cases writable with
  | false => simp
  | true => simp

namespace PipelinedRequest

variable {r : PipelinedRequest} {data : DataSegments}

theorem sgList_eq (r : PipelinedRequest) (data : DataSegments) :
    r.sgList data = buildSg r.isWrite r.layout.slot.reqDma r.layout.slot.respDma data.toList :=
  (submitSg_fills r.isWrite r.layout.slot.reqDma r.layout.slot.respDma data).array_eq

theorem sgList_length (r : PipelinedRequest) (data : DataSegments) :
    (r.sgList data).segments.length = (r.sgList data).outNum + (r.sgList data).inNum := by
  rw [sgList_eq, buildSg_segments_length, buildSg_total]

/-- There is a header, so the list is not empty. -/
theorem sgList_pos (r : PipelinedRequest) (data : DataSegments) :
    1 ≤ (r.sgList data).outNum + (r.sgList data).inNum := by
  have hheader : r.layout.slot.reqDma ≠ [] := by
    intro hnil
    have hlength := r.layout.reqCells
    rw [hnil] at hlength
    cases hlength
  have hpos := List.length_pos_of_ne_nil hheader
  rw [sgList_eq, buildSg_total]
  omega

theorem reqCells_length (r : PipelinedRequest) : r.reqCells.length = reqCmdSize :=
  r.layout.reqCells

theorem respCells_length (r : PipelinedRequest) : r.respCells.length = respCmdSize :=
  r.layout.respCells

/-- The parts of the memory of a request are apart. -/
structure Parts (r : PipelinedRequest) : Prop where
  req : r.reqCells.Nodup
  resp : r.respCells.Nodup
  user : (r.layout.userCells r.req.ioLength.toNat).Nodup
  bounce : (r.layout.bounceCells bounceBufSize).Nodup
  reqResp : List.Disjoint r.reqCells r.respCells
  reqUser : List.Disjoint r.reqCells (r.layout.userCells r.req.ioLength.toNat)
  reqBounce : List.Disjoint r.reqCells (r.layout.bounceCells bounceBufSize)
  respUser : List.Disjoint r.respCells (r.layout.userCells r.req.ioLength.toNat)
  respBounce : List.Disjoint r.respCells (r.layout.bounceCells bounceBufSize)
  userBounce : List.Disjoint (r.layout.userCells r.req.ioLength.toNat)
    (r.layout.bounceCells bounceBufSize)

theorem parts (h : r.footprint.Nodup) : r.Parts := by
  unfold footprint at h
  rw [List.nodup_append', List.nodup_append', List.nodup_append', List.disjoint_append_left,
    List.disjoint_append_left, List.disjoint_append_left] at h
  obtain ⟨⟨⟨hreq, hresp, hreqResp⟩, huser, hreqUser, hrespUser⟩, hbounce,
    ⟨hreqBounce, hrespBounce⟩, huserBounce⟩ := h
  exact ⟨hreq, hresp, huser, hbounce, hreqResp, hreqUser, hreqBounce, hrespUser, hrespBounce,
    huserBounce⟩

end PipelinedRequest

namespace Flight

variable {f : Flight}

theorem outCells_eq (f : Flight) : segmentsCells false f.segments = f.outCells := by
  have hcells := segmentsCells_sgList f.sgList (f.request.sgList_length f.data) false
  rw [if_neg (by decide)] at hcells
  unfold segments
  rw [hcells]
  unfold sgList outCells PipelinedRequest.reqCells dataCells
  rw [PipelinedRequest.sgList_eq]
  unfold buildSg
  cases f.request.isWrite with
  | false => simp
  | true => simp only [if_true, List.take_left' List.length_append, segmentCells_append]

theorem inCells_eq (f : Flight) : segmentsCells true f.segments = f.inCells := by
  have hcells := segmentsCells_sgList f.sgList (f.request.sgList_length f.data) true
  rw [if_pos rfl] at hcells
  unfold segments
  rw [hcells]
  unfold sgList inCells PipelinedRequest.respCells dataCells
  rw [PipelinedRequest.sgList_eq]
  unfold buildSg
  cases f.request.isWrite with
  | false => simp [segmentCells_append]
  | true => simp only [if_true, List.drop_left' List.length_append, List.append_nil]

/-- The data lie in the bounce buffer or in the client's memory. -/
structure Fits (f : Flight) : Prop where
  nodup : f.request.footprint.Nodup
  nonempty : 0 < f.request.req.ioLength.toNat
  bounced : f.data.usingBounce = true →
    f.dataCells = f.request.layout.bounceCells f.request.req.ioLength.toNat ∧
      f.request.req.ioLength.toNat ≤ bounceBufSize
  direct : f.data.usingBounce = false →
    f.dataCells = f.request.layout.userCells f.request.req.ioLength.toNat

theorem Fits.dataCells_length (h : f.Fits) :
    f.dataCells.length = f.request.req.ioLength.toNat := by
  cases hbounce : f.data.usingBounce with
  | true =>
      rw [(h.bounced hbounce).1]
      exact bufferCells_length _ _ _
  | false =>
      rw [h.direct hbounce]
      exact bufferCells_length _ _ _

/-- The data are apart from header and answer, and each cell is used once. -/
theorem Fits.dataCells_apart (h : f.Fits) :
    f.dataCells.Nodup ∧ List.Disjoint f.request.reqCells f.dataCells ∧
      List.Disjoint f.request.respCells f.dataCells ∧
      ∀ cell ∈ f.dataCells, cell ∈ f.request.footprint := by
  have hparts := PipelinedRequest.parts h.nodup
  unfold PipelinedRequest.footprint
  cases hbounce : f.data.usingBounce with
  | true =>
      obtain ⟨hcells, hsmall⟩ := h.bounced hbounce
      have hsub : ∀ cell ∈ f.dataCells, cell ∈ f.request.layout.bounceCells bounceBufSize := by
        intro cell hcell
        rw [hcells] at hcell
        exact bufferCells_mono hsmall hcell
      refine ⟨?_, ?_, ?_, ?_⟩
      · rw [hcells]
        exact bounceCells_nodup _ hsmall
      · exact fun cell hreq hcell => hparts.reqBounce hreq (hsub cell hcell)
      · exact fun cell hresp hcell => hparts.respBounce hresp (hsub cell hcell)
      · exact fun cell hcell => List.mem_append_right _ (hsub cell hcell)
  | false =>
      have hcells := h.direct hbounce
      rw [hcells]
      refine ⟨hparts.user, hparts.reqUser, hparts.respUser, ?_⟩
      intro cell hcell
      exact List.mem_append_left _ (List.mem_append_right _ hcell)

/-- The answer and the data that the reply is made of. -/
structure Holds (f : Flight) (modern : Bool) (mem : ℕ → BitVec 8) (res : BlockResult) :
    Prop where
  status : completionStatus modern (readResponse (f.request.respCells.map mem))
    f.request.layout.ioLength = (res.ioError, res.ioActual)
  moved : res.ioError = 0 → res.ioActual = f.request.req.ioLength
  read : res.ioError = 0 → f.request.isWrite = false → f.dataCells.map mem = res.data
  silent : res.ioError ≠ 0 ∨ f.request.isWrite = true → res.data = []

variable {modern : Bool} {mem mem' : ℕ → BitVec 8} {res : BlockResult}

theorem reqCells_mem {cell : ℕ} (h : cell ∈ f.request.reqCells) :
    cell ∈ f.request.footprint :=
  List.mem_append_left _ (List.mem_append_left _ (List.mem_append_left _ h))

theorem respCells_mem {cell : ℕ} (h : cell ∈ f.request.respCells) :
    cell ∈ f.request.footprint :=
  List.mem_append_left _ (List.mem_append_left _ (List.mem_append_right _ h))

theorem Fits.outCells_mem (hf : f.Fits) {cell : ℕ} (h : cell ∈ f.outCells) :
    cell ∈ f.request.footprint := by
  unfold outCells at h
  rcases List.mem_append.mp h with hreq | hdata
  · exact reqCells_mem hreq
  · split_ifs at hdata
    · exact hf.dataCells_apart.2.2.2 cell hdata
    · cases hdata

theorem Fits.inCells_mem (hf : f.Fits) {cell : ℕ} (h : cell ∈ f.inCells) :
    cell ∈ f.request.footprint := by
  unfold inCells at h
  rcases List.mem_append.mp h with hresp | hdata
  · exact respCells_mem hresp
  · split_ifs at hdata
    · cases hdata
    · exact hf.dataCells_apart.2.2.2 cell hdata

/-- Nothing depends on memory outside the footprint. -/
theorem Holds.congr (h : f.Holds modern mem res) (hf : f.Fits)
    (hsame : ∀ cell ∈ f.request.footprint, mem' cell = mem cell) :
    f.Holds modern mem' res := by
  have hresp : f.request.respCells.map mem' = f.request.respCells.map mem :=
    List.map_congr_left fun cell hcell => hsame cell (respCells_mem hcell)
  have hdata : f.dataCells.map mem' = f.dataCells.map mem :=
    List.map_congr_left fun cell hcell => hsame cell (hf.dataCells_apart.2.2.2 cell hcell)
  refine ⟨?_, h.moved, ?_, h.silent⟩
  · rw [hresp]
    exact h.status
  · rw [hdata]
    exact h.read

theorem Fits.outCells_congr (hf : f.Fits)
    (hsame : ∀ cell ∈ f.request.footprint, mem' cell = mem cell) :
    f.outCells.map mem' = f.outCells.map mem :=
  List.map_congr_left fun cell hcell => hsame cell (hf.outCells_mem hcell)

theorem completionStatus_answer (modern : Bool) (a : DeviceAnswer) (ioLength : BitVec 32) :
    completionStatus modern (readResponse (answerBytes modern a)) ioLength =
      if a.error ≠ 0 then (a.error, 0)
      else (0, if ioLength < a.residual then 0 else ioLength - a.residual) := by
  have hresidual := residualNative_answerBytes modern a
  have hfields := readResponse_answerBytes modern a
  unfold completionStatus
  rw [hresidual, hfields]
  rfl

/-- What the device writes is what the reply will be made of. -/
theorem Fits.holds_answer (hf : f.Fits) {a : DeviceAnswer} {data : List (BitVec 8)}
    (herror : a.error = res.ioError)
    (hok : res.ioError = 0 → a.residual = 0 ∧ res.ioActual = f.request.req.ioLength ∧
      (f.request.isWrite = false → data = res.data ∧ data.length = f.dataCells.length))
    (hfail : res.ioError ≠ 0 → res.ioActual = 0)
    (hsilent : res.ioError ≠ 0 ∨ f.request.isWrite = true → res.data = []) :
    f.Holds modern (write mem f.inCells (answerBytes modern a ++ data)) res := by
  obtain ⟨hnodup, -, hrespData, -⟩ := hf.dataCells_apart
  have hlength : f.request.respCells.length = (answerBytes modern a).length := by
    rw [answerBytes_length]
    exact f.request.respCells_length
  have hresp : f.request.respCells.map (write mem f.inCells (answerBytes modern a ++ data)) =
      answerBytes modern a := by
    unfold inCells
    rw [write_append mem hlength, map_write_of_disjoint,
      map_write mem (PipelinedRequest.parts hf.nodup).resp hlength]
    intro cell hcell hmem
    split_ifs at hmem
    · cases hmem
    · exact hrespData hcell hmem
  refine ⟨?_, fun hzero => (hok hzero).2.1, ?_, hsilent⟩
  · rw [hresp, completionStatus_answer, herror]
    by_cases hzero : res.ioError = 0
    · obtain ⟨hresidual, hactual, -⟩ := hok hzero
      have hless : ¬ f.request.layout.ioLength < 0 := BitVec.not_lt_zero
      rw [if_neg (not_not.mpr hzero), hresidual, if_neg hless, hzero, hactual,
        f.request.ioLength, sub_zero]
    · rw [if_pos hzero, hfail hzero]
  · intro hzero hread
    obtain ⟨-, -, hdata⟩ := hok hzero
    obtain ⟨hbytes, hlen⟩ := hdata hread
    unfold inCells
    rw [if_neg (by rw [hread]; decide), write_append mem hlength,
      map_write _ hnodup hlen.symm, hbytes]

end Flight

namespace DataPath

variable {s s' : DataPath} {r : PipelinedRequest} {f : Flight} {key : FlightKey}
  {data : DataSegments} {res : BlockResult}

/-! ## The reply -/

theorem completeInflightSlot_mem {cell : ℕ} (hcell : cell ∉ f.request.footprint) :
    (s.completeInflightSlot key f).mem cell = s.mem cell := by
  unfold completeInflightSlot
  dsimp only
  split_ifs with hcopy
  · apply copy_of_notMem
    intro hmem
    apply hcell
    refine List.mem_append_left _ (List.mem_append_right _ ?_)
    rw [← f.request.ioLength]
    exact bufferCells_mono (completionStatus_le _ _ _) hmem
  · rfl

/-- The reply is what the memory of the request holds. -/
theorem completeInflightSlot_replies (hf : f.Fits)
    (hh : f.Holds s.shared.queue.vq.modern s.mem res) :
    (s.completeInflightSlot key f).replies = s.replies ++ [(key, f.op, res)] := by
  unfold completeInflightSlot
  dsimp only
  rw [hh.status]
  dsimp only
  congr 4
  by_cases hmoved : res.ioError = 0 ∧ f.request.isWrite = false
  · obtain ⟨hzero, hread⟩ := hmoved
    have hpos := hf.nonempty
    rw [hh.moved hzero, hzero, hread]
    have hparts := PipelinedRequest.parts hf.nodup
    have hdata := hh.read hzero hread
    have hresult : ∀ data, data = res.data →
        (⟨0, f.request.req.ioLength, data⟩ : BlockResult) = res := by
      intro data hsame
      rw [hsame, ← hzero, ← hh.moved hzero]
    apply hresult
    cases hbounce : f.data.usingBounce with
    | true =>
        obtain ⟨hcells, hsmall⟩ := hf.bounced hbounce
        simp only [Bool.not_false, Bool.and_true, decide_true, hpos, if_true]
        rw [map_copy hparts.user (by simp [bounceCells, userCells, bufferCells_length]),
          ← hcells, hdata]
    | false =>
        simp only [Bool.not_false, Bool.and_true, Bool.false_and, decide_true, if_true,
          Bool.false_eq_true, if_false]
        rw [← hf.direct hbounce, hdata]
  · have hsilent : res.ioError ≠ 0 ∨ f.request.isWrite = true := by
      by_cases hzero : res.ioError = 0
      · exact .inr (Bool.eq_true_of_not_eq_false fun hread => hmoved ⟨hzero, hread⟩)
      · exact .inl hzero
    have hnone : ¬ (!f.request.isWrite && decide (res.ioError = 0)) = true := by
      intro hboth
      rw [Bool.and_eq_true, Bool.not_eq_true', decide_eq_true_iff] at hboth
      exact hmoved ⟨hboth.2, hboth.1⟩
    rw [if_neg hnone, ← hh.silent hsilent]

/-! ## Submission -/

/-- What `Submit` returns. -/
def submitCode (s : DataPath) (r : PipelinedRequest) : Int :=
  match submitData r.layout.ioData r.layout.ioLength r.layout.slot.data with
  | none => hferrDma
  | some data =>
      let sg := r.sgList data
      if maxSgEntries < sg.outNum + sg.inNum then hferrDma
      else if (s.shared.addBuf sg.get sg.outNum sg.inNum (.slot r.unit r.slot)
          r.layout.slot.exec r.place).1 ≠ 0 then tderrNotSpecified
      else 0

theorem resetCells_mem {cells : List ℕ} {cell : ℕ} (h : cell ∈ resetCells cells) :
    cell ∈ cells := by
  unfold resetCells at h
  rw [List.mem_append, List.mem_append] at h
  rcases h with (h | h) | h
  · exact List.mem_of_mem_drop (List.mem_of_mem_take h)
  · exact List.mem_of_mem_drop (List.mem_of_mem_take h)
  · exact List.mem_of_mem_drop (List.mem_of_mem_take h)

theorem prepare_of_notMem {cell : ℕ} (hreq : cell ∉ r.reqCells) (hresp : cell ∉ r.respCells) :
    s.prepare r cell = s.mem cell := by
  unfold prepare
  rw [write_of_notMem hreq, write_of_notMem fun hmem => hresp (resetCells_mem hmem)]

theorem prepare_mem {cell : ℕ} (hcell : cell ∉ r.footprint) : s.prepare r cell = s.mem cell := by
  apply prepare_of_notMem
  · exact fun hmem =>
      hcell (List.mem_append_left _ (List.mem_append_left _ (List.mem_append_left _ hmem)))
  · exact fun hmem =>
      hcell (List.mem_append_left _ (List.mem_append_left _ (List.mem_append_right _ hmem)))

/-- The bounce buffer is used for what fits into it. -/
theorem fits_of_submitData (hadm : s.Admissible r)
    (hdata : submitData r.layout.ioData r.layout.ioLength r.layout.slot.data = some data)
    (serial : ℕ) (op : BlockOp) : (Flight.mk r data serial op).Fits := by
  have hsize : r.layout.size = r.req.ioLength.toNat := by
    unfold TransferLayout.size
    rw [if_neg (by rw [r.ioData]; exact hadm.buffer), r.ioLength]
  have hpos := hadm.nonempty
  rw [submitData_path] at hdata
  refine ⟨hadm.nodup, hadm.nonempty, ?_, ?_⟩
  · intro hbounce
    split_ifs at hdata with hsmall
    · obtain ⟨hle, hcells, -⟩ := bounce_data hdata
      rw [hsize] at hle hcells
      exact ⟨hcells, hle⟩
    · have hdirect := (direct_data hdata).2
      rw [hdirect] at hbounce
      cases hbounce
  · intro hbounce
    split_ifs at hdata with hsmall
    · have husing := (bounce_data hdata).2.2
      rw [hsize, decide_eq_true hpos] at husing
      rw [husing] at hbounce
      cases hbounce
    · have hcells := (direct_data hdata).1
      rw [hsize] at hcells
      exact hcells

theorem bounce_mem (hadm : s.Admissible r)
    (hdata : submitData r.layout.ioData r.layout.ioLength r.layout.slot.data = some data)
    {cell : ℕ} (hcell : cell ∉ r.footprint) : s.bounce r data cell = s.mem cell := by
  have hf := fits_of_submitData hadm hdata 0 (s.op r)
  unfold bounce
  split_ifs with hcopy
  · rw [Bool.and_eq_true] at hcopy
    have hsmall := (hf.bounced hcopy.1).2
    rw [copy_of_notMem, prepare_mem hcell]
    intro hmem
    exact hcell (List.mem_append_right _ (bufferCells_mono hsmall hmem))
  · exact prepare_mem hcell

/-- The header is in the request buffer. -/
theorem prepare_header (hadm : s.Admissible r) : r.reqCells.map (s.prepare r) = s.header r := by
  unfold prepare
  apply map_write _ (PipelinedRequest.parts hadm.nodup).req
  rw [r.reqCells_length]
  exact (requestBytes_length _ _ _ _).symm

theorem bounce_header (hadm : s.Admissible r)
    (hdata : submitData r.layout.ioData r.layout.ioLength r.layout.slot.data = some data) :
    r.reqCells.map (s.bounce r data) = s.header r := by
  have hparts := PipelinedRequest.parts hadm.nodup
  have hf := fits_of_submitData hadm hdata 0 (s.op r)
  unfold bounce
  split_ifs with hcopy
  · rw [Bool.and_eq_true] at hcopy
    have hsmall := (hf.bounced hcopy.1).2
    rw [← prepare_header hadm]
    apply List.map_congr_left
    intro cell hcell
    exact copy_of_notMem fun hmem => hparts.reqBounce hcell (bufferCells_mono hsmall hmem)
  · exact prepare_header hadm

/-- The write data are where the device will read them. -/
theorem bounce_payload (hadm : s.Admissible r)
    (hdata : submitData r.layout.ioData r.layout.ioLength r.layout.slot.data = some data)
    (hwrite : r.isWrite = true) :
    (segmentCells data.toList).map (s.bounce r data) = (s.op r).data := by
  have hparts := PipelinedRequest.parts hadm.nodup
  have hf := fits_of_submitData hadm hdata 0 (s.op r)
  have huser : (r.layout.userCells r.req.ioLength.toNat).map (s.prepare r) =
      (r.layout.userCells r.req.ioLength.toNat).map s.mem := by
    apply List.map_congr_left
    intro cell hcell
    exact prepare_of_notMem (fun hmem => hparts.reqUser hmem hcell)
      (fun hmem => hparts.respUser hmem hcell)
  have hop : (s.op r).data = (r.layout.userCells r.req.ioLength.toNat).map s.mem := by
    unfold op
    rw [hwrite]
    rfl
  rw [hop, ← huser]
  unfold bounce
  cases hbounce : data.usingBounce with
  | true =>
      obtain ⟨hcells, hsmall⟩ := hf.bounced hbounce
      rw [hwrite, if_pos (by decide), show segmentCells data.toList = _ from hcells]
      apply map_copy
      · exact bounceCells_nodup _ hsmall
      · simp [bounceCells, userCells, bufferCells_length]
  | false =>
      rw [if_neg (by simp), show segmentCells data.toList = _ from hf.direct hbounce]

/-- What the device will find is the operation the client asked for. -/
theorem requests_submit (hadm : s.Admissible r)
    (hdata : submitData r.layout.ioData r.layout.ioLength r.layout.slot.data = some data)
    (serial : ℕ) :
    let f : Flight := ⟨r, data, serial, s.op r⟩
    Requests s.media (f.outCells.map (s.bounce r data)) (f.inCells.length - respCmdSize)
      (s.op r) := by
  intro f
  have hf := fits_of_submitData hadm hdata serial (s.op r)
  have hpos := hadm.nonempty
  have hheader := bounce_header hadm hdata
  have hheaderLength : (s.header r).length = reqCmdSize := requestBytes_length _ _ _ _
  have hout : f.outCells.map (s.bounce r data) =
      s.header r ++ (if r.isWrite then f.dataCells else []).map (s.bounce r data) := by
    unfold Flight.outCells
    rw [List.map_append, hheader]
  have hblksz := (s.units r.unit).geometry.blksz_pos
  constructor
  · refine ⟨_, _, ?_, (submitBlockIoCdb_conveys (s.units r.unit).geometry r.req.offset64
      r.req.ioLength r.isWrite).decoded, rfl, ?_⟩
    · rw [hout]
      exact parseRequest_requestBytes hadm.lun _ _ _
    · intro m hm
      rw [hadm.blockSize m hm]
      have hblocks : 1 ≤ r.req.ioLength.toNat / (s.units r.unit).geometry.blksz.toNat :=
        (Nat.one_le_div_iff hblksz).mpr (Nat.le_of_dvd hpos hadm.length)
      refine ⟨Nat.div_mul_cancel hadm.offset, ?_, hblksz⟩
      show max 1 _ * _ = _
      rw [max_eq_right hblocks]
      exact Nat.div_mul_cancel hadm.length
  · intro hwrite
    have hwrite' : r.isWrite = true := hwrite
    rw [hout, List.drop_left' hheaderLength, if_pos hwrite']
    exact bounce_payload hadm hdata hwrite'
  · intro hwrite
    have hwrite' : r.isWrite = true := hwrite
    unfold op
    rw [if_pos hwrite']
    simp [userCells, bufferCells_length]
  · intro hread
    have hread' : f.request.isWrite = false := hread
    unfold Flight.inCells
    rw [if_neg (by rw [hread']; decide), List.length_append, PipelinedRequest.respCells_length,
      Nat.add_sub_cancel_left]
    exact hf.dataCells_length

/-- `Submit` in one statement: an error that is replied at once, or a chain
for the device. -/
theorem submit_cases (hadm : s.Admissible r) (hsubmit : s.submit r = some s') :
    s.flight r.key = none ∧
      ((s.submitCode r ≠ 0 ∧ ∃ mem, s' = s.refuse r mem (s.submitCode r) ∧
          ∀ cell, cell ∉ r.footprint → mem cell = s.mem cell) ∨
        (s.submitCode r = 0 ∧ ∃ data,
          submitData r.layout.ioData r.layout.ioLength r.layout.slot.data = some data ∧
          (r.sgList data).outNum + (r.sgList data).inNum ≤ maxSgEntries ∧
          (s.shared.addBuf (r.sgList data).get (r.sgList data).outNum (r.sgList data).inNum
            (.slot r.unit r.slot) r.layout.slot.exec r.place).1 = 0 ∧
          s' = { s with
            shared := (s.shared.addBuf (r.sgList data).get (r.sgList data).outNum
              (r.sgList data).inNum (.slot r.unit r.slot) r.layout.slot.exec r.place).2
            mem := s.bounce r data
            flight := Function.update s.flight r.key
              (some ⟨r, data, s.shared.queue.hist.added.length, s.op r⟩) })) := by
  unfold submit at hsubmit
  cases hflight : s.flight r.key with
  | some f =>
      rw [hflight] at hsubmit
      cases hsubmit
  | none =>
      rw [hflight] at hsubmit
      refine ⟨rfl, ?_⟩
      unfold submitCode
      cases hdata : submitData r.layout.ioData r.layout.ioLength r.layout.slot.data with
      | none =>
          rw [hdata] at hsubmit
          cases hsubmit
          exact .inl ⟨show hferrDma ≠ 0 by decide, _, rfl, fun cell hcell => prepare_mem hcell⟩
      | some data =>
          rw [hdata] at hsubmit
          dsimp only at hsubmit ⊢
          by_cases hlong : maxSgEntries < (r.sgList data).outNum + (r.sgList data).inNum
          · rw [if_pos hlong] at hsubmit ⊢
            cases hsubmit
            exact .inl ⟨by decide, _, rfl, fun cell hcell => bounce_mem hadm hdata hcell⟩
          rw [if_neg hlong] at hsubmit ⊢
          by_cases hrc : (s.shared.addBuf (r.sgList data).get (r.sgList data).outNum
              (r.sgList data).inNum (.slot r.unit r.slot) r.layout.slot.exec r.place).1 ≠ 0
          · rw [if_pos hrc] at hsubmit ⊢
            cases hsubmit
            exact .inl ⟨by decide, _, rfl, fun cell hcell => bounce_mem hadm hdata hcell⟩
          · rw [if_neg hrc] at hsubmit ⊢
            cases hsubmit
            exact .inr ⟨rfl, data, rfl, Nat.le_of_not_lt hlong, not_not.mp hrc, rfl⟩

end DataPath

end VirtioScsi
