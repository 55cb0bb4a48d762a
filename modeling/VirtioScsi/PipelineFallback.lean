import VirtioScsi.DoioAttempts

/-!
# The pipeline and its fallback

`submit_block_io` sends a request through a slot of the pipeline, and
`complete_inflight_slot` reports it; without a free slot `VirtIOSCSI_DoIO`
does both.  The two ways are compared for a device whose answers are a function
of the commands it has received.  They differ after a CHECK CONDITION, which
only `DoIO` answers with another attempt.
-/

namespace VirtioScsi

open Virtqueue

/-! ## What keeps a request from the device -/

/-- The error of a request whose data has these segments (`none` if it cannot
be mapped) before it is in the queue. -/
def sgRefusal (isWrite : Bool) (req resp : List VringSg) (vq : Virtqueue ReqBuf)
    (exec : IndirectEnv) : Option (List VringSg) → Option Int
  | none => some hferrDma
  | some data =>
      let sg := buildSg isWrite req resp data
      let total := sg.outNum + sg.inNum
      if maxSgEntries < total then some hferrDma
      else if vq.numFree.toNat < (addBufPath vq.useIndirect total exec).needed total then
        some tderrNotSpecified
      else none

section Refusal

variable {isWrite : Bool} {req resp : List VringSg} {vq : Virtqueue ReqBuf}
  {exec : IndirectEnv} {data : Option (List VringSg)}

theorem sgRefusal_error {error : Int}
    (h : sgRefusal isWrite req resp vq exec data = some error) :
    error = hferrDma ∨ error = tderrNotSpecified := by
  cases data with
  | none =>
      cases h
      exact .inl rfl
  | some data =>
      unfold sgRefusal at h
      dsimp only at h
      split_ifs at h
      · cases h
        exact .inl rfl
      · cases h
        exact .inr rfl

theorem sgRefusal_ne_zero {error : Int}
    (h : sgRefusal isWrite req resp vq exec data = some error) : error ≠ 0 := by
  rcases sgRefusal_error h with rfl | rfl
  · decide
  · decide

theorem addBuf_refuses_iff (sg : SgList) (cookie : ReqBuf) :
    (vq.addBuf sg.get sg.outNum sg.inNum cookie exec).rc ≠ 0 ↔
      vq.numFree.toNat < (addBufPath vq.useIndirect (sg.outNum + sg.inNum) exec).needed
        (sg.outNum + sg.inNum) := by
  have houtcome : AddBufOutcome vq (sg.outNum + sg.inNum)
      (addBufPath vq.useIndirect (sg.outNum + sg.inNum) exec)
      (vq.addBuf sg.get sg.outNum sg.inNum cookie exec) := addBuf_outcome
  rw [houtcome.code]
  split_ifs with hroom
  · simp [hroom]
  · simp [hroom]

theorem sgRefusal_some (data : List VringSg) (cookie : ReqBuf) :
    sgRefusal isWrite req resp vq exec (some data) =
      let sg := buildSg isWrite req resp data
      if maxSgEntries < sg.outNum + sg.inNum then some hferrDma
      else if (vq.addBuf sg.get sg.outNum sg.inNum cookie exec).rc ≠ 0 then
        some tderrNotSpecified
      else none := by
  simp only [sgRefusal, addBuf_refuses_iff]

end Refusal

theorem submitBlockIo_refusal (g : UnitGeometry) (req : IOStdReq) (isWrite : Bool)
    (env : BlockEnv) :
    (∃ error, sgRefusal isWrite env.reqDma env.respDma env.vq env.exec (env.mapped req) =
        some error ∧ submitBlockIo g req isWrite env = .rejected error) ∨
      (sgRefusal isWrite env.reqDma env.respDma env.vq env.exec (env.mapped req) = none ∧
        ∃ data, submitBlockIo g req isWrite env =
          .submitted (submitBlockIoCdb g req.offset64 req.ioLength isWrite) data) := by
  unfold submitBlockIo
  cases env.mapped req with
  | none => exact .inl ⟨hferrDma, rfl, rfl⟩
  | some data =>
      rw [sgRefusal_some data env.buf]
      unfold BlockEnv.sgList
      dsimp only
      split_ifs
      · exact .inl ⟨hferrDma, rfl, rfl⟩
      · exact .inl ⟨tderrNotSpecified, rfl, rfl⟩
      · exact .inr ⟨rfl, data, rfl⟩

namespace DoioCall

/-- What keeps an attempt of `DoIO` from the device. -/
def refusal (c : DoioCall) (bufs : UnitBuffers) (env : AttemptEnv) : Option Int :=
  sgRefusal c.isWrite bufs.reqDma bufs.respDma env.vq env.exec
    ((c.prepareData env.data).1.map DmaBuffer.entries)

theorem comesTo_refusal (c : DoioCall) (bufs : UnitBuffers) (env : AttemptEnv) :
    c.comesTo bufs env =
      match c.refusal bufs env with
      | some error => .failed error
      | none => env.answer.elim .timedOut .answered := by
  unfold comesTo refusal
  cases (c.prepareData env.data).1 with
  | none => rfl
  | some db =>
      rw [Option.map_some, sgRefusal_some db.entries c.buf]
      unfold sgList
      dsimp only
      split_ifs
      · rfl
      · rfl
      · cases env.answer with
        | none => rfl
        | some r => rfl

variable {c : DoioCall} {bufs : UnitBuffers} {env : AttemptEnv}

theorem attempt_refused {error : Int} (hrefused : c.refusal bufs env = some error)
    (tries : ℕ) (run : DoioRun) :
    ∃ run', c.attempt bufs tries env run = .leave run' ∧ run'.result = error ∧
      run'.submitted = run.submitted := by
  have hcomes := comesTo_refusal c bufs env
  rw [hrefused] at hcomes
  have hcases := attempt_cases c bufs tries env run
  generalize c.attempt bufs tries env run = turn at hcases ⊢
  rw [hcomes] at hcases
  cases hcases with
  | failed hreleased => exact ⟨_, rfl, rfl, rfl⟩

end DoioCall

/-! ## The two ways of a request -/

/-- A command as the device receives it. -/
structure ReceivedCommand where
  target : BitVec 8
  lun : BitVec 16
  cdb : Cdb
deriving DecidableEq, Repr

/-- What is reported for a request, and how often its command was sent. -/
structure BlockReport where
  ioError : Int
  ioActual : BitVec 32
  executions : ℕ
deriving DecidableEq, Repr

/-- A block request of a unit and what it meets on either way: the slot it
would get; the entries of the unit's own buffers and the attempts of `DoIO`
without one; the commands the device received before it, and those that arrive
between the attempts. -/
structure BlockPaths where
  unit : UnitNum
  target : BitVec 32
  lun : BitVec 32
  geometry : UnitGeometry
  req : IOStdReq
  isWrite : Bool
  slot : BlockEnv
  bufs : UnitBuffers
  attempt : ℕ → AttemptEnv
  past : List ReceivedCommand
  others : ℕ → List ReceivedCommand
  slotFree : slot.slotFree = true
  modern_eq : ∀ k, (attempt k).vq.modern = slot.vq.modern

/-- What `submit_block_io` makes of a `DoIO` call; its `residual` starts at 0. -/
def DoioRun.report (run : DoioRun) (ioLength : BitVec 32) : BlockReport :=
  if run.result ≠ 0 then ⟨run.result, 0, run.submitted⟩
  else ⟨0, ioLength - run.residual.getD 0, run.submitted⟩

namespace DoioCall

variable {c : DoioCall} {bufs : UnitBuffers}

theorem attempts_leave {env : ℕ → AttemptEnv} {tries : ℕ} {run run' : DoioRun}
    (hleave : c.attempt bufs tries (env run.made) run = .leave run') :
    c.attempts bufs env (tries + 1) run = run' := by
  rw [attempts, hleave]

theorem attempts_again {env : ℕ → AttemptEnv} {tries : ℕ} {run run' : DoioRun}
    (hagain : c.attempt bufs tries (env run.made) run = .again run') :
    c.attempts bufs env (tries + 1) run = c.attempts bufs env tries run' := by
  rw [attempts, hagain]

theorem check_again {modern : Bool} {r : Response} (hchecked : r.CheckCondition)
    (tries : ℕ) (run : DoioRun) :
    ∃ run', c.check modern (tries + 1) r run = .again run' ∧ run'.made = run.made ∧
      run'.submitted = run.submitted := by
  unfold check
  rw [if_neg (not_not.mpr hchecked.1)]
  dsimp only
  rw [if_pos hchecked.2, if_pos (Nat.succ_pos tries)]
  exact ⟨_, rfl, rfl, rfl⟩

theorem check_done {modern : Bool} {r : Response} (hdone : ¬ r.CheckCondition)
    (tries : ℕ) (run : DoioRun) :
    ∃ run', c.check modern tries r run = .leave run' ∧
      run'.report c.dataLen = ⟨(completionStatus modern r c.dataLen).1,
        (completionStatus modern r c.dataLen).2, run.submitted⟩ := by
  unfold check completionStatus DoioRun.report
  dsimp only
  by_cases hresponse : r.response ≠ virtioScsiSOk
  · rw [if_pos hresponse]
    refine ⟨_, rfl, ?_⟩
    have hmapped : mapScsiError r.response r.status (r.sense &&& 0x0F) =
        tderrNotSpecified := if_pos hresponse
    rw [hmapped]
    rfl
  rw [if_neg hresponse]
  rw [not_not] at hresponse
  have hcheck : r.status ≠ 2 := fun hstatus => hdone ⟨hresponse, hstatus⟩
  rw [if_neg hcheck]
  by_cases hgood : r.status = 0
  · rw [if_pos hgood]
    refine ⟨_, rfl, ?_⟩
    have hmapped : mapScsiError r.response r.status (r.sense &&& 0x0F) = 0 := by
      simp [mapScsiError, hresponse, hgood]
    rw [hmapped]
    by_cases hlarge : c.dataLen < r.residualNative modern
    · simp [hlarge]
    · simp [hlarge]
  · rw [if_neg hgood]
    refine ⟨_, rfl, ?_⟩
    have hmapped : ∀ key, mapScsiError r.response r.status key = hferrBadStatus := by
      intro key
      unfold mapScsiError
      rw [if_neg (not_not.mpr hresponse), if_neg hgood, if_pos hcheck]
    dsimp only
    rw [hmapped, hmapped]
    rfl

theorem attempt_sent {env : AttemptEnv} {r : Response}
    (haccepted : c.refusal bufs env = none)
    (hanswer : env.answer = some r) (tries : ℕ) (run : DoioRun) :
    ∃ ops, c.attempt bufs tries env run = c.check env.vq.modern tries r { run with
      made := run.made + 1, ops := run.ops ++ ops, submitted := run.submitted + 1 } := by
  have hcomes := comesTo_refusal c bufs env
  rw [haccepted, hanswer] at hcomes
  have hcases := attempt_cases c bufs tries env run
  generalize c.attempt bufs tries env run = turn at hcases ⊢
  rw [hcomes] at hcases
  cases hcases with
  | @answered _ ops hreleased => exact ⟨ops, rfl⟩

theorem attempt_again {env : AttemptEnv} {r : Response}
    (haccepted : c.refusal bufs env = none) (hanswer : env.answer = some r)
    (hchecked : r.CheckCondition) (tries : ℕ) (run : DoioRun) :
    ∃ run', c.attempt bufs (tries + 1) env run = .again run' ∧
      run'.made = run.made + 1 ∧ run'.submitted = run.submitted + 1 := by
  obtain ⟨ops, hsent⟩ := attempt_sent haccepted hanswer (tries + 1) run
  rw [hsent]
  exact check_again hchecked tries _

theorem attempt_done {env : AttemptEnv} {r : Response}
    (haccepted : c.refusal bufs env = none) (hanswer : env.answer = some r)
    (hdone : ¬ r.CheckCondition) (tries : ℕ) (run : DoioRun) :
    ∃ run', c.attempt bufs tries env run = .leave run' ∧
      run'.report c.dataLen = ⟨(completionStatus env.vq.modern r c.dataLen).1,
        (completionStatus env.vq.modern r c.dataLen).2, run.submitted + 1⟩ := by
  obtain ⟨ops, hsent⟩ := attempt_sent haccepted hanswer tries run
  rw [hsent]
  exact check_done hdone tries _

end DoioCall

theorem DoioRun.report_executions (run : DoioRun) (ioLength : BitVec 32) :
    (run.report ioLength).executions = run.submitted := by
  unfold report
  split_ifs
  · rfl
  · rfl

namespace BlockPaths

/-- The CDB `submit_block_io` builds for both ways. -/
def cdb (p : BlockPaths) : Cdb :=
  submitBlockIoCdb p.geometry p.req.offset64 p.req.ioLength p.isWrite

def command (p : BlockPaths) (cdb : Cdb) : ReceivedCommand :=
  ⟨p.target.setWidth 8, p.lun.setWidth 16, requestCdb cdb⟩

/-- The commands received up to attempt `k`, if all attempts are sent. -/
def received (p : BlockPaths) : ℕ → List ReceivedCommand
  | 0 => p.past ++ [p.command p.cdb]
  | k + 1 => p.received k ++ p.others k ++ [p.command p.cdb]

/-- `VirtIOSCSI_Submit` and `complete_inflight_slot`. -/
def pipelined (p : BlockPaths) (device : List ReceivedCommand → Response) :
    BlockReport :=
  match submitBlockIo p.geometry p.req p.isWrite p.slot with
  | .rejected error => ⟨error, 0, 0⟩
  | .submitted cdb _ =>
      let status := completionStatus p.slot.vq.modern
        (device (p.past ++ [p.command cdb])) p.req.ioLength
      ⟨status.1, status.2, 1⟩

def call (p : BlockPaths) : DoioCall :=
  ⟨reqBuf p.unit, some p.bufs, p.req.ioData, p.req.ioLength, p.isWrite⟩

def answered (p : BlockPaths) (device : List ReceivedCommand → Response) (k : ℕ) :
    AttemptEnv :=
  { p.attempt k with answer := some (device (p.received k)) }

/-- `VirtIOSCSI_DoIO` instead. -/
def fallback (p : BlockPaths) (device : List ReceivedCommand → Response) :
    BlockReport :=
  (p.call.doio
    { ready := true, req := none, resp := none, reqDma := ⟨[], none⟩,
      respDma := ⟨[], none⟩, attempt := p.answered device }).report p.req.ioLength

def slotRefusal (p : BlockPaths) : Option Int :=
  sgRefusal p.isWrite p.slot.reqDma p.slot.respDma p.slot.vq p.slot.exec
    (p.slot.mapped p.req)

def attemptRefusal (p : BlockPaths) (k : ℕ) : Option Int :=
  p.call.refusal p.bufs (p.attempt k)

/-- The answer to the request's first command. -/
def firstAnswer (p : BlockPaths) (device : List ReceivedCommand → Response) :
    Response :=
  device (p.past ++ [p.command p.cdb])

def completed (p : BlockPaths) (device : List ReceivedCommand → Response) :
    BlockReport :=
  let status := completionStatus p.slot.vq.modern (p.firstAnswer device) p.req.ioLength
  ⟨status.1, status.2, 1⟩

theorem pipelined_eq (p : BlockPaths) (device : List ReceivedCommand → Response) :
    p.pipelined device =
      match p.slotRefusal with
      | some error => ⟨error, 0, 0⟩
      | none => p.completed device := by
  unfold pipelined slotRefusal
  rcases submitBlockIo_refusal p.geometry p.req p.isWrite p.slot with
    ⟨error, hrefused, hrejected⟩ | ⟨hrefused, data, hsubmitted⟩
  · rw [hrefused, hrejected]
  · rw [hrefused, hsubmitted]
    rfl

variable {p : BlockPaths} {device : List ReceivedCommand → Response}

theorem attemptRefusal_eq (p : BlockPaths) (device : List ReceivedCommand → Response)
    (k : ℕ) : p.call.refusal p.bufs (p.answered device k) = p.attemptRefusal k := rfl

theorem fallback_refused {error : Int} (hrefused : p.attemptRefusal 0 = some error) :
    p.fallback device = ⟨error, 0, 0⟩ := by
  have herror : error ≠ 0 := sgRefusal_ne_zero hrefused
  rw [← attemptRefusal_eq p device] at hrefused
  obtain ⟨run', hleave, hresult, hsubmitted⟩ :=
    DoioCall.attempt_refused hrefused 2 (.before tderrNotSpecified [])
  have hrun : p.fallback device = run'.report p.req.ioLength :=
    congrArg (DoioRun.report · p.req.ioLength) (DoioCall.attempts_leave hleave)
  rw [hrun, DoioRun.report, hresult, if_pos herror, hsubmitted]
  rfl

theorem fallback_answered (haccepted : p.attemptRefusal 0 = none)
    (hdone : ¬ (p.firstAnswer device).CheckCondition) :
    p.fallback device = p.completed device := by
  rw [← attemptRefusal_eq p device] at haccepted
  obtain ⟨run', hleave, hreport⟩ := DoioCall.attempt_done haccepted rfl hdone 2
    (.before tderrNotSpecified [])
  have hrun : p.fallback device = run'.report p.req.ioLength :=
    congrArg (DoioRun.report · p.req.ioLength) (DoioCall.attempts_leave hleave)
  rw [hrun]
  refine hreport.trans ?_
  rw [completed, ← p.modern_eq 0]
  rfl

theorem fallback_retried (haccepted : p.attemptRefusal 0 = none)
    (hchecked : (p.firstAnswer device).CheckCondition) :
    (∃ error, p.attemptRefusal 1 = some error ∧ p.fallback device = ⟨error, 0, 1⟩) ∨
      (p.attemptRefusal 1 = none ∧ 2 ≤ (p.fallback device).executions) := by
  rw [← attemptRefusal_eq p device] at haccepted
  obtain ⟨run₁, hagain, hmade, hsubmitted⟩ :=
    DoioCall.attempt_again haccepted rfl hchecked 1 (.before tderrNotSpecified [])
  have hfallback : p.fallback device =
      (p.call.attempts p.bufs (p.answered device) 2 run₁).report p.req.ioLength :=
    congrArg (DoioRun.report · p.req.ioLength) (DoioCall.attempts_again hagain)
  have hsecond : p.answered device run₁.made = p.answered device 1 := by
    rw [hmade]
    rfl
  have hone : run₁.submitted = 1 := hsubmitted
  cases hrefused : p.attemptRefusal 1 with
  | some error =>
      rw [← attemptRefusal_eq p device, ← hsecond] at hrefused
      obtain ⟨run', hleave, hresult, hsame⟩ := DoioCall.attempt_refused hrefused 1 run₁
      have herror : error ≠ 0 := sgRefusal_ne_zero hrefused
      refine .inl ⟨error, rfl, ?_⟩
      rw [hfallback, DoioCall.attempts_leave hleave, DoioRun.report, hresult,
        if_pos herror, hsame, hone]
  | none =>
      rw [← attemptRefusal_eq p device, ← hsecond] at hrefused
      refine .inr ⟨rfl, ?_⟩
      rw [hfallback, DoioRun.report_executions]
      obtain ⟨ops, hsent⟩ := DoioCall.attempt_sent hrefused rfl 1 run₁
      rcases DoioCall.check_cases p.call _ 1 _ _ with
        ⟨-, -, run₂, hagain₂, -, hsecondSent, -⟩ | ⟨run₂, hleave₂, -, hsecondSent, -, -⟩
      · rw [DoioCall.attempts_again (hsent.trans hagain₂)]
        obtain ⟨last, hlooped⟩ := DoioCall.attempts_looped p.call p.bufs
          (p.answered device) 0 run₂
        have hkept := hlooped.kept
        rw [hsecondSent, hone] at hkept
        exact hkept
      · rw [DoioCall.attempts_leave (hsent.trans hleave₂), hsecondSent, hone]

/-! ## When the two ways agree -/

/-- The pipeline and the fallback report the same, and the command is sent
equally often. -/
def Agree (p : BlockPaths) (device : List ReceivedCommand → Response) : Prop :=
  p.pipelined device = p.fallback device

/-- ABORTED COMMAND is reported as the error of a full queue, and no sense key
as that of a mapping. -/
theorem mapScsiError_checked {r : Response} (hchecked : r.CheckCondition) :
    (mapScsiError r.response r.status (r.sense &&& 0x0F) = tderrNotSpecified ↔
        r.sense &&& 0x0F = 0x0B) ∧
      mapScsiError r.response r.status (r.sense &&& 0x0F) ≠ hferrDma := by
  have hkeys : ∀ sense : BitVec 8,
      (mapScsiError virtioScsiSOk 2 (sense &&& 0x0F) = tderrNotSpecified ↔
          sense &&& 0x0F = 0x0B) ∧
        mapScsiError virtioScsiSOk 2 (sense &&& 0x0F) ≠ hferrDma := by decide +kernel
  rw [hchecked.1, hchecked.2]
  exact hkeys r.sense

/-- After a CHECK CONDITION both ways can end alike only by failing. -/
theorem agree_checked (haccepted : p.attemptRefusal 0 = none)
    (hchecked : (p.firstAnswer device).CheckCondition) :
    p.completed device = p.fallback device ↔
      (p.firstAnswer device).sense &&& 0x0F = 0x0B ∧
        p.attemptRefusal 1 = some tderrNotSpecified := by
  obtain ⟨hkey, hdma⟩ := mapScsiError_checked hchecked
  rcases fallback_retried haccepted hchecked with
    ⟨error, hrefused, hfallback⟩ | ⟨hsecond, hmany⟩
  · rw [hfallback, hrefused, Option.some.injEq]
    have hnonzero : error ≠ 0 := sgRefusal_ne_zero hrefused
    have hreport : p.completed device = ⟨error, 0, 1⟩ ↔
        mapScsiError (p.firstAnswer device).response (p.firstAnswer device).status
          ((p.firstAnswer device).sense &&& 0x0F) = error := by
      unfold completed completionStatus
      dsimp only
      by_cases hmapped : mapScsiError (p.firstAnswer device).response
          (p.firstAnswer device).status ((p.firstAnswer device).sense &&& 0x0F) = 0
      · rw [if_neg (not_not.mpr hmapped), hmapped]
        simp [hnonzero.symm]
      · rw [if_pos hmapped]
        simp
    rw [hreport]
    constructor
    · intro hmapped
      rcases sgRefusal_error hrefused with hcause | hcause
      · exact absurd (hmapped.trans hcause) hdma
      · exact ⟨hkey.mp (hmapped.trans hcause), hcause⟩
    · rintro ⟨hsense, hcause⟩
      rw [hcause]
      exact hkey.mpr hsense
  · rw [hsecond]
    apply iff_of_false
    · intro heq
      rw [← heq] at hmany
      exact absurd hmany (Nat.not_succ_le_self 1)
    · simp

theorem fallback_sent (haccepted : p.attemptRefusal 0 = none)
    (device : List ReceivedCommand → Response) : 1 ≤ (p.fallback device).executions := by
  by_cases hchecked : (p.firstAnswer device).CheckCondition
  · rcases fallback_retried haccepted hchecked with ⟨error, -, hfallback⟩ | ⟨-, hmany⟩
    · rw [hfallback]
    · exact (Nat.le_succ 1).trans hmany
  · rw [fallback_answered haccepted hchecked]
    exact le_rfl

/-- The two ways agree exactly if neither gets the request to the device, for
the same reason, or both do and the first answer is no CHECK CONDITION; but for
ABORTED COMMAND when the queue has no room for a second attempt. -/
theorem agree_iff (p : BlockPaths) (device : List ReceivedCommand → Response) :
    p.Agree device ↔
      (∃ error, p.slotRefusal = some error ∧ p.attemptRefusal 0 = some error) ∨
        (p.slotRefusal = none ∧ p.attemptRefusal 0 = none ∧
          (¬ (p.firstAnswer device).CheckCondition ∨
            (p.firstAnswer device).sense &&& 0x0F = 0x0B ∧
              p.attemptRefusal 1 = some tderrNotSpecified)) := by
  unfold Agree
  rw [pipelined_eq]
  cases hslot : p.slotRefusal with
  | some error =>
      cases hfirst : p.attemptRefusal 0 with
      | some error' =>
          rw [fallback_refused hfirst]
          simp [eq_comm]
      | none =>
          have hsent := fallback_sent hfirst device
          apply iff_of_false
          · intro heq
            rw [← heq] at hsent
            exact absurd hsent (Nat.not_succ_le_zero 0)
          · simp
  | none =>
      cases hfirst : p.attemptRefusal 0 with
      | some error' =>
          rw [fallback_refused hfirst]
          apply iff_of_false
          · intro heq
            exact absurd (congrArg BlockReport.executions heq) (Nat.succ_ne_zero 0)
          · simp
      | none =>
          by_cases hchecked : (p.firstAnswer device).CheckCondition
          · simp only [reduceCtorEq, false_and, exists_false, true_and, hchecked,
              not_true_eq_false, false_or]
            exact agree_checked hfirst hchecked
          · rw [fallback_answered hfirst hchecked]
            simp [hchecked]

section Sample

/-- A read of one block, with everything it needs on either way. -/
def sampleRead : BlockPaths where
  unit := 0
  target := 0
  lun := 0
  geometry := sampleGeometry
  req := ⟨.cmdRead, 0, 0, 512, 4096⟩
  isWrite := false
  slot := sampleBlockEnv
  bufs := ⟨[⟨0x1000, 51⟩], [⟨0x2000, 108⟩]⟩
  attempt := fun _ => ⟨⟨[⟨0x5000, 512⟩], some 0x6000⟩,
    Virtqueue.allocate 16 false false false, ⟨none, 0, none⟩, none⟩
  past := []
  others := fun _ => []
  slotFree := rfl
  modern_eq := fun _ => rfl

/-- A device that reports UNIT ATTENTION once. -/
def unitAttentionOnce (received : List ReceivedCommand) : Response :=
  if received.length = 1 then ⟨0, 2, 0, 6⟩ else ⟨0, 0, 0, 0⟩

/-- The pipeline reports a changed disk, the fallback reads the block. -/
theorem agree_fails_unitAttentionOnce : ¬ sampleRead.Agree unitAttentionOnce := by
  have hpipelined : sampleRead.pipelined unitAttentionOnce =
      ⟨tderrDiskChanged, 0, 1⟩ := by decide +kernel
  have hfallback : sampleRead.fallback unitAttentionOnce = ⟨0, 512, 2⟩ := by
    decide +kernel
  unfold Agree
  rw [hpipelined, hfallback]
  decide

end Sample

end BlockPaths

end VirtioScsi
