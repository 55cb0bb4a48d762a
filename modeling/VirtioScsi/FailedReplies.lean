import VirtioScsi.CylinderCounts
import VirtioScsi.ScsiBuffers
import VirtioScsi.UnitService

/-!
# What failed requests report

The places that reply an `IORequest`, with the `io_Actual` they leave.  A
request that failed should report no transferred bytes, but many of them only
store the error: what the client passed in `io_Actual` stays, and that is the
upper half of the offset of a 64-bit command.
-/

namespace VirtioScsi

structure IoReply where
  ioError : BitVec 8
  ioActual : BitVec 32
deriving DecidableEq, Repr

def IoReply.ClaimsNothing (reply : IoReply) : Prop :=
  reply.ioError ≠ 0 → reply.ioActual = 0

def IOStdReq.fail (req : IOStdReq) (error : Int) : IoReply :=
  ⟨BitVec.ofInt 8 error, req.ioActual⟩

theorem IOStdReq.fail_claims {req : IOStdReq} {error : Int}
    (herror : BitVec.ofInt 8 error ≠ 0) :
    (req.fail error).ClaimsNothing ↔ req.ioActual = 0 :=
  ⟨fun h => h herror, fun h _ => h⟩

/-! ## BeginIO -/

/-- The fields of a unit `_manager_BeginIO` reports. -/
structure UnitMedia where
  changeCount : BitVec 32
  mediaPresent : Bool
deriving DecidableEq, Repr

def drive35 : BitVec 32 := 1

/-- `sizeof(struct NSDeviceQueryResult)`. -/
def nsDeviceQueryResultSize : ℕ := 16

/-- `io_Actual` of a command that is answered inline; the request may have no
unit. -/
def inlineActual (unit : Option UnitMedia) (req : IOStdReq) : BitVec 32 :=
  match req.ioCommand with
  | .cmdStop | .cmdStart | .tdMotor => 1
  | .tdChangeNum => unit.elim 0 UnitMedia.changeCount
  | .tdChangeState => if unit.any UnitMedia.mediaPresent then 0 else 1
  | .tdProtStatus => 0
  | .tdGetDriveType => drive35
  | .nscmdDeviceQuery =>
      if req.ioLength.toNat < nsDeviceQueryResultSize then 0
      else BitVec.ofNat 32 nsDeviceQueryResultSize
  | _ => req.ioActual

def inlineReply (unit : Option UnitMedia) (req : IOStdReq) : IoReply :=
  ⟨BitVec.ofInt 8 (req.ioCommand.inlineError req.ioLength), inlineActual unit req⟩

theorem inlineReply_claims (unit : Option UnitMedia) (req : IOStdReq) :
    (inlineReply unit req).ClaimsNothing ↔
      ∀ code, req.ioCommand = .unknown code → req.ioActual = 0 := by
  by_cases hunknown : ∃ code, req.ioCommand = .unknown code
  · obtain ⟨code, hcode⟩ := hunknown
    have hreply : inlineReply unit req = req.fail ioerrNoCmd := by
      unfold inlineReply inlineActual
      rw [hcode]
      rfl
    rw [hreply, IOStdReq.fail_claims (by decide)]
    exact ⟨fun h _ _ => h, fun h => h code hcode⟩
  apply iff_of_true
  · unfold IoReply.ClaimsNothing inlineReply inlineActual
    dsimp only
    cases hcommand : req.ioCommand with
    | unknown code => exact absurd ⟨code, hcommand⟩ hunknown
    | nscmdDeviceQuery =>
        unfold IoCommand.inlineError
        intro herror
        apply if_pos
        by_contra hlong
        exact herror (congrArg (BitVec.ofInt 8) (if_neg hlong))
    | _ =>
        intro herror
        exact absurd rfl herror
  · intro code hcode
    exact absurd ⟨code, hcode⟩ hunknown

/-! ## The unit task -/

/-- What the unit task has and meets when it dispatches a request: the unit,
the caller's structures in `io_Data`, and the slot the request would get. -/
structure DispatchEnv where
  sizes : SdkSizes
  scsiCmdSize : ℕ
  unit : RdbUnit
  rdb : RdbEnv
  geom : DriveGeometry
  geom64 : DriveGeometry64
  scsi : ScsiUnit
  cmd : ScsiCmd
  cdb : ℕ → BitVec 8
  slot : BlockEnv

namespace DispatchEnv

def scsiRequest (d : DispatchEnv) (req : IOStdReq) : ScsiRequest :=
  ⟨d.scsiCmdSize, req, d.cmd, d.cdb⟩

/-- `submit_block_io` without a free slot. -/
def doioFallback (d : DispatchEnv) (req : IOStdReq) (isWrite : Bool) : IoReply :=
  let cdb := submitBlockIoCdb d.unit.geometry req.offset64 req.ioLength isWrite
  let call : DoioCall := ⟨d.scsi.buf, some d.scsi.bufs, req.ioData, req.ioLength, isWrite⟩
  let run := call.doio (d.scsi.doio (requestCdb cdb))
  if run.result ≠ 0 then ⟨BitVec.ofInt 8 run.result, 0⟩
  else ⟨0, req.ioLength - run.residual.getD 0⟩

/-- The reply `submit_block_io` leaves to its caller; `none` if the request is
in a slot. -/
def blockReply (d : DispatchEnv) (req : IOStdReq) (isWrite : Bool) : Option IoReply :=
  if d.slot.slotFree then
    match submitBlockIo d.unit.geometry req isWrite d.slot with
    | .rejected error => some ⟨BitVec.ofInt 8 error, 0⟩
    | .submitted _ _ => none
  else some (d.doioFallback req isWrite)

/-- The handlers of the synchronous commands. -/
def handlerReply (d : DispatchEnv) (req : IOStdReq) : IoReply :=
  match req.ioCommand with
  | .tdGetGeometry =>
      let reply := handleTdGetGeometry d.sizes d.unit.geometry d.geom req d.rdb.capacity
      ⟨reply.ioError, reply.ioActual⟩
  | .nscmdTdGetGeometry64 =>
      let reply := handleNsTdGetGeometry64 d.sizes d.unit.geometry d.geom64 req
        d.rdb.capacity
      ⟨reply.ioError, reply.ioActual⟩
  | .hdScsiCmd =>
      let run := (d.scsiRequest req).parseScsiCommand d.scsi
      ⟨run.ioError, run.ioActual⟩
  | _ =>
      let reply := (handleTdGetNumTracks d.unit d.rdb).value
      ⟨reply.ioError, reply.ioActual⟩

/-- `UnitTask_Dispatch`; `none` if `Harvest` or the drain will reply. -/
def dispatch (d : DispatchEnv) (req : IOStdReq) : Option IoReply :=
  match req.ioCommand.dispatch with
  | .block isWrite => d.blockReply req isWrite
  | .immediate error => some (req.fail error)
  | .synchronous => some (d.handlerReply req)

end DispatchEnv

/-- Where a request is replied: by `_manager_BeginIO`, also when there is no
unit or port; from a held field; by `_manager_AbortIO` or the drain of the
port; by `UnitTask_Dispatch`; and out of a slot, by `complete_inflight_slot` or
the drain. -/
inductive Ending where
  | inline (unit : Option UnitMedia)
  | unopened
  | released (error : Int)
  | removed
  | dispatched (d : DispatchEnv)
  | completed (d : DispatchEnv) (modern : Bool) (r : Response)
  | drained (d : DispatchEnv)

namespace Ending

/-- The reply, if the request can end like this. -/
def reply (req : IOStdReq) : Ending → Option IoReply
  | inline unit =>
      match req.ioCommand.beginIo with
      | .retire | .inline => some (inlineReply unit req)
      | _ => none
  | unopened =>
      match req.ioCommand.beginIo with
      | .hold _ | .queued => some (req.fail ioerrOpenFail)
      | _ => none
  | released error =>
      match req.ioCommand.beginIo with
      | .hold _ => some (req.fail error)
      | _ => none
  | removed => if req.ioCommand.beginIo = .queued then some (req.fail ioerrAborted) else none
  | dispatched d => if req.ioCommand.beginIo = .queued then d.dispatch req else none
  | completed d modern r =>
      if req.ioCommand.beginIo = .queued ∧ d.dispatch req = none then
        let status := completionStatus modern r req.ioLength
        some ⟨BitVec.ofInt 8 status.1, status.2⟩
      else none
  | drained d =>
      if req.ioCommand.beginIo = .queued ∧ d.dispatch req = none then
        some (req.fail ioerrAborted)
      else none

end Ending

/-! ## SCSI direct commands -/

namespace ScsiRun

variable {u : ScsiUnit} {cdb : ℕ → BitVec 8} {r : ScsiRun} {isWrite : Bool}

def reply (r : ScsiRun) : IoReply := ⟨r.ioError, r.ioActual⟩

theorem fail_claims {error : Int} (herror : BitVec.ofInt 8 error ≠ 0) :
    (r.fail error).reply.ClaimsNothing ↔ r.ioActual = 0 :=
  ⟨fun h => h herror, fun h _ => h⟩

def TransferSettled (u : ScsiUnit) (cdb : ℕ → BitVec 8) (isWrite : Bool) (r : ScsiRun) :
    Prop :=
  let call : DoioCall := ⟨u.buf, some u.bufs, r.cmd.data, r.cmd.length, isWrite⟩
  let told := call.told (u.doio (r.headerCdb cdb))
  told.result = 0 ∨ told.residual = r.cmd.length

/-- A transfer that fails claims nothing exactly under the condition for transfers. -/
theorem transfer_claims :
    (r.transfer u cdb isWrite).reply.ClaimsNothing ↔ r.TransferSettled u cdb isWrite := by
  unfold transfer TransferSettled reply IoReply.ClaimsNothing
  rw [passThrough_eq]
  dsimp only
  rw [ne_eq, DoioCall.told_result_byte, ← or_iff_not_imp_left]
  apply or_congr_right
  constructor
  · intro hzero
    exact (sub_eq_zero.mp hzero).symm
  · intro hall
    rw [hall]
    exact BitVec.sub_self _

theorem testUnitReady_claims :
    (r.handleScsiTestUnitReady u cdb).reply.ClaimsNothing := by
  unfold handleScsiTestUnitReady
  rw [passThrough_eq]
  intro _
  rfl

theorem readCapacity10_claims :
    (r.handleScsiReadCapacity10 u cdb).reply.ClaimsNothing ↔
      if r.cmd.length.toNat < 8 then r.ioActual = 0 else r.TransferSettled u cdb false := by
  unfold handleScsiReadCapacity10
  by_cases hshort : r.cmd.length.toNat < 8
  · rw [if_pos hshort, if_pos hshort]
    exact fail_claims (by decide)
  · rw [if_neg hshort, if_neg hshort]
    exact transfer_claims

theorem vpd_claims (page : Option (List (BitVec 8))) (pageCode : BitVec 8) :
    (match page with
      | some page => r.vpdPage pageCode page
      | none => r.vpdIllegalPage).reply.ClaimsNothing := by
  cases page with
  | none =>
      intro _
      unfold vpdIllegalPage
      dsimp only
      split_ifs
      · rfl
      · rfl
  | some page =>
      dsimp only
      rw [vpdPage_eq]
      split_ifs
      · intro _
        rfl
      · intro herror
        exact absurd rfl herror

theorem inquiry_claims :
    (r.handleScsiInquiry u cdb).reply.ClaimsNothing ↔
      (5 ≤ r.cmd.length.toNat → r.evpd cdb = false → r.TransferSettled u cdb false) := by
  unfold handleScsiInquiry
  by_cases hshort : r.cmd.length.toNat < 5
  · rw [if_pos hshort]
    apply iff_of_true
    · intro _
      rfl
    · intro hlength
      exact absurd hshort (Nat.not_lt.mpr hlength)
  rw [if_neg hshort, forall_prop_of_true (Nat.le_of_not_lt hshort)]
  by_cases hevpd : r.evpd cdb = false
  · rw [if_pos hevpd, forall_prop_of_true hevpd]
    exact transfer_claims
  · rw [if_neg hevpd]
    apply iff_of_true
    · exact vpd_claims _ _
    · intro hfalse
      exact absurd hfalse hevpd

theorem logSense_claims (hstatus : r.cmd.status = 0) :
    (r.handleScsiLogSense cdb).reply.ClaimsNothing ↔
      (r.cmd.data ≠ 0 → (allocationLength cdb).toNat ≠ 0 →
        logPageOf (logPageCode cdb) = none → r.ioActual = 0) := by
  rw [handleScsiLogSense_eq hstatus]
  by_cases hnone : r.cmd.data = 0 ∨ (allocationLength cdb).toNat = 0
  · rw [if_pos hnone]
    apply iff_of_true
    · intro _
      rfl
    · intro hdata halloc
      exact absurd hnone (not_or.mpr ⟨hdata, halloc⟩)
  rw [if_neg hnone]
  obtain ⟨hdata, halloc⟩ := not_or.mp hnone
  rw [forall_prop_of_true hdata, forall_prop_of_true halloc]
  cases hpage : logPageOf (logPageCode cdb) with
  | none =>
      rw [forall_prop_of_true rfl]
      exact fail_claims (by decide)
  | some page =>
      apply iff_of_true
      · intro _
        rfl
      · intro habsurd
        cases habsurd

theorem ataPassthrough_claims :
    (r.handleScsiAtaPassthrough cdb).reply.ClaimsNothing ↔
      (ataCommand cdb ≠ 0xB0 ∨ r.cmd.data = 0 ∨ r.cmd.length.toNat < 512 →
        r.ioActual = 0) := by
  unfold handleScsiAtaPassthrough
  by_cases hcommand : ataCommand cdb ≠ 0xB0
  · rw [if_pos hcommand, forall_prop_of_true (.inl hcommand)]
    exact fail_claims (by decide)
  rw [if_neg hcommand, or_iff_right hcommand]
  by_cases hroom : r.cmd.data = 0 ∨ r.cmd.length.toNat < 512
  · rw [if_pos hroom, forall_prop_of_true hroom]
    exact fail_claims (by decide)
  · rw [if_neg hroom]
    apply iff_of_true
    · intro _
      rfl
    · intro hrefused
      exact absurd hrefused hroom

end ScsiRun

namespace ScsiRequest

/-- When `Parse_SCSI_Command` leaves no count next to an error: the exits that
do not touch `io_Actual` need a 0 there, and the transfers a whole residual. -/
def Settled (q : ScsiRequest) (u : ScsiUnit) : Prop :=
  if q.Refused then q.req.ioActual = 0
  else
    match q.opcode with
    | .testUnitReady => True
    | .inquiry => 5 ≤ q.cmd.length.toNat → q.begin.evpd q.cdb = false →
        q.begin.TransferSettled u q.cdb false
    | .readCapacity10 =>
        if q.cmd.length.toNat < 8 then q.req.ioActual = 0
        else q.begin.TransferSettled u q.cdb false
    | .read10 => q.begin.TransferSettled u q.cdb false
    | .write10 => q.begin.TransferSettled u q.cdb true
    | .logSense => q.cmd.data ≠ 0 → (ScsiRun.allocationLength q.cdb).toNat ≠ 0 →
        ScsiRun.logPageOf (ScsiRun.logPageCode q.cdb) = none → q.req.ioActual = 0
    | .ataPassthrough => ScsiRun.ataCommand q.cdb ≠ 0xB0 ∨ q.cmd.data = 0 ∨
        q.cmd.length.toNat < 512 → q.req.ioActual = 0
    | .unsupported => q.req.ioActual = 0

theorem parse_claims (q : ScsiRequest) (u : ScsiUnit) :
    (q.parseScsiCommand u).reply.ClaimsNothing ↔ q.Settled u := by
  unfold Settled
  by_cases hrefused : q.Refused
  · obtain ⟨error, herror, hparse⟩ := parse_of_refused (u := u) hrefused
    rw [hparse, if_pos hrefused]
    exact ScsiRun.fail_claims herror
  rw [if_neg hrefused, parse_of_accepted hrefused]
  cases q.opcode with
  | testUnitReady => exact iff_of_true ScsiRun.testUnitReady_claims trivial
  | inquiry => exact ScsiRun.inquiry_claims
  | readCapacity10 => exact ScsiRun.readCapacity10_claims
  | read10 => exact ScsiRun.transfer_claims
  | write10 => exact ScsiRun.transfer_claims
  | logSense => exact ScsiRun.logSense_claims rfl
  | ataPassthrough => exact ScsiRun.ataPassthrough_claims
  | unsupported =>
      have hkept : ((q.begin.setStatus checkCondition).fillAutoSense illegalRequest 0x20
          0x00).ioActual = q.req.ioActual := by
        unfold ScsiRun.fillAutoSense
        dsimp only
        split_ifs
        · rfl
        · rfl
      rw [← hkept]
      exact ScsiRun.fail_claims (by decide)

end ScsiRequest

/-! ## Every ending -/

theorem UnitGeometry.ensure_valid {g : UnitGeometry} {doio : Doio}
    (hok : (g.ensure doio).1 = 0) : (g.ensure doio).2.geometryValid = true := by
  have hbad : hferrBadStatus ≠ 0 := by decide
  revert hok
  unfold ensure ensureGeometryCached
  dsimp only
  split_ifs with hvalid hrc hstatus hlarge hrc16 hstatus16
  · intro _
    exact hvalid
  · intro hok
    exact absurd hok hrc
  · intro hok
    exact absurd hok hbad
  · intro hok
    exact absurd hok hrc16
  · intro hok
    exact absurd hok hbad
  · intro _
    rfl
  · intro _
    rfl

theorem handleGetGeometry_claims {δ : Type} {size : ℕ} {zero geom : δ}
    {fill : UnitGeometry → δ} {unreported : BitVec 32 → BitVec 32}
    {g : UnitGeometry} {req : IOStdReq} {doio : Doio} :
    let reply := handleGetGeometry size zero fill unreported g geom req doio
    (IoReply.mk reply.ioError reply.ioActual).ClaimsNothing ↔
      (req.ioLength.toNat < size → req.ioActual = 0) := by
  dsimp only
  by_cases hshort : req.ioLength.toNat < size
  · rw [handleGetGeometry_of_short (Nat.not_le.mpr hshort), forall_prop_of_true hshort]
    exact IOStdReq.fail_claims (by decide)
  apply iff_of_true
  · unfold handleGetGeometry IoReply.ClaimsNothing
    dsimp only
    rw [if_neg hshort]
    by_cases hrc : (g.ensure doio).1 ≠ 0
    · rw [if_pos hrc]
      intro _
      rfl
    · rw [if_neg hrc, if_pos (UnitGeometry.ensure_valid (not_not.mp hrc))]
      intro herror
      exact absurd rfl herror
  · intro h
    exact absurd h hshort

theorem IoCommand.dispatch_queued {c : IoCommand} {error : Int}
    (hqueued : c.beginIo = .queued) (h : c.dispatch = .immediate error) : error = 0 := by
  cases c with
  | cmdUpdate | cmdFlush | etdUpdate | nscmdTdSeek64 | nscmdTdChangeUnit
  | nscmdTdAddStatCallback | nscmdTdRemStatCallback | nscmdEtdSeek64 =>
      cases h
      rfl
  | _ => simp_all [IoCommand.beginIo, IoCommand.dispatch]

namespace DispatchEnv

variable {d : DispatchEnv} {req : IOStdReq} {reply : IoReply}

theorem blockReply_claims {isWrite : Bool} (h : d.blockReply req isWrite = some reply) :
    reply.ClaimsNothing := by
  unfold blockReply at h
  split_ifs at h
  · cases hblock : submitBlockIo d.unit.geometry req isWrite d.slot with
    | rejected error =>
        rw [hblock] at h
        cases h
        intro _
        rfl
    | submitted cdb data =>
        rw [hblock] at h
        cases h
  · cases h
    unfold doioFallback
    dsimp only
    split_ifs
    · intro _
      rfl
    · intro herror
      exact absurd rfl herror

/-- When a dispatched request leaves no count next to an error. -/
def Settled (d : DispatchEnv) (req : IOStdReq) : Prop :=
  match req.ioCommand with
  | .tdGetGeometry => req.ioLength.toNat < d.sizes.driveGeometry → req.ioActual = 0
  | .nscmdTdGetGeometry64 =>
      req.ioLength.toNat < d.sizes.driveGeometry64 → req.ioActual = 0
  | .hdScsiCmd => (d.scsiRequest req).Settled d.scsi
  | _ => True

theorem tracks_claims (u : RdbUnit) (env : RdbEnv) :
    (handleTdGetNumTracks u env).value.ioError = 0 := by
  unfold handleTdGetNumTracks
  dsimp only
  split_ifs
  · rfl
  · rfl
  · rfl

theorem dispatch_claims (hqueued : req.ioCommand.beginIo = .queued)
    (h : d.dispatch req = some reply) : reply.ClaimsNothing ↔ d.Settled req := by
  unfold dispatch at h
  unfold Settled
  cases hdispatch : req.ioCommand.dispatch with
  | block isWrite =>
      rw [hdispatch] at h
      apply iff_of_true (blockReply_claims h)
      cases hcommand : req.ioCommand with
      | tdGetGeometry | nscmdTdGetGeometry64 | hdScsiCmd =>
          rw [hcommand] at hdispatch
          cases hdispatch
      | _ => trivial
  | immediate error =>
      rw [hdispatch] at h
      cases h
      apply iff_of_true
      · rw [IoCommand.dispatch_queued hqueued hdispatch]
        intro herror
        exact absurd rfl herror
      · cases hcommand : req.ioCommand with
        | tdGetGeometry | nscmdTdGetGeometry64 | hdScsiCmd =>
            rw [hcommand] at hdispatch
            cases hdispatch
        | _ => trivial
  | synchronous =>
      rw [hdispatch] at h
      cases h
      unfold handlerReply
      cases hcommand : req.ioCommand with
      | tdGetGeometry => exact handleGetGeometry_claims
      | nscmdTdGetGeometry64 => exact handleGetGeometry_claims
      | hdScsiCmd => exact (d.scsiRequest req).parse_claims d.scsi
      | _ =>
          apply iff_of_true
          · intro herror
            exact absurd (tracks_claims d.unit d.rdb) herror
          · trivial

end DispatchEnv

namespace Ending

/-- When a reply leaves no count next to an error.  Where the request was
replied without a handler, that is left to the client. -/
def Settled (req : IOStdReq) : Ending → Prop
  | inline _ => ∀ code, req.ioCommand = .unknown code → req.ioActual = 0
  | unopened => req.ioActual = 0
  | released error => BitVec.ofInt 8 error ≠ 0 → req.ioActual = 0
  | removed => req.ioActual = 0
  | dispatched d => d.Settled req
  | completed _ _ _ => True
  | drained _ => req.ioActual = 0

/-- A completion with an error is replied to with a count of 0. -/
theorem completed_claims (modern : Bool) (r : Response) (ioLength : BitVec 32) :
    (IoReply.mk (BitVec.ofInt 8 (completionStatus modern r ioLength).1)
      (completionStatus modern r ioLength).2).ClaimsNothing := by
  unfold completionStatus IoReply.ClaimsNothing
  dsimp only
  split_ifs
  · intro _
    rfl
  · intro herror
    exact absurd rfl herror
  · intro herror
    exact absurd rfl herror

/-- A reply with an error claims no bytes exactly if the places that keep
`io_Actual` find a 0 there, and no pass-through that fails leaves a part of the
buffer to the residual. -/
theorem reply_claims_iff (req : IOStdReq) (ending : Ending) (reply : IoReply)
    (h : ending.reply req = some reply) :
    reply.ClaimsNothing ↔ ending.Settled req := by
  cases ending with
  | inline unit =>
      have hreply : reply = inlineReply unit req := by
        revert h
        unfold Ending.reply
        cases req.ioCommand.beginIo with
        | retire | inline =>
            intro h
            cases h
            rfl
        | hold _ | queued =>
            intro h
            cases h
      rw [hreply]
      exact inlineReply_claims unit req
  | unopened =>
      have hreply : reply = req.fail ioerrOpenFail := by
        revert h
        unfold Ending.reply
        cases req.ioCommand.beginIo with
        | retire | inline =>
            intro h
            cases h
        | hold _ | queued =>
            intro h
            cases h
            rfl
      rw [hreply]
      exact IOStdReq.fail_claims (by decide)
  | released error =>
      have hreply : reply = req.fail error := by
        revert h
        unfold Ending.reply
        cases req.ioCommand.beginIo with
        | hold _ =>
            intro h
            cases h
            rfl
        | retire | inline | queued =>
            intro h
            cases h
      rw [hreply]
      exact Iff.rfl
  | removed =>
      unfold Ending.reply at h
      split_ifs at h
      cases h
      exact IOStdReq.fail_claims (by decide)
  | dispatched d =>
      unfold Ending.reply at h
      split_ifs at h with hqueued
      exact DispatchEnv.dispatch_claims hqueued h
  | completed d modern r =>
      unfold Ending.reply at h
      dsimp only at h
      split_ifs at h
      cases h
      exact iff_of_true (completed_claims modern r req.ioLength) trivial
  | drained d =>
      unfold Ending.reply at h
      dsimp only at h
      split_ifs at h
      cases h
      exact IOStdReq.fail_claims (by decide)

end Ending

section Sample

/-- A read from the second 4 GiB of a disk. -/
def sampleHighRead : IOStdReq := ⟨.tdRead64, 1, 0, 512, 4096⟩

/-- A 64-bit request taken off its port by `AbortIO` is replied to with the count it
came with. -/
theorem reply_claims_iff_sampleHighRead :
    Ending.removed.reply sampleHighRead = some ⟨0xFE, 1⟩ ∧
      ((IoReply.mk 0xFE 1).ClaimsNothing ↔ Ending.removed.Settled sampleHighRead) :=
  ⟨rfl, Ending.reply_claims_iff sampleHighRead .removed ⟨0xFE, 1⟩ rfl⟩

/-- Aborted before the unit task sees it, the read seems to have transferred a
byte. -/
theorem reply_claims_fails_sampleHighRead :
    Ending.removed.reply sampleHighRead = some ⟨0xFE, 1⟩ ∧
      ¬ (IoReply.mk 0xFE 1).ClaimsNothing := by
  refine ⟨rfl, ?_⟩
  intro h
  exact absurd (h (by decide)) (by decide)

end Sample

end VirtioScsi
