import VirtioScsi.Virtqueue

/-!
# SCSI requests and responses

The request and response buffers of `virtio_scsi_cmd.h` as far as the driver
reads them, the error mapping of `virtio_scsi_io.c`, and the order in which
the DMA entries of a request are put into its scatter-gather list.
-/

namespace VirtioScsi

abbrev UnitNum := Fin 8
abbrev Slot := Fin 16

instance neZero_units : NeZero 8 := ⟨by decide⟩
instance neZero_slots : NeZero 16 := ⟨by decide⟩

/-- A request buffer and the response buffer that goes with it: the pair of a
pipeline slot, or one of the pairs discovery allocates on the heap. -/
inductive ReqBuf where
  | slot (unit : UnitNum) (slot : Slot)
  | temp (n : ℕ)
deriving DecidableEq, Repr

/-- A cookie taken from the used ring; the serial number of its chain is
history. -/
structure Completion where
  cookie : ReqBuf
  serial : ℕ
deriving DecidableEq, Repr

/-- `unit->req_buf`, the alias of `req_bufs[0]`. -/
def reqBuf (u : UnitNum) : ReqBuf := .slot u 0

/-- `req_cmd->id` of a pipelined request. -/
def requestId (u : UnitNum) (slot : Slot) : BitVec 64 :=
  (BitVec.ofNat 64 u.val <<< 16) ||| BitVec.ofNat 64 slot.val

/-- The unit and slot read back from `req_cmd->id`. -/
def decodeId (id : BitVec 64) : Option (UnitNum × Slot) :=
  let cu : BitVec 32 := (id >>> 16).setWidth 32
  let cs : BitVec 32 := (id &&& 0xFFFF).setWidth 32
  if h : cu.toNat < 8 ∧ cs.toNat < 16 then
    some (⟨cu.toNat, h.1⟩, ⟨cs.toNat, h.2⟩)
  else none

theorem decodeId_requestId (u : UnitNum) (slot : Slot) :
    decodeId (requestId u slot) = some (u, slot) := by
  revert u slot
  decide +kernel

/-! ## Responses -/

def virtioScsiSOk : BitVec 8 := 0

def tderrNotSpecified : Int := 20
def tderrBadSecHdr : Int := 27
def tderrWriteProt : Int := 28
def tderrDiskChanged : Int := 29
def tderrBadDriveType : Int := 33
def hferrDma : Int := 41
def hferrBadStatus : Int := 45
def ioerrAborted : Int := -2
def ioerrNoCmd : Int := -3
def ioerrSelfTest : Int := -7

/-- The fields of `struct virtio_scsi_resp_cmd` the driver reads, as the
processor loads them; `sense` is byte 2 of the sense data. -/
structure Response where
  residual : BitVec 32
  status : BitVec 8
  response : BitVec 8
  sense : BitVec 8
deriving DecidableEq, Repr

/-- The three stores before a request is added; the sense data stays. -/
def Response.reset (r : Response) : Response :=
  { r with residual := 0, status := 0, response := 0 }

/-- `virtio_scsi_resp_residual`. -/
def Response.residualNative (modern : Bool) (r : Response) : BitVec 32 :=
  vr32 modern r.residual

/-- `map_scsi_error`. -/
def mapScsiError (virtioResp scsiStatus senseKey : BitVec 8) : Int :=
  if virtioResp ≠ virtioScsiSOk then tderrNotSpecified
  else if scsiStatus = 0 then 0
  else if scsiStatus ≠ 2 then hferrBadStatus
  else
    match (senseKey &&& 0x0F).toNat with
    | 0x00 => 0
    | 0x01 => 0
    | 0x02 => tderrBadDriveType
    | 0x03 => tderrBadSecHdr
    | 0x04 => tderrBadDriveType
    | 0x05 => ioerrNoCmd
    | 0x06 => tderrDiskChanged
    | 0x07 => tderrWriteProt
    | 0x0B => tderrNotSpecified
    | _ => hferrBadStatus

theorem mapScsiError_ne_selfTest (virtioResp scsiStatus senseKey : BitVec 8) :
    mapScsiError virtioResp scsiStatus senseKey ≠ ioerrSelfTest := by
  unfold mapScsiError
  split_ifs
  · decide
  · decide
  · decide
  · split <;> decide

/-- `io_Error` and `io_Actual` of a completed pipelined request. -/
def completionStatus (modern : Bool) (r : Response) (ioLength : BitVec 32) :
    Int × BitVec 32 :=
  let err := mapScsiError r.response r.status (r.sense &&& 0x0F)
  if err ≠ 0 then (err, 0)
  else
    let residual := r.residualNative modern
    (0, if ioLength < residual then 0 else ioLength - residual)

/-! ## Scatter-gather lists -/

/-- The segments of a request and their split into device-readable and
device-writable ones. -/
structure SgList where
  segments : List VringSg
  outNum : ℕ
  inNum : ℕ
deriving DecidableEq, Repr

/-- Write data follows the request header, read data follows the response. -/
def buildSg (isWrite : Bool) (req resp data : List VringSg) : SgList :=
  if isWrite then ⟨req ++ data ++ resp, req.length + data.length, resp.length⟩
  else ⟨req ++ resp ++ data, req.length, resp.length + data.length⟩

def SgList.get (sg : SgList) (n : ℕ) : VringSg :=
  sg.segments[n]?.getD ⟨0, 0⟩

theorem buildSg_total (isWrite : Bool) (req resp data : List VringSg) :
    (buildSg isWrite req resp data).outNum +
      (buildSg isWrite req resp data).inNum =
      req.length + resp.length + data.length := by
  unfold buildSg
  split <;> dsimp only <;> omega

/-! ## I/O requests -/

/-- What `UnitTask_Dispatch` does with a command: block I/O, a synchronous
handler, or an answer on the spot. -/
inductive Command where
  | block (isWrite : Bool)
  | synchronous
  | immediate (error : Int)
deriving DecidableEq, Repr

structure IORequest where
  id : ℕ
  command : Command
  ioLength : BitVec 32
  ioActual : BitVec 32
deriving DecidableEq, Repr

end VirtioScsi
