import VirtioScsi.ScsiCommand

/-!
# Device commands

The commands `BeginIO.c` and `unit_task.c` name, the fields of an `IOStdReq`
they read, and the switch of `UnitTask_Dispatch`: which commands are block
I/O and with which byte offset and direction, which have a synchronous
handler, and which are answered on the spot.
-/

namespace VirtioScsi

inductive IoCommand where
  | cmdRead | etdRead | cmdWrite | tdFormat | etdFormat | etdWrite
  | tdRead64 | tdWrite64 | tdFormat64
  | nscmdTdRead64 | nscmdEtdRead64 | nscmdTdWrite64 | nscmdTdFormat64
  | nscmdEtdWrite64 | nscmdEtdFormat64
  | cmdUpdate | cmdFlush | etdUpdate
  | tdGetGeometry | tdGetNumTracks | hdScsiCmd | nscmdTdGetGeometry64
  | nscmdTdSeek64 | nscmdTdChangeUnit | nscmdTdAddStatCallback
  | nscmdTdRemStatCallback | nscmdEtdSeek64
  | tdAddChangeInt | tdRemove | tdRemChangeInt
  | cmdStop | cmdStart | tdMotor
  | tdSeek | tdEject | tdSeek64 | etdMotor | etdSeek | cmdClear | etdClear
  | tdChangeNum | tdChangeState | tdProtStatus | tdGetDriveType
  | nscmdDeviceQuery
  | unknown (code : BitVec 16)
deriving DecidableEq, Repr

/-- The fields of an `IOStdReq` that block I/O reads; `ioData` is an address,
and 0 is NULL. -/
structure IOStdReq where
  ioCommand : IoCommand
  ioActual : BitVec 32
  ioOffset : BitVec 32
  ioLength : BitVec 32
  ioData : ℕ
deriving DecidableEq, Repr

namespace IoCommand

def dispatch : IoCommand → Command
  | .cmdRead | .etdRead => .block false
  | .cmdWrite | .tdFormat | .etdFormat | .etdWrite => .block true
  | .tdRead64 => .block false
  | .tdWrite64 | .tdFormat64 => .block true
  | .nscmdTdRead64 | .nscmdEtdRead64 => .block false
  | .nscmdTdWrite64 | .nscmdTdFormat64 | .nscmdEtdWrite64
  | .nscmdEtdFormat64 => .block true
  | .cmdUpdate | .cmdFlush | .etdUpdate => .immediate 0
  | .tdGetGeometry | .tdGetNumTracks | .hdScsiCmd
  | .nscmdTdGetGeometry64 => .synchronous
  | .nscmdTdSeek64 | .nscmdTdChangeUnit | .nscmdTdAddStatCallback
  | .nscmdTdRemStatCallback | .nscmdEtdSeek64 => .immediate 0
  | _ => .immediate ioerrNoCmd

/-- The commands whose byte offset is `io_Offset` alone. -/
def is32Bit : IoCommand → Bool
  | .cmdRead | .etdRead | .cmdWrite | .tdFormat | .etdFormat | .etdWrite => true
  | _ => false

/-- The commands `Handle_NS_TD_IO64` is written for, as its header names them.
`BeginIO` calls `Parse_NS_Command`, its caller, for `NSCMD_DEVICEQUERY` only, and
queues these commands to the unit task. -/
def isNsTdIo64 : IoCommand → Bool
  | .nscmdTdRead64 | .nscmdTdWrite64 | .nscmdTdFormat64 => true
  | _ => false

/-- The commands whose handlers look at the cached geometry. -/
def asksGeometry : IoCommand → Bool
  | .tdGetGeometry | .nscmdTdGetGeometry64 | .tdGetNumTracks => true
  | _ => false

def reads : IoCommand → Bool
  | .cmdRead | .etdRead | .tdRead64 | .nscmdTdRead64 | .nscmdEtdRead64 => true
  | _ => false

theorem dispatch_block {c : IoCommand} {isWrite : Bool}
    (h : c.dispatch = .block isWrite) : isWrite = !c.reads := by
  cases c <;> simp_all [dispatch, reads]

end IoCommand

/-- `unpack_io64_offset`. -/
def unpackIo64Offset (ioActual ioOffset : BitVec 32) : BitVec 64 :=
  (ioActual.setWidth 64 <<< 32) ||| ioOffset.setWidth 64

/-- The byte offset `UnitTask_Dispatch` passes to `submit_block_io`. -/
def IOStdReq.offset64 (req : IOStdReq) : BitVec 64 :=
  if req.ioCommand.is32Bit then req.ioOffset.setWidth 64
  else unpackIo64Offset req.ioActual req.ioOffset

theorem IOStdReq.offset64_ns {req : IOStdReq}
    (h : req.ioCommand.isNsTdIo64 = true) :
    req.offset64 = unpackIo64Offset req.ioActual req.ioOffset := by
  unfold offset64
  have hwide : req.ioCommand.is32Bit = false := by
    revert h
    cases req.ioCommand <;> simp [IoCommand.isNsTdIo64, IoCommand.is32Bit]
  rw [hwide]
  rfl

end VirtioScsi
