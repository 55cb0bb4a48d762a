import VirtioScsi.BlockAddressing
import VirtioScsi.DoioReports

/-!
# SCSI direct commands

`Parse_SCSI_Command` and its handlers.  Commands of the disk go to
`VirtIOSCSI_DoIO` with the caller's CDB; VPD pages, log pages and ATA SMART
data are made up here.  The caller's CDB is the memory from its address on,
and the bytes stored in the caller's data and sense buffers are recorded with
their index, in order.
-/

namespace VirtioScsi

/-! ## The caller's structure -/

/-- `struct SCSICmd`; pointers are addresses, and 0 is NULL. -/
structure ScsiCmd where
  data : ℕ
  length : BitVec 32
  actual : BitVec 32
  command : ℕ
  cmdLength : BitVec 16
  cmdActual : BitVec 16
  flags : BitVec 8
  status : BitVec 8
  senseData : ℕ
  senseLength : BitVec 16
  senseActual : BitVec 16
deriving DecidableEq, Repr

def checkCondition : BitVec 8 := 2

def scsifAutosense : BitVec 8 := 2

def illegalRequest : BitVec 8 := 0x05

def ScsiCmd.WantsSense (cmd : ScsiCmd) : Prop :=
  cmd.flags &&& scsifAutosense ≠ 0 ∧ cmd.senseData ≠ 0 ∧ 18 ≤ cmd.senseLength.toNat

instance (cmd : ScsiCmd) : Decidable cmd.WantsSense :=
  inferInstanceAs (Decidable (_ ∧ _))

abbrev ByteStore := ℕ × BitVec 8

def storesFrom (i : ℕ) (bytes : List (BitVec 8)) : List ByteStore :=
  (bytes.zipIdx i).map Prod.swap

/-- A request while a handler works on it; `sent` is the CDB in the request
header and the call of `VirtIOSCSI_DoIO`. -/
structure ScsiRun where
  cmd : ScsiCmd
  ioError : BitVec 8
  ioActual : BitVec 32
  dataStores : List ByteStore
  senseStores : List ByteStore
  sent : Option (Cdb × DoioCall)
deriving DecidableEq, Repr

/-- The unit of a request, and what `VirtIOSCSI_DoIO` meets for the CDB in the
request header; `sense` is the sense data in the response buffer afterwards. -/
structure ScsiUnit where
  targetId : BitVec 32
  buf : ReqBuf
  bufs : UnitBuffers
  doio : Cdb → DoioEnv
  sense : Cdb → ℕ → BitVec 8

namespace ScsiRun

def start (cmd : ScsiCmd) (req : IOStdReq) : ScsiRun :=
  ⟨cmd, 0, req.ioActual, [], [], none⟩

def fail (r : ScsiRun) (error : Int) : ScsiRun :=
  { r with ioError := BitVec.ofInt 8 error }

def setStatus (r : ScsiRun) (status : BitVec 8) : ScsiRun :=
  { r with cmd := { r.cmd with status := status } }

def setActual (r : ScsiRun) (actual : BitVec 32) : ScsiRun :=
  { r with cmd := { r.cmd with actual := actual } }

def setIoActual (r : ScsiRun) (actual : BitVec 32) : ScsiRun :=
  { r with ioActual := actual }

def storeData (r : ScsiRun) (stores : List ByteStore) : ScsiRun :=
  { r with dataStores := r.dataStores ++ stores }

def handleCmdSuccess (r : ScsiRun) : ScsiRun := { r with ioError := 0, ioActual := 0 }

/-- Fixed format, current error, 18 bytes. -/
def fixedSense (senseKey asc ascq : BitVec 8) : List ByteStore :=
  storesFrom 0 (List.replicate 18 0) ++
    [(0, 0x70), (2, senseKey), (7, 10), (12, asc), (13, ascq)]

def storeSense (r : ScsiRun) (senseKey asc ascq : BitVec 8) : ScsiRun :=
  { r with
    cmd := { r.cmd with senseActual := 18 }
    senseStores := r.senseStores ++ fixedSense senseKey asc ascq }

def fillAutoSense (r : ScsiRun) (senseKey asc ascq : BitVec 8) : ScsiRun :=
  let r := { r with cmd := { r.cmd with senseActual := 0 } }
  if r.cmd.WantsSense then r.storeSense senseKey asc ascq else r

/-! ## Pass-through -/

/-- The CDB in the request header: the caller's, up to its length. -/
def headerCdb (r : ScsiRun) (cdb : ℕ → BitVec 8) : Cdb :=
  requestCdb ((List.range r.cmd.cmdLength.toNat).map cdb)

/-- Call `VirtIOSCSI_DoIO` with `scsi_status` and `residual` set to 0, and
report what it left in them. -/
def passThrough (u : ScsiUnit) (cdb : ℕ → BitVec 8) (data : ℕ) (length : BitVec 32)
    (isWrite : Bool) (actual : BitVec 32 → BitVec 32) (r : ScsiRun) : ScsiRun :=
  let header := r.headerCdb cdb
  let call : DoioCall := ⟨u.buf, some u.bufs, data, length, isWrite⟩
  let run := call.doio (u.doio header)
  let r := { r with sent := some (header, call) }
  let r := r.setStatus (run.scsiStatus.getD 0)
  let r := (r.setActual (actual (run.residual.getD 0))).setIoActual
    (actual (run.residual.getD 0))
  if run.result ≠ 0 then r.fail run.result else { r with ioError := 0 }

def handleScsiTestUnitReady (u : ScsiUnit) (cdb : ℕ → BitVec 8) (r : ScsiRun) :
    ScsiRun :=
  r.passThrough u cdb 0 0 false (fun _ => 0)

/-- The buffer of the caller, and what is left of it after the residual. -/
def transfer (u : ScsiUnit) (cdb : ℕ → BitVec 8) (isWrite : Bool) (r : ScsiRun) :
    ScsiRun :=
  r.passThrough u cdb r.cmd.data r.cmd.length isWrite
    (fun residual => r.cmd.length - residual)

def handleScsiReadCapacity10 (u : ScsiUnit) (cdb : ℕ → BitVec 8) (r : ScsiRun) :
    ScsiRun :=
  if r.cmd.length.toNat < 8 then
    (r.setStatus checkCondition).fail hferrBadStatus
  else r.transfer u cdb false

/-- The address and the block count in the CDB are only printed. -/
def handleScsiRw10 (u : ScsiUnit) (cdb : ℕ → BitVec 8) (isWrite : Bool) (r : ScsiRun) :
    ScsiRun :=
  r.transfer u cdb isWrite

/-! ## INQUIRY -/

/-- The exits of the INQUIRY handler that set both counts to 0. -/
def refuseInquiry (r : ScsiRun) : ScsiRun :=
  (((r.setStatus checkCondition).setActual 0).setIoActual 0).fail hferrBadStatus

/-- `vpd_begin`; the bytes behind the header are still 0. -/
def vpdBegin (pageCode : BitVec 8) (needed : ℕ) (r : ScsiRun) : Bool × ScsiRun :=
  if r.cmd.length.toNat < needed ∨ r.cmd.data = 0 then (false, r.refuseInquiry)
  else (true, r.storeData (storesFrom 0 (List.replicate needed 0) ++
    [(0, 0x00), (1, pageCode)]))

def vpdFinish (totalLen : ℕ) (r : ScsiRun) : ScsiRun :=
  { ((r.setStatus 0).setActual (BitVec.ofNat 32 totalLen)).setIoActual
      (BitVec.ofNat 32 totalLen) with ioError := 0 }

def vpdIllegalPage (r : ScsiRun) : ScsiRun :=
  let r := ((r.setStatus checkCondition).setActual 0).setIoActual 0
  let r := if r.cmd.WantsSense then r.storeSense illegalRequest 0x24 0x00 else r
  r.fail hferrBadStatus

/-- A page from its length byte on. -/
def vpdPage (pageCode : BitVec 8) (page : List (BitVec 8)) (r : ScsiRun) : ScsiRun :=
  let total := 3 + page.length
  let begun := r.vpdBegin pageCode total
  if begun.1 = false then begun.2
  else (begun.2.storeData (storesFrom 3 page)).vpdFinish total

def asciiBytes (text : List Char) : List (BitVec 8) :=
  text.map fun c => BitVec.ofNat 8 c.toNat

/-- `SNPrintf` with `%lu` at the end of the format. -/
def snPrintf (pre : String) (n : BitVec 32) : List (BitVec 8) :=
  asciiBytes (pre.toList ++ Nat.toDigits 10 n.toNat)

/-- Page 0x00: the three supported pages. -/
def supportedVpdPages : List (BitVec 8) := [3, 0x00, 0x80, 0x83]

/-- Page 0x80. -/
def unitSerialNumber (targetId : BitVec 32) : List (BitVec 8) :=
  let serial := snPrintf "VIRTIOSCSI-T" targetId
  BitVec.ofNat 8 serial.length :: serial

/-- Page 0x83: one T10 vendor identification descriptor. -/
def deviceIdentification (targetId : BitVec 32) : List (BitVec 8) :=
  let id := snPrintf "QEMU    virtioscsi      T" targetId
  [BitVec.ofNat 8 (4 + id.length), 0x02, 0x01, 0x00, BitVec.ofNat 8 id.length] ++ id

def vpdPageOf (targetId : BitVec 32) (pageCode : BitVec 8) : Option (List (BitVec 8)) :=
  if pageCode = 0x00 then some supportedVpdPages
  else if pageCode = 0x80 then some (unitSerialNumber targetId)
  else if pageCode = 0x83 then some (deviceIdentification targetId)
  else none

def evpd (cdb : ℕ → BitVec 8) (r : ScsiRun) : Bool :=
  2 ≤ r.cmd.cmdLength.toNat && cdb 1 &&& 0x01 != 0

def pageCode (cdb : ℕ → BitVec 8) (r : ScsiRun) : BitVec 8 :=
  if 3 ≤ r.cmd.cmdLength.toNat then cdb 2 else 0

def handleScsiInquiry (u : ScsiUnit) (cdb : ℕ → BitVec 8) (r : ScsiRun) : ScsiRun :=
  if r.cmd.length.toNat < 5 then r.refuseInquiry
  else if r.evpd cdb = false then r.transfer u cdb false
  else
    match vpdPageOf u.targetId (r.pageCode cdb) with
    | some page => r.vpdPage (r.pageCode cdb) page
    | none => r.vpdIllegalPage

/-! ## LOG SENSE -/

/-- Page 0x00: the two supported pages. -/
def supportedLogPages : List (BitVec 8) := [0x00, 0x00, 0x00, 0x02, 0x00, 0x2F]

/-- Page 0x2F: no error, and a string. -/
def informationalExceptions : List (BitVec 8) :=
  let attr := asciiBytes "VirtIO Dummy OK".toList
  [0x2F, 0x00, 0x00, BitVec.ofNat 8 (16 + attr.length - 4),
    0x00, 0x00, 0x03, 0x04, 0x00, 0x00, 0x00, 0x00,
    0x80, 0x00, 0x03, BitVec.ofNat 8 attr.length] ++ attr

def logPageOf (pageCode : BitVec 8) : Option (List (BitVec 8)) :=
  if pageCode = 0x00 then some supportedLogPages
  else if pageCode = 0x2F then some informationalExceptions
  else none

def logPageCode (cdb : ℕ → BitVec 8) : BitVec 8 := cdb 2 &&& 0x3F

def allocationLength (cdb : ℕ → BitVec 8) : BitVec 16 :=
  ((cdb 7).setWidth 16 <<< 8) ||| (cdb 8).setWidth 16

/-- The page is cut to the allocation length of the CDB. -/
def handleScsiLogSense (cdb : ℕ → BitVec 8) (r : ScsiRun) : ScsiRun :=
  let alloc := (allocationLength cdb).toNat
  if r.cmd.data = 0 ∨ alloc = 0 then (r.setActual 0).handleCmdSuccess
  else
    let page := logPageOf (logPageCode cdb)
    let r := if page.isNone then (r.setStatus checkCondition).fail hferrBadStatus else r
    let temp := page.getD []
    let r :=
      if r.cmd.status = 0 ∧ 0 < temp.length then
        let transferLen := if alloc < temp.length then alloc else temp.length
        (r.storeData (storesFrom 0 (temp.take transferLen))).setActual
          (BitVec.ofNat 32 transferLen)
      else r
    if r.cmd.status = 0 then r.handleCmdSuccess else r

/-! ## ATA PASS-THROUGH -/

structure SmartAttr where
  id : BitVec 8
  flagsLo : BitVec 8
  flagsHi : BitVec 8
  current : BitVec 8
  worst : BitVec 8
  raw : List (BitVec 8)
  reserved : BitVec 8

def SmartAttr.bytes (a : SmartAttr) : List (BitVec 8) :=
  [a.id, a.flagsLo, a.flagsHi, a.current, a.worst] ++ a.raw ++ [a.reserved]

def smartAttrs : List SmartAttr :=
  [⟨1, 0x0B, 0x00, 100, 100, [0, 0, 0, 0, 0, 0], 0⟩,
    ⟨9, 0x03, 0x00, 100, 100, [0x01, 0x00, 0, 0, 0, 0], 0⟩,
    ⟨12, 0x03, 0x00, 100, 100, [0x01, 0x00, 0, 0, 0, 0], 0⟩,
    ⟨194, 0x02, 0x00, 120, 120, [0x1E, 0, 0, 0, 0x1E, 0], 0⟩,
    ⟨197, 0x00, 0x00, 100, 100, [0, 0, 0, 0, 0, 0], 0⟩,
    ⟨198, 0x00, 0x00, 100, 100, [0, 0, 0, 0, 0, 0], 0⟩]

/-- The SMART data block; the six entries end long before byte 362. -/
def smartData : List ByteStore :=
  storesFrom 0 (List.replicate 512 0) ++ [(0, 0x06), (1, 0x00)] ++
    storesFrom 2 (smartAttrs.flatMap SmartAttr.bytes) ++ [(510, 0xC0)]

/-- PASS-THROUGH (16) has the ATA command in byte 14, (12) in byte 9. -/
def ataCommand (cdb : ℕ → BitVec 8) : BitVec 8 :=
  if cdb 0 = 0x85 then cdb 14 else cdb 9

def handleScsiAtaPassthrough (cdb : ℕ → BitVec 8) (r : ScsiRun) : ScsiRun :=
  if ataCommand cdb ≠ 0xB0 then
    ((r.setStatus checkCondition).setActual 0).fail hferrBadStatus
  else if r.cmd.data = 0 ∨ r.cmd.length.toNat < 512 then
    ((r.setStatus checkCondition).setActual 0).fail hferrBadStatus
  else
    (((r.storeData smartData).setActual 512).setStatus 0).handleCmdSuccess

end ScsiRun

/-! ## The switch -/

/-- The cases of the switch in `Parse_SCSI_Command`. -/
inductive ScsiOpcode where
  | testUnitReady
  | inquiry
  | readCapacity10
  | read10
  | write10
  | logSense
  | ataPassthrough
  | unsupported
deriving DecidableEq, Repr

namespace ScsiOpcode

def ofByte (opcode : BitVec 8) : ScsiOpcode :=
  if opcode = 0x00 then testUnitReady
  else if opcode = 0x12 then inquiry
  else if opcode = 0x25 then readCapacity10
  else if opcode = 0x28 then read10
  else if opcode = 0x2A then write10
  else if opcode = 0x4D then logSense
  else if opcode = 0x85 ∨ opcode = 0xA1 then ataPassthrough
  else unsupported

def handle (u : ScsiUnit) (cdb : ℕ → BitVec 8) (r : ScsiRun) : ScsiOpcode → ScsiRun
  | testUnitReady => r.handleScsiTestUnitReady u cdb
  | inquiry => r.handleScsiInquiry u cdb
  | readCapacity10 => r.handleScsiReadCapacity10 u cdb
  | read10 => r.handleScsiRw10 u cdb false
  | write10 => r.handleScsiRw10 u cdb true
  | logSense => r.handleScsiLogSense cdb
  | ataPassthrough => r.handleScsiAtaPassthrough cdb
  | unsupported =>
      ((r.setStatus checkCondition).fillAutoSense illegalRequest 0x20 0x00).fail
        hferrBadStatus

end ScsiOpcode

/-- An HD_SCSICMD request: `size` is `sizeof(struct SCSICmd)`, and `cdb` is what
the memory at `scsi_Command` holds. -/
structure ScsiRequest where
  size : ℕ
  req : IOStdReq
  cmd : ScsiCmd
  cdb : ℕ → BitVec 8

namespace ScsiRequest

def BadLength (q : ScsiRequest) : Prop :=
  q.req.ioData = 0 ∨ q.req.ioLength.toNat < q.size

def NoCommand (q : ScsiRequest) : Prop :=
  q.cmd.command = 0 ∨ q.cmd.cmdLength = 0

instance (q : ScsiRequest) : Decidable q.BadLength := inferInstanceAs (Decidable (_ ∨ _))

instance (q : ScsiRequest) : Decidable q.NoCommand := inferInstanceAs (Decidable (_ ∨ _))

def opcode (q : ScsiRequest) : ScsiOpcode := .ofByte (q.cdb 0)

def begin (q : ScsiRequest) : ScsiRun :=
  .start { q.cmd with status := 0, cmdActual := q.cmd.cmdLength, senseActual := 0 } q.req

def parseScsiCommand (q : ScsiRequest) (u : ScsiUnit) : ScsiRun :=
  if q.BadLength then (ScsiRun.start q.cmd q.req).fail ioerrBadLength
  else if q.NoCommand then (ScsiRun.start q.cmd q.req).fail hferrBadStatus
  else q.opcode.handle u q.cdb q.begin

/-- The request is answered without a look at its CDB. -/
def Refused (q : ScsiRequest) : Prop := q.BadLength ∨ q.NoCommand

instance (q : ScsiRequest) : Decidable q.Refused := inferInstanceAs (Decidable (_ ∨ _))

end ScsiRequest

/-! ## What the handlers amount to -/

namespace ScsiRequest

variable {q : ScsiRequest} {u : ScsiUnit}

theorem parse_of_refused (h : q.Refused) :
    ∃ error : Int, BitVec.ofInt 8 error ≠ 0 ∧
      q.parseScsiCommand u = (ScsiRun.start q.cmd q.req).fail error := by
  unfold parseScsiCommand
  by_cases hlength : q.BadLength
  · rw [if_pos hlength]
    exact ⟨ioerrBadLength, by decide, rfl⟩
  · rw [if_neg hlength, if_pos (h.resolve_left hlength)]
    exact ⟨hferrBadStatus, by decide, rfl⟩

theorem parse_of_accepted (h : ¬ q.Refused) :
    q.parseScsiCommand u = q.opcode.handle u q.cdb q.begin := by
  rw [Refused, not_or] at h
  rw [parseScsiCommand, if_neg h.1, if_neg h.2]

end ScsiRequest

namespace ScsiRun

variable {u : ScsiUnit} {cdb : ℕ → BitVec 8} {r : ScsiRun}

theorem passThrough_eq (data : ℕ) (length : BitVec 32) (isWrite : Bool)
    (actual : BitVec 32 → BitVec 32) :
    r.passThrough u cdb data length isWrite actual =
      let call : DoioCall := ⟨u.buf, some u.bufs, data, length, isWrite⟩
      let env := u.doio (r.headerCdb cdb)
      { r with
        cmd := { r.cmd with
          status := (call.told env).status
          actual := actual (call.told env).residual }
        ioError := BitVec.ofInt 8 (call.told env).result
        ioActual := actual (call.told env).residual
        sent := some (r.headerCdb cdb, call) } := by
  have htold : ((⟨u.buf, some u.bufs, data, length, isWrite⟩ : DoioCall).doio
      (u.doio (r.headerCdb cdb))).told = _ := DoioCall.doio_told rfl
  unfold DoioRun.told at htold
  unfold passThrough
  dsimp only
  rw [← htold]
  by_cases hresult : (DoioCall.doio ⟨u.buf, some u.bufs, data, length, isWrite⟩
      (u.doio (r.headerCdb cdb))).result = 0
  · rw [if_neg (not_not.mpr hresult), hresult]
    rfl
  · rw [if_pos hresult]
    rfl

theorem vpdPage_eq (pageCode : BitVec 8) (page : List (BitVec 8)) :
    r.vpdPage pageCode page =
      if r.cmd.length.toNat < 3 + page.length ∨ r.cmd.data = 0 then r.refuseInquiry
      else (r.storeData (storesFrom 0 (List.replicate (3 + page.length) 0) ++
        [(0, 0x00), (1, pageCode)] ++ storesFrom 3 page)).vpdFinish
          (3 + page.length) := by
  unfold vpdPage vpdBegin
  by_cases hshort : r.cmd.length.toNat < 3 + page.length ∨ r.cmd.data = 0
  · simp only [hshort, if_true]
  · simp only [hshort, if_false, Bool.true_eq_false]
    rw [storeData, storeData, storeData]
    simp only [List.append_assoc]

theorem handleScsiLogSense_eq (hstatus : r.cmd.status = 0) :
    r.handleScsiLogSense cdb =
      if r.cmd.data = 0 ∨ (allocationLength cdb).toNat = 0 then
        (r.setActual 0).handleCmdSuccess
      else
        match logPageOf (logPageCode cdb) with
        | none => (r.setStatus checkCondition).fail hferrBadStatus
        | some page =>
            let n := min (allocationLength cdb).toNat page.length
            ((r.storeData (storesFrom 0 (page.take n))).setActual
              (BitVec.ofNat 32 n)).handleCmdSuccess := by
  have hpages : ∀ code page, logPageOf code = some page → 0 < page.length := by
    intro code page hpage
    unfold logPageOf at hpage
    split_ifs at hpage
    · cases hpage
      decide
    · cases hpage
      decide
  unfold handleScsiLogSense
  dsimp only
  by_cases hnone : r.cmd.data = 0 ∨ (allocationLength cdb).toNat = 0
  · rw [if_pos hnone, if_pos hnone]
  rw [if_neg hnone, if_neg hnone]
  cases hpage : logPageOf (logPageCode cdb) with
  | none => rfl
  | some page =>
      have hmin : (if (allocationLength cdb).toNat < page.length then
          (allocationLength cdb).toNat else page.length) =
            min (allocationLength cdb).toNat page.length := by
        split_ifs <;> omega
      have hpos := hpages _ _ hpage
      simp only [Option.isNone_some, Bool.false_eq_true, if_false, Option.getD_some,
        hstatus, hpos, and_self, if_true, hmin]
      exact if_pos hstatus

end ScsiRun

end VirtioScsi
