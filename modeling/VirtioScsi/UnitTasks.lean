import VirtioScsi.RequestQueue
import VirtioScsi.ScsiCommand

/-!
# Unit tasks, interrupt handler and device

The driver at work on the shared request queue: one task for each unit
(`unit_task.c`), with `VirtIOSCSI_Submit`, `VirtIOSCSI_DoIO` and
`VirtIOSCSI_Harvest` (`virtio_scsi_io.c`), the interrupt handler
(`virtio_irq.c`), discovery before the tasks run, and a conforming device.

A step of a task runs from one point where other tasks can interfere to the
next: a section under `io_lock` is one step, except where the device or the
interrupt handler can act inside it with an effect, and there the lock stays
held between the steps.  An absent unit is one that never gets a request.
Fields marked as history are written and never read by the driver.
-/

namespace VirtioScsi

/-! ## Program counters -/

/-- The locals of a `VirtIOSCSI_DoIO` call: the request being dispatched,
whether it came from the fallback of `submit_block_io`, direction and length
of the data, attempts left, wake-ups left and used, the residual returned, and
the serial number of the chain of this attempt (history). -/
structure SyncCall where
  ioreq : IORequest
  fallback : Bool
  isWrite : Bool
  dataLen : BitVec 32
  tries : ℕ
  retries : ℕ
  wakes : ℕ
  residual : BitVec 32
  mine : ℕ
deriving DecidableEq, Repr

/-- What happens to a completion after it was taken: its cookie is routed; it
is stashed for another unit's `DoIO` by a `DoIO`; its slot is released in
`complete_inflight_slot`; its request is replied. -/
inductive Handling where
  | route
  | stash
  | release (unit : UnitNum) (slot : Slot) (ioreq : IORequest) (err : Int)
      (actual : BitVec 32)
  | reply (ioreq : IORequest) (err : Int) (actual : BitVec 32)
deriving DecidableEq, Repr

/-- The places in `VirtIOSCSI_Submit`: `account` is between `AddBuf` and the
counters, `giveBack` is `submit_release_slot`. -/
inductive SubmitAt where
  | pop (ioreq : IORequest)
  | fill (ioreq : IORequest) (slot : Slot)
  | add (ioreq : IORequest) (slot : Slot) (sg : SgList)
  | account (ioreq : IORequest) (slot : Slot)
  | giveBack (ioreq : IORequest) (slot : Slot) (err : Int)
deriving DecidableEq, Repr

/-- The places in `VirtIOSCSI_DoIO`: `mark` is between `AddBuf` and the mask
update, `enter` the top of the drain loop, `clear` the `SetSignal` after it,
`leave` the mask update before the return. -/
inductive SyncAt where
  | fill
  | add (sg : SgList)
  | mark
  | enter
  | wait
  | poll (left : ℕ)
  | clear (taken : Option Completion)
  | check (taken : Option Completion)
  | leave (result : Int)
deriving DecidableEq, Repr

/-- Where a unit task is.  Drain loops belong to `Harvest` (`none`) or to a
`DoIO` call. -/
inductive Pc where
  | wait
  | drain (caller : Option SyncCall)
  | handle (caller : Option SyncCall) (taken : Completion) (what : Handling)
  | coalesce
  | dispatch
  | submit (at_ : SubmitAt)
  | handler (ioreq : IORequest)
  | sync (call : SyncCall) (at_ : SyncAt)
  | finish (ioreq : IORequest) (err : Int) (actual : BitVec 32)
  | kick
deriving DecidableEq, Repr

/-! ## State -/

/-- A slot of `unit->inflight[]`; the serial number of the last chain added
for it is history. -/
structure Inflight where
  ioreq : Option IORequest
  cookie : Option ReqBuf
  serial : ℕ
deriving DecidableEq, Repr

structure DevUnit where
  freeHead : Option Slot
  inflightNext : Slot → Option Slot
  inflightCount : ℕ
  inflight : Slot → Inflight
  doioPending : Option Completion

/-- What is fixed when the driver starts: the queue's size and mode, whether
the interrupt handler could be installed, and the DMA entries of the request
and response buffers. -/
structure Setup where
  queueLog : ℕ
  queueLog_pos : 1 ≤ queueLog
  queueLog_le : queueLog ≤ 15
  modern : Bool
  useEventIdx : Bool
  useIndirect : Bool
  irqInstalled : Bool
  reqDma : ReqBuf → List VringSg
  respDma : ReqBuf → List VringSg
  reqDma_ne : ∀ b, reqDma b ≠ []

/-- A `VirtIOSCSI_DoIO` of discovery: its heap buffers, attempts left, polls
left, and the chain of this attempt (history). -/
structure ProbeCall where
  buf : ℕ
  tries : ℕ
  left : ℕ
  mine : ℕ
deriving DecidableEq, Repr

inductive Probe where
  | idle
  | attempt (buf tries : ℕ)
  | polling (call : ProbeCall)
deriving DecidableEq, Repr

/-- A request whose `AddBuf` succeeded in `Submit`. -/
structure Submission where
  serial : ℕ
  unit : UnitNum
  slot : Slot
  ioreq : IORequest
deriving DecidableEq, Repr

/-- A `ReplyMsg`; the serial number tells the chain of a pipelined request. -/
structure Reply where
  serial : Option ℕ
  ioreq : IORequest
  err : Int
  actual : BitVec 32
deriving DecidableEq, Repr

/-- A completion `DoIO` took for its own and the response it then read. -/
structure Acceptance where
  mine : ℕ
  taken : Completion
  response : Response
deriving DecidableEq, Repr

/-- History of the requests, what the device answered to each chain, the
chains given up, and those of discovery that were not taken yet. -/
structure Journal where
  submitted : List Submission
  replied : List Reply
  accepted : List Acceptance
  answer : ℕ → Option Response
  gaveUp : UnitNum → Option ℕ
  probeChain : ℕ → Option ℕ

structure Config where
  setup : Setup
  queue : RequestQueue ReqBuf
  reqId : ReqBuf → BitVec 64
  resp : ReqBuf → Response
  unit : UnitNum → DevUnit
  occupiedCount : ℕ
  activeUnitsMask : BitVec 8
  ioLock : Option UnitNum
  pc : UnitNum → Pc
  ioSig : UnitNum → Bool
  portSig : UnitNum → Bool
  port : UnitNum → List IORequest
  sigsPort : UnitNum → Bool
  needKick : UnitNum → Bool
  running : Bool
  probe : Probe
  nextTemp : ℕ
  journal : Journal

/-- What the environment decides in a step of a task: the DMA entries of a
data buffer (`none` if it cannot be mapped), the answers of Exec to `AddBuf`,
and whether a synchronous handler calls `DoIO` (with which direction and
length) or replies (with which result). -/
structure Choice where
  data : Option (List VringSg) := some []
  env : Virtqueue.IndirectEnv := ⟨none, 0, none⟩
  call : Option (Bool × BitVec 32) := none
  err : Int := 0
  actual : BitVec 32 := 0

namespace Config

/-- All slots free, linked 0, 1, ..., 15. -/
def freshUnit : DevUnit where
  freeHead := some 0
  inflightNext := fun s => if h : s.val + 1 < 16 then some ⟨s.val + 1, h⟩ else none
  inflightCount := 0
  inflight := fun _ => ⟨none, none, 0⟩
  doioPending := none

def initial (setup : Setup) : Config where
  setup := setup
  queue := RequestQueue.initial (2 ^ setup.queueLog) setup.modern
    setup.useEventIdx setup.useIndirect
  reqId := fun _ => 0
  resp := fun _ => ⟨0, 0, 0, 0⟩
  unit := fun _ => freshUnit
  occupiedCount := 0
  activeUnitsMask := 0
  ioLock := none
  pc := fun _ => .wait
  ioSig := fun _ => false
  portSig := fun _ => false
  port := fun _ => []
  sigsPort := fun _ => false
  needKick := fun _ => false
  running := false
  probe := .idle
  nextTemp := 0
  journal := ⟨[], [], [], fun _ => none, fun _ => none, fun _ => none⟩

/-! ## Building blocks -/

def goto (s : Config) (u : UnitNum) (p : Pc) : Config :=
  { s with pc := Function.update s.pc u p }

def setUnit (s : Config) (u : UnitNum) (d : DevUnit) : Config :=
  { s with unit := Function.update s.unit u d }

def setInflight (s : Config) (u : UnitNum) (slot : Slot) (e : Inflight) :
    Config :=
  s.setUnit u { s.unit u with
    inflight := Function.update (s.unit u).inflight slot e }

def unitBit (u : UnitNum) : BitVec 8 := 1 <<< u.val

def setActive (s : Config) (u : UnitNum) : Config :=
  { s with activeUnitsMask := s.activeUnitsMask ||| unitBit u }

def clearActive (s : Config) (u : UnitNum) : Config :=
  { s with activeUnitsMask := s.activeUnitsMask &&& ~~~unitBit u }

/-- The serial number of the oldest completion not yet taken. -/
def nextSerial (s : Config) : Option ℕ :=
  (s.queue.hist.published[s.queue.hist.returned.length]?).map Prod.fst

/-- `VirtQueue_GetBuf` on the request queue. -/
def getBuf (s : Config) : Option (Option Completion × Config) :=
  match s.queue.getBuf with
  | none => none
  | some (cookie, queue) =>
      some (cookie.map fun c => ⟨c, s.nextSerial.getD 0⟩, { s with queue := queue })

/-- `VirtQueue_AddBuf` on the request queue. -/
def addBuf (s : Config) (sg : SgList) (cookie : ReqBuf)
    (env : Virtqueue.IndirectEnv) : Int × Config :=
  let result := s.queue.addBuf sg.get sg.outNum sg.inNum cookie env
  (result.1, { s with queue := result.2 })

/-- The stores that prepare a request buffer and its response buffer. -/
def prepare (s : Config) (b : ReqBuf) (id : BitVec 64) : Config :=
  { s with
    resp := Function.update s.resp b (s.resp b).reset
    reqId := Function.update s.reqId b id }

def reply (s : Config) (serial : Option ℕ) (ioreq : IORequest) (err : Int)
    (actual : BitVec 32) : Config :=
  { s with journal := { s.journal with
      replied := s.journal.replied ++ [⟨serial, ioreq, err, actual⟩] } }

def accept (s : Config) (mine : ℕ) (taken : Completion) (b : ReqBuf) : Config :=
  { s with journal := { s.journal with
      accepted := s.journal.accepted ++ [⟨mine, taken, s.resp b⟩] } }

/-! ## Harvest -/

/-- The unit and slot a cookie is decoded to, with the request there, if the
slot is in flight with that cookie. -/
def lookup (s : Config) (cookie : ReqBuf) :
    Option (UnitNum × Slot × IORequest) :=
  match decodeId (s.reqId cookie) with
  | none => none
  | some (cu, cs) =>
      let e := (s.unit cu).inflight cs
      if e.cookie = some cookie then e.ioreq.map fun r => (cu, cs, r) else none

/-- The unit whose `req_buf` is the cookie. -/
def reqBufOwner (cookie : ReqBuf) : Option UnitNum :=
  (List.finRange 8).find? fun u => reqBuf u = cookie

/-- Hand a completion to the `DoIO` of the unit it belongs to, if any. -/
def stashCookie (s : Config) (taken : Completion) : Config :=
  match reqBufOwner taken.cookie with
  | none => s
  | some v =>
      { s.setUnit v { s.unit v with doioPending := some taken } with
        ioSig := Function.update s.ioSig v true }

/-- One turn of a drain loop: take a completion under the lock.  `Harvest`
leaves the loop with the lock held; `DoIO` stops at its own cookie. -/
def drain (s : Config) (u : UnitNum) (caller : Option SyncCall) :
    Option Config :=
  if s.ioLock = none then
    match s.getBuf, caller with
    | none, _ => none
    | some (none, s), none => some ({ s with ioLock := some u }.goto u .coalesce)
    | some (none, s), some call => some (s.goto u (.sync call .wait))
    | some (some taken, s), none => some (s.goto u (.handle none taken .route))
    | some (some taken, s), some call =>
        if taken.cookie = reqBuf u then
          some (s.goto u (.sync call (.clear (some taken))))
        else some (s.goto u (.handle caller taken .route))
  else none

/-- Decode the cookie.  A pipelined request gets its status; any other cookie
is stashed, by `Harvest` without the lock. -/
def route (s : Config) (u : UnitNum) (caller : Option SyncCall)
    (taken : Completion) : Config :=
  match s.lookup taken.cookie with
  | some (cu, cs, r) =>
      let status := completionStatus s.setup.modern (s.resp (.slot cu cs)) r.ioLength
      s.goto u (.handle caller taken (.release cu cs r status.1 status.2))
  | none =>
      match caller with
      | none => (s.stashCookie taken).goto u (.drain none)
      | some call => s.goto u (.handle (some call) taken .stash)

/-- The locked part of `complete_inflight_slot`. -/
def releaseSlot (s : Config) (cu : UnitNum) (cs : Slot) : Config :=
  let target := s.unit cu
  let e := target.inflight cs
  let s₁ := { s.setUnit cu { target with
      inflight := Function.update target.inflight cs
        { e with ioreq := none, cookie := none }
      inflightNext := Function.update target.inflightNext cs target.freeHead
      freeHead := some cs
      inflightCount := target.inflightCount - 1 } with
    occupiedCount := s.occupiedCount - 1 }
  if target.inflightCount = 1 then s₁.clearActive cu else s₁

def handleTaken (s : Config) (u : UnitNum) (caller : Option SyncCall)
    (taken : Completion) : Handling → Option Config
  | .route => some (s.route u caller taken)
  | .stash =>
      if s.ioLock = none then some ((s.stashCookie taken).goto u (.drain caller))
      else none
  | .release cu cs r err actual =>
      if s.ioLock = none then
        some ((s.releaseSlot cu cs).goto u (.handle caller taken (.reply r err actual)))
      else none
  | .reply r err actual =>
      some ((s.reply (some taken.serial) r err actual).goto u (.drain caller))

/-- The end of `Harvest`: with two or more slots occupied, ask for the
interrupt after all of them. -/
def coalesce (s : Config) (u : UnitNum) : Config :=
  let occupied := BitVec.ofNat 16 s.occupiedCount
  let vq := s.queue.vq
  let s₁ := { s with
    ioLock := none
    queue := { s.queue with
      vq := if vq.useEventIdx && decide (2 ≤ occupied.toNat) then
          vq.setUsedEvent (vq.lastUsedIdx + (occupied - 1))
        else vq } }
  s₁.goto u (if s.sigsPort u then .dispatch else .wait)

/-! ## The event loop -/

/-- `Wait` of the event loop; completions are harvested first. -/
def wakeUp (s : Config) (u : UnitNum) : Option Config :=
  if s.ioSig u || s.portSig u then
    some ({ s with
      ioSig := Function.update s.ioSig u false
      portSig := Function.update s.portSig u false
      sigsPort := Function.update s.sigsPort u (s.portSig u) }.goto u
        (if s.ioSig u then .drain none else .dispatch))
  else none

/-- `GetMsg` and `UnitTask_Dispatch` up to the command's own code. -/
def dispatch (s : Config) (u : UnitNum) : Config :=
  match s.port u with
  | [] => s.goto u (if s.needKick u then .kick else .wait)
  | r :: rest =>
      { s with port := Function.update s.port u rest }.goto u
        (match r.command with
          | .block _ => .submit (.pop r)
          | .synchronous => .handler r
          -- Neither a no-op nor an unknown command touches `io_Actual`.
          | .immediate err => .finish r err r.ioActual)

/-- `VirtIOSCSI_Kick`. -/
def kick (s : Config) (u : UnitNum) : Option Config :=
  if s.ioLock = none then
    some ({ s with
      queue := s.queue.kick
      needKick := Function.update s.needKick u false }.goto u .wait)
  else none

/-- `ReplyMsg` of a request that was not submitted. -/
def finish (s : Config) (u : UnitNum) (r : IORequest) (err : Int)
    (actual : BitVec 32) : Config :=
  (s.reply none r err actual).goto u .dispatch

/-! ## Submit -/

def isWriteCommand : Command → Bool
  | .block isWrite => isWrite
  | _ => false

def newCall (r : IORequest) (fallback isWrite : Bool) (dataLen : BitVec 32) :
    SyncCall where
  ioreq := r
  fallback := fallback
  isWrite := isWrite
  dataLen := dataLen
  tries := 2
  retries := 50
  wakes := 0
  residual := 0
  mine := 0

/-- Pop a free slot; without one `submit_block_io` falls back to `DoIO`. -/
def submitPop (s : Config) (u : UnitNum) (r : IORequest) : Option Config :=
  if s.ioLock = none then
    match (s.unit u).freeHead with
    | none =>
        some (s.goto u
          (.sync (newCall r true (isWriteCommand r.command) r.ioLength) .fill))
    | some slot =>
        some ((s.setUnit u { s.unit u with
          freeHead := (s.unit u).inflightNext slot }).goto u (.submit (.fill r slot)))
  else none

/-- Fill the buffers, map the data, build the list, and mark the slot. -/
def submitFill (s : Config) (u : UnitNum) (r : IORequest) (slot : Slot)
    (data : Option (List VringSg)) : Config :=
  let b := ReqBuf.slot u slot
  let s := s.prepare b (requestId u slot)
  match data with
  | none => s.goto u (.submit (.giveBack r slot hferrDma))
  | some data =>
      let sg := buildSg (isWriteCommand r.command) (s.setup.reqDma b)
        (s.setup.respDma b) data
      if maxSgEntries < sg.outNum + sg.inNum then
        s.goto u (.submit (.giveBack r slot hferrDma))
      else
        (s.setInflight u slot { (s.unit u).inflight slot with
          ioreq := some r, cookie := some b }).goto u (.submit (.add r slot sg))

def submitAdd (s : Config) (u : UnitNum) (r : IORequest) (slot : Slot)
    (sg : SgList) (env : Virtqueue.IndirectEnv) : Option Config :=
  if s.ioLock = none then
    let serial := s.queue.hist.added.length
    let e := (s.unit u).inflight slot
    let result := s.addBuf sg (.slot u slot) env
    if result.1 ≠ 0 then
      some ((result.2.setInflight u slot { e with ioreq := none, cookie := none }).goto u
        (.submit (.giveBack r slot tderrNotSpecified)))
    else
      some ({ result.2.setInflight u slot { e with serial := serial } with
        ioLock := some u
        journal := { s.journal with
          submitted := s.journal.submitted ++ [Submission.mk serial u slot r] } }.goto u
            (.submit (.account r slot)))
  else none

def submitAccount (s : Config) (u : UnitNum) : Config :=
  ({ s.setUnit u { s.unit u with
      inflightCount := (s.unit u).inflightCount + 1 } with
    occupiedCount := s.occupiedCount + 1
    ioLock := none
    needKick := Function.update s.needKick u true }.setActive u).goto u .dispatch

/-- `submit_release_slot`; `submit_block_io` then fails the request. -/
def submitReleaseSlot (s : Config) (u : UnitNum) (r : IORequest) (slot : Slot)
    (err : Int) : Option Config :=
  if s.ioLock = none then
    some ((s.setUnit u { s.unit u with
      inflightNext := Function.update (s.unit u).inflightNext slot
        (s.unit u).freeHead
      freeHead := some slot }).goto u (.finish r err 0))
  else none

def submitStep (s : Config) (u : UnitNum) (ch : Choice) :
    SubmitAt → Option Config
  | .pop r => s.submitPop u r
  | .fill r slot => some (s.submitFill u r slot ch.data)
  | .add r slot sg => s.submitAdd u r slot sg ch.env
  | .account _ _ => some (s.submitAccount u)
  | .giveBack r slot err => s.submitReleaseSlot u r slot err

/-! ## DoIO -/

def doioFill (s : Config) (u : UnitNum) (call : SyncCall)
    (data : Option (List VringSg)) : Config :=
  let b := reqBuf u
  let s := s.prepare b 1
  match data with
  | none => s.goto u (.sync call (.leave hferrDma))
  | some data =>
      let sg := buildSg call.isWrite (s.setup.reqDma b) (s.setup.respDma b) data
      if maxSgEntries < sg.outNum + sg.inNum then
        s.goto u (.sync call (.leave hferrDma))
      else s.goto u (.sync { call with retries := 50, wakes := 0 } (.add sg))

def doioAdd (s : Config) (u : UnitNum) (call : SyncCall) (sg : SgList)
    (env : Virtqueue.IndirectEnv) : Option Config :=
  if s.ioLock = none then
    let serial := s.queue.hist.added.length
    let result := s.addBuf sg (reqBuf u) env
    if result.1 ≠ 0 then
      some (result.2.goto u (.sync call (.leave tderrNotSpecified)))
    else
      some ({ result.2 with ioLock := some u }.goto u
        (.sync { call with mine := serial } .mark))
  else none

def pollTimeout : ℕ := 500000

def doioMark (s : Config) (u : UnitNum) (call : SyncCall) : Config :=
  { s.setActive u with
    queue := s.queue.kick
    ioLock := none }.goto u
      (.sync call (if s.setup.irqInstalled then .enter else .poll pollTimeout))

/-- The top of the drain loop: the pending cookie first, then the ring. -/
def doioEnter (s : Config) (u : UnitNum) (call : SyncCall) : Option Config :=
  if s.ioLock = none then
    match (s.unit u).doioPending with
    | some taken =>
        if taken.cookie = reqBuf u then
          some ((s.setUnit u { s.unit u with doioPending := none }).goto u
            (.sync call (.clear (some taken))))
        else s.drain u (some call)
    | none => s.drain u (some call)
  else none

def doioWait (s : Config) (u : UnitNum) (call : SyncCall) : Option Config :=
  if s.ioSig u then
    let call' := { call with retries := call.retries - 1, wakes := call.wakes + 1 }
    some ({ s with ioSig := Function.update s.ioSig u false }.goto u
      (.sync call' (if call'.retries = 0 then .clear none else .enter)))
  else none

/-- The polling path takes no lock and any cookie. -/
def doioPoll (s : Config) (u : UnitNum) (call : SyncCall) (left : ℕ) :
    Option Config :=
  match s.getBuf with
  | none => none
  | some (none, s) =>
      some (s.goto u (.sync call
        (if left ≤ 1 then .check none else .poll (left - 1))))
  | some (some taken, s) => some (s.goto u (.sync call (.check (some taken))))

/-- `SetSignal(0, sig_mask)`. -/
def doioClear (s : Config) (u : UnitNum) (call : SyncCall)
    (taken : Option Completion) : Config :=
  { s with ioSig := Function.update s.ioSig u false }.goto u
    (.sync call (.check taken))

/-- Where an attempt with response `r` leads. -/
def doioOutcome (modern : Bool) (call : SyncCall) (r : Response) :
    SyncCall × SyncAt :=
  if r.response ≠ virtioScsiSOk then (call, .leave tderrNotSpecified)
  else
    let residual := r.residualNative modern
    let call := { call with
      residual := if call.dataLen < residual then call.dataLen else residual }
    if r.status = 2 then
      if 0 < call.tries then ({ call with tries := call.tries - 1 }, .fill)
      else (call, .leave (mapScsiError r.response r.status (r.sense &&& 0x0F)))
    else if r.status = 0 then (call, .leave 0)
    else (call, .leave (mapScsiError r.response r.status 0xFF))

def doioCheck (s : Config) (u : UnitNum) (call : SyncCall) :
    Option Completion → Config
  | none =>
      { s with journal := { s.journal with
          gaveUp := Function.update s.journal.gaveUp u (some call.mine) } }.goto u
            (.sync call (.leave ioerrSelfTest))
  | some taken =>
      let next := doioOutcome s.setup.modern call (s.resp (reqBuf u))
      (s.accept call.mine taken (reqBuf u)).goto u (.sync next.1 next.2)

/-- The mask update and the return to the caller. -/
def doioLeave (s : Config) (u : UnitNum) (call : SyncCall) (result : Int) :
    Option Config :=
  let next : Pc :=
    if call.fallback then
      if result ≠ 0 then .finish call.ioreq result 0
      else .finish call.ioreq 0 (call.ioreq.ioLength - call.residual)
    else .handler call.ioreq
  if (s.unit u).inflightCount = 0 then
    if s.ioLock = none then some ((s.clearActive u).goto u next) else none
  else some (s.goto u next)

def doioStep (s : Config) (u : UnitNum) (ch : Choice) (call : SyncCall) :
    SyncAt → Option Config
  | .fill => some (s.doioFill u call ch.data)
  | .add sg => s.doioAdd u call sg ch.env
  | .mark => some (s.doioMark u call)
  | .enter => s.doioEnter u call
  | .wait => s.doioWait u call
  | .poll left => s.doioPoll u call left
  | .clear taken => some (s.doioClear u call taken)
  | .check taken => some (s.doioCheck u call taken)
  | .leave result => s.doioLeave u call result

/-- A synchronous handler calls `DoIO` as often as it likes and then replies. -/
def handlerStep (s : Config) (u : UnitNum) (ch : Choice) (r : IORequest) :
    Config :=
  match ch.call with
  | some (isWrite, len) => s.goto u (.sync (newCall r false isWrite len) .fill)
  | none => s.goto u (.finish r ch.err ch.actual)

def taskStep (s : Config) (u : UnitNum) (ch : Choice) : Option Config :=
  match s.pc u with
  | .wait => s.wakeUp u
  | .drain caller => s.drain u caller
  | .handle caller taken what => s.handleTaken u caller taken what
  | .coalesce => some (s.coalesce u)
  | .dispatch => some (s.dispatch u)
  | .submit at_ => s.submitStep u ch at_
  | .handler r => some (s.handlerStep u ch r)
  | .sync call at_ => s.doioStep u ch call at_
  | .finish r err actual => some (s.finish u r err actual)
  | .kick => s.kick u

/-! ## Discovery -/

/-- An attempt of a discovery `DoIO`: fill, add and kick. -/
def probeAttempt (s : Config) (n tries : ℕ) (ch : Choice) : Config :=
  let b := ReqBuf.temp n
  let s := s.prepare b 1
  match ch.data with
  | none => { s with probe := .idle }
  | some data =>
      let sg := buildSg false (s.setup.reqDma b) (s.setup.respDma b) data
      if maxSgEntries < sg.outNum + sg.inNum then { s with probe := .idle }
      else
        let serial := s.queue.hist.added.length
        let result := s.addBuf sg b ch.env
        if result.1 ≠ 0 then { result.2 with probe := .idle }
        else { result.2 with
          queue := result.2.queue.kick
          probe := .polling ⟨n, tries, pollTimeout, serial⟩
          journal := { s.journal with
            probeChain := Function.update s.journal.probeChain n (some serial) } }

/-- Discovery polls without a task; it too takes any cookie. -/
def probePoll (s : Config) (call : ProbeCall) : Option Config :=
  match s.getBuf with
  | none => none
  | some (none, s) =>
      some { s with
        probe := if call.left ≤ 1 then .idle
          else .polling { call with left := call.left - 1 } }
  | some (some taken, s) =>
      let r := s.resp (.temp call.buf)
      let retry := decide (r.response = virtioScsiSOk ∧ r.status = 2 ∧ 0 < call.tries)
      let s := s.accept call.mine taken (.temp call.buf)
      some { s with
        probe := if retry then .attempt call.buf (call.tries - 1) else .idle
        journal := { s.journal with
          probeChain := Function.update s.journal.probeChain call.buf none } }

def probeStep (s : Config) (ch : Choice) : Option Config :=
  if s.running then none
  else
    match s.probe with
    | .idle => some { s with
        probe := .attempt s.nextTemp 2
        nextTemp := s.nextTemp + 1 }
    | .attempt n tries => some (s.probeAttempt n tries ch)
    | .polling call => s.probePoll call

/-! ## Interrupt handler and device -/

/-- `VirtIOSCSI_InterruptHandler`: reading the ISR clears it, and every unit
in the mask is signalled. -/
def interruptHandler (s : Config) : Option Config :=
  if s.setup.irqInstalled && s.queue.dev.isr then
    some { s with
      queue := { s.queue with dev := { s.queue.dev with isr := false } }
      ioSig := fun u => s.ioSig u || s.activeUnitsMask.getLsbD u.val }
  else none

/-- The device writes the response of a chain and publishes it. -/
def deviceComplete (s : Config) (i : ℕ) (len : BitVec 32) (r : Response) :
    Option Config :=
  match s.queue.dev.pending[i]?, s.queue.complete i len with
  | some (serial, _), some queue =>
      match s.queue.hist.added[serial]? with
      | some (_, cookie) =>
          some { s with
            queue := queue
            resp := Function.update s.resp cookie r
            journal := { s.journal with
              answer := Function.update s.journal.answer serial (some r) } }
      | none => none
  | _, _ => none

end Config

/-! ## The system -/

inductive Event where
  | task (u : UnitNum) (ch : Choice)
  | interrupt
  | fetch
  | complete (i : ℕ) (len : BitVec 32) (r : Response)
  | signal
  | rest
  | putMsg (u : UnitNum) (r : IORequest)
  | probe (ch : Choice)
  | start

namespace Config

def step (s : Config) : Event → Option Config
  | .task u ch => if s.running then s.taskStep u ch else none
  | .interrupt => s.interruptHandler
  | .fetch => s.queue.fetch.map fun queue => { s with queue := queue }
  | .complete i len r => s.deviceComplete i len r
  | .signal => s.queue.signal.map fun queue => { s with queue := queue }
  | .rest => s.queue.rest.map fun queue => { s with queue := queue }
  | .putMsg u r =>
      if s.running then
        some { s with
          port := Function.update s.port u (s.port u ++ [r])
          portSig := Function.update s.portSig u true }
      else none
  | .probe ch => s.probeStep ch
  | .start =>
      if s.running = false ∧ s.probe = .idle then some { s with running := true }
      else none

end Config

/-! ## Sample runs -/

/-- A legacy device with a queue of 16 entries and no indirect tables. -/
def sampleSetup (useEventIdx irqInstalled : Bool) : Setup where
  queueLog := 4
  queueLog_pos := by decide
  queueLog_le := by decide
  modern := false
  useEventIdx := useEventIdx
  useIndirect := false
  irqInstalled := irqInstalled
  reqDma := fun _ => [⟨0x1000, 51⟩]
  respDma := fun _ => [⟨0x2000, 108⟩]
  reqDma_ne := fun _ => by simp

def sampleRead (id : ℕ) : IORequest := ⟨id, .block false, 512, 0⟩

def sampleGeometryRequest (id : ℕ) : IORequest := ⟨id, .synchronous, 32, 0⟩

/-- A number of steps of one task, with data that is never mapped. -/
def taskSteps (u : UnitNum) (n : ℕ) : List Event :=
  List.replicate n (.task u {})

def goodResponse : Response := ⟨0, 0, 0, 0⟩

end VirtioScsi
