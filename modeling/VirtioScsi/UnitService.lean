import VirtioScsi.BlockAddressing
import VirtioScsi.GuardedRun

/-!
# A unit and its clients

`_manager_BeginIO` and `_manager_AbortIO` (`BeginIO.c`) run in the tasks of
any number of clients, next to the unit task (`unit_task.c`, from its event
loop to its shutdown drain) and to the tasks that complete requests of its
slots.  A step runs to the next point where another task can interfere: a
`ReplyMsg`, or a field that is used without a lock.  An `IORequest` is named by
its address.  Rounds and the records of `AbortIO` are history.
-/

namespace VirtioScsi

def ioerrOpenFail : Int := -1

/-! ## Commands -/

/-- `unit->changeint_req` and `unit->remove_req`. -/
inductive HeldField where
  | changeint
  | remove
deriving DecidableEq, Repr

/-- The cases of the switch of `_manager_BeginIO`. -/
inductive BeginCase where
  | hold (field : HeldField)
  | retire
  | inline
  | queued
deriving DecidableEq, Repr

namespace IoCommand

def beginIo : IoCommand → BeginCase
  | .tdAddChangeInt => .hold .changeint
  | .tdRemove => .hold .remove
  | .tdRemChangeInt => .retire
  | .cmdStop | .cmdStart | .tdMotor => .inline
  | .tdSeek | .tdEject | .tdSeek64 | .etdMotor | .etdSeek | .cmdClear
  | .etdClear => .inline
  | .tdChangeNum | .tdChangeState | .tdProtStatus | .tdGetDriveType => .inline
  | .nscmdDeviceQuery => .inline
  | .cmdRead | .etdRead | .cmdWrite | .tdFormat | .etdFormat | .etdWrite
  | .cmdUpdate | .cmdFlush | .etdUpdate | .hdScsiCmd | .tdGetGeometry
  | .tdGetNumTracks | .tdRead64 | .tdWrite64 | .tdFormat64 | .nscmdTdRead64
  | .nscmdTdWrite64 | .nscmdTdSeek64 | .nscmdTdFormat64
  | .nscmdTdGetGeometry64 | .nscmdTdChangeUnit | .nscmdTdAddStatCallback
  | .nscmdTdRemStatCallback | .nscmdEtdRead64 | .nscmdEtdWrite64
  | .nscmdEtdSeek64 | .nscmdEtdFormat64 => .queued
  | .unknown _ => .inline

/-- `io_Error` of a command that is answered inline. -/
def inlineError (ioLength : BitVec 32) : IoCommand → Int
  | .nscmdDeviceQuery => if ioLength.toNat < 16 then ioerrBadLength else 0
  | .unknown _ => ioerrNoCmd
  | _ => 0

end IoCommand

/-! ## State -/

/-- Where a client is in `BeginIO` or `AbortIO`. -/
inductive ClientAt where
  | idle
  | begin_ (req : ℕ) (cmd : IoCommand) (ioLength : BitVec 32) (quick : Bool)
  | hold (field : HeldField) (req : ℕ)
  | retire (req : ℕ) (quick : Bool)
  | put (req : ℕ)
  | scan (req : ℕ)
  | abort (req : ℕ)
deriving DecidableEq, Repr

/-- Where the unit task is.  `submit` is between the marking of the slot and
the end of `VirtIOSCSI_Submit`; `clearSlot` and `clearHeld` come after the
`ReplyMsg` of a drain. -/
inductive TaskAt where
  | wait
  | batch
  | dispatch (req : ℕ)
  | submit (req : ℕ) (slot : Slot)
  | drainSlots (next : ℕ)
  | clearSlot (slot : Slot)
  | drainPort
  | replyHeld (field : HeldField)
  | clearHeld (field : HeldField)
  | close
  | exited
deriving DecidableEq, Repr

/-- Where a task is that completes a request: in `complete_inflight_slot`
before the slot is released, or before the reply. -/
inductive HelperAt where
  | idle
  | complete (slot : Slot) (req : ℕ)
  | reply (req : ℕ)
deriving DecidableEq, Repr

/-- What happened to a request since its last `BeginIO`. -/
structure Round where
  begun : Bool
  dispatched : Bool
  replies : List Int
  quick : Bool
deriving DecidableEq, Repr

/-- A call of `AbortIO`, and the round of its request when it returned. -/
structure AbortRecord where
  req : ℕ
  rc : Int
  round : Round
deriving DecidableEq, Repr

/-- `heldReplied` tells that the request in a held field was already replied
(history). -/
structure Service where
  held : HeldField → Option ℕ
  heldReplied : HeldField → Bool
  port : Option (List ℕ)
  task : TaskAt
  inflight : Slot → Option ℕ
  client : ℕ → ClientAt
  helper : UnitNum → HelperAt
  round : ℕ → Round
  aborts : List AbortRecord

/-- What the environment decides in a step of the unit task: the slot a
request is submitted into, whether the submission succeeds, and the error of a
reply. -/
structure ServiceChoice where
  slot : Option Slot := none
  accepted : Bool := true
  err : Int := 0

inductive ServiceEvent where
  | beginIo (client req : ℕ) (cmd : IoCommand) (ioLength : BitVec 32) (quick : Bool)
  | abortIo (client req : ℕ)
  | client (client : ℕ)
  | open_
  | wake
  | shutdown
  | task (ch : ServiceChoice)
  | harvest (helper : UnitNum) (slot : Slot)
  | helper (helper : UnitNum) (err : Int)

namespace Service

def initial : Service where
  held := fun _ => none
  heldReplied := fun _ => false
  port := none
  task := .exited
  inflight := fun _ => none
  client := fun _ => .idle
  helper := fun _ => .idle
  round := fun _ => ⟨false, false, [], false⟩
  aborts := []

/-! ## Steps -/

def setHeld (s : Service) (f : HeldField) (v : Option ℕ) (replied : Bool) :
    Service :=
  { s with
    held := Function.update s.held f v
    heldReplied := Function.update s.heldReplied f replied }

def setClient (s : Service) (k : ℕ) (c : ClientAt) : Service :=
  { s with client := Function.update s.client k c }

def setHelper (s : Service) (h : UnitNum) (c : HelperAt) : Service :=
  { s with helper := Function.update s.helper h c }

def setInflight (s : Service) (sl : Slot) (v : Option ℕ) : Service :=
  { s with inflight := Function.update s.inflight sl v }

def reply (s : Service) (r : ℕ) (err : Int) : Service :=
  { s with
    round := Function.update s.round r
      { s.round r with replies := (s.round r).replies ++ [err] } }

/-- A `BeginIO` that ends inline: with `IOF_QUICK` set there is no reply. -/
def finishIo (s : Service) (r : ℕ) (err : Int) (quick : Bool) : Service :=
  if quick then
    { s with round := Function.update s.round r { s.round r with quick := true } }
  else s.reply r err

def pending (s : Service) (r : ℕ) : Prop :=
  (s.round r).begun = true ∧ (s.round r).replies = [] ∧ (s.round r).quick = false

instance (s : Service) (r : ℕ) : Decidable (s.pending r) :=
  inferInstanceAs (Decidable (_ ∧ _))

/-- A client calls `BeginIO` with a request of its own, or retires the held
one with itself. -/
def beginIo (s : Service) (k r : ℕ) (cmd : IoCommand) (ioLength : BitVec 32)
    (quick : Bool) : Option Service :=
  if s.client k = .idle ∧
      (¬ s.pending r ∨ cmd = .tdRemChangeInt ∧ s.held .changeint = some r) then
    some ({ s with
      round := Function.update s.round r ⟨true, false, [], false⟩ }.setClient k
        (.begin_ r cmd ioLength quick))
  else none

/-- `ReplyMsg` of the request in a held field, which is still there. -/
def replyHeld (s : Service) (f : HeldField) (p : ℕ) (err : Int) : Service :=
  (s.reply p err).setHeld f (some p) true

/-- The switch of `_manager_BeginIO`. -/
def beginSwitch (s : Service) (k r : ℕ) (cmd : IoCommand) (ioLength : BitVec 32)
    (quick : Bool) : Service :=
  match cmd.beginIo with
  | .hold f =>
      match s.held f with
      | some p => (s.replyHeld f p ioerrAborted).setClient k (.hold f r)
      | none => s.setClient k (.hold f r)
  | .retire =>
      match s.held .changeint with
      | some p => (s.replyHeld .changeint p 0).setClient k (.retire r quick)
      | none => (s.finishIo r 0 quick).setClient k .idle
  | .inline => (s.finishIo r (cmd.inlineError ioLength) quick).setClient k .idle
  | .queued =>
      match s.port with
      | none => (s.finishIo r ioerrOpenFail quick).setClient k .idle
      | some _ => s.setClient k (.put r)

/-- `AbortIO` up to the port. -/
def abortIo (s : Service) (k r : ℕ) : Option Service :=
  if s.client k = .idle then
    match s.port with
    | none => some { s with aborts := s.aborts ++ [AbortRecord.mk r ioerrNoCmd (s.round r)] }
    | some _ => some (s.setClient k (.scan r))
  else none

/-- The traversal of the port; a port that was freed meanwhile has no
behaviour. -/
def abortScan (s : Service) (k r : ℕ) : Option Service :=
  match s.port with
  | none => none
  | some l =>
      if r ∈ l then some ({ s with port := some (l.erase r) }.setClient k (.abort r))
      else some ({ s with
        aborts := s.aborts ++ [AbortRecord.mk r ioerrNoCmd (s.round r)] }.setClient k .idle)

def abortReply (s : Service) (k r : ℕ) : Service :=
  let s := s.reply r ioerrAborted
  { s with aborts := s.aborts ++ [AbortRecord.mk r 0 (s.round r)] }.setClient k .idle

def clientStep (s : Service) (k : ℕ) : Option Service :=
  match s.client k with
  | .idle => none
  | .begin_ r cmd ioLength quick => some (s.beginSwitch k r cmd ioLength quick)
  | .hold f r => some ((s.setHeld f (some r) false).setClient k .idle)
  | .retire r quick =>
      some (((s.setHeld .changeint none false).finishIo r 0 quick).setClient k .idle)
  | .put r => some ({ s with port := s.port.map (· ++ [r]) }.setClient k .idle)
  | .scan r => s.abortScan k r
  | .abort r => some (s.abortReply k r)

/-- Where `Reply_Held_Async_Reqs` goes on after a field. -/
def afterHeld : HeldField → TaskAt
  | .changeint => .replyHeld .remove
  | .remove => .close

def taskStep (s : Service) (ch : ServiceChoice) : Option Service :=
  match s.task with
  | .wait => none
  | .batch =>
      match s.port with
      | none => none
      | some [] => some { s with task := .wait }
      | some (r :: rest) =>
          some { s with
            port := some rest
            round := Function.update s.round r { s.round r with dispatched := true }
            task := .dispatch r }
  | .dispatch r =>
      match ch.slot with
      | some sl => some { s.setInflight sl (some r) with task := .submit r sl }
      | none => some { s.reply r ch.err with task := .batch }
  | .submit r sl =>
      if ch.accepted then some { s with task := .batch }
      else some { (s.setInflight sl none).reply r ch.err with task := .batch }
  | .drainSlots n =>
      if h : n < 16 then
        match s.inflight ⟨n, h⟩ with
        | some r => some { s.reply r ioerrAborted with task := .clearSlot ⟨n, h⟩ }
        | none => some { s with task := .drainSlots (n + 1) }
      else some { s with task := .drainPort }
  | .clearSlot sl =>
      some { s.setInflight sl none with task := .drainSlots (sl.val + 1) }
  | .drainPort =>
      match s.port with
      | none => none
      | some [] => some { s with task := .replyHeld .changeint }
      | some (r :: rest) => some { s.reply r ioerrAborted with port := some rest }
  | .replyHeld f =>
      match s.held f with
      | some p => some { s.replyHeld f p ioerrAborted with task := .clearHeld f }
      | none => some { s with task := afterHeld f }
  | .clearHeld f => some { s.setHeld f none false with task := afterHeld f }
  | .close => some { s with port := none, task := .exited }
  | .exited => none

/-- A task takes the completion of a slot and reads its request. -/
def harvest (s : Service) (h : UnitNum) (sl : Slot) : Option Service :=
  if s.helper h = .idle then
    (s.inflight sl).map fun r => s.setHelper h (.complete sl r)
  else none

def helperStep (s : Service) (h : UnitNum) (err : Int) : Option Service :=
  match s.helper h with
  | .idle => none
  | .complete sl r => some ((s.setInflight sl none).setHelper h (.reply r))
  | .reply r => some ((s.reply r err).setHelper h .idle)

def step (s : Service) : ServiceEvent → Option Service
  | .beginIo k r cmd ioLength quick => s.beginIo k r cmd ioLength quick
  | .abortIo k r => s.abortIo k r
  | .client k => s.clientStep k
  | .open_ => if s.task = .exited then some { s with task := .wait, port := some [] } else none
  | .wake => if s.task = .wait then some { s with task := .batch } else none
  | .shutdown => if s.task = .wait then some { s with task := .drainSlots 0 } else none
  | .task ch => s.taskStep ch
  | .harvest h sl => s.harvest h sl
  | .helper h err => s.helperStep h err

end Service
end VirtioScsi
