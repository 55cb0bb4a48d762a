import VirtioScsi.UnitTasks
import VirtioScsi.Custody
import VirtioScsi.QueueSteps

/-!
# What a step of the system can do

`Move` lists the effect of every branch of the step function together with
the facts that hold when the branch is taken; `step_move` says that there are
no others.  `Quiet` collects the branches that touch neither the queue nor a
slot.  Invariants look at a program counter through its `Standing` only.
-/

namespace VirtioScsi

open RequestQueue

def RequestQueue.Ok (q : RequestQueue ReqBuf) : Prop :=
  ∃ free chain, q.Inv free chain

/-! ## Standing -/

/-- What a program counter says about chains, slots and the lock: the
completion in hand, the slot popped but not in flight with the request it is
marked with, the slot in flight but not counted, the chain `DoIO` waits for,
whether `DoIO` uses its buffer without a chain, and whether `io_lock` is held. -/
structure Standing where
  held : Option (Hold × Completion) := none
  filling : Option Slot := none
  marked : Option IORequest := none
  counting : Option Slot := none
  awaiting : Option ℕ := none
  reserved : Bool := false
  locked : Bool := false
deriving DecidableEq, Repr

@[simp] def Handling.hold : Handling → Hold
  | .route => .routing
  | .stash => .stashing
  | .release u sl _ _ _ => .releasing u sl
  | .reply _ _ _ => .done

@[simp] def SubmitAt.standing : SubmitAt → Standing
  | .pop _ => {}
  | .fill _ sl => { filling := some sl }
  | .add r sl _ => { filling := some sl, marked := some r }
  | .account _ sl => { counting := some sl, locked := true }
  | .giveBack _ sl _ => { filling := some sl }

@[simp] def SyncAt.standing (mine : ℕ) : SyncAt → Standing
  | .fill => {}
  | .add _ => { reserved := true }
  | .mark => { awaiting := some mine, locked := true }
  | .enter => { awaiting := some mine }
  | .wait => { awaiting := some mine }
  | .poll _ => { awaiting := some mine }
  | .clear none => { awaiting := some mine }
  | .check none => { awaiting := some mine }
  | .clear (some c) => { held := some (.done, c), reserved := true }
  | .check (some c) => { held := some (.done, c), reserved := true }
  | .leave _ => {}

def Pc.standing : Pc → Standing
  | .wait => {}
  | .drain caller => { awaiting := caller.map SyncCall.mine }
  | .handle caller c what =>
      { held := some (what.hold, c), awaiting := caller.map SyncCall.mine }
  | .coalesce => { locked := true }
  | .dispatch => {}
  | .submit at_ => at_.standing
  | .handler _ => {}
  | .sync call at_ => at_.standing call.mine
  | .finish _ _ _ => {}
  | .kick => {}

def commandPc (r : IORequest) : Pc :=
  match r.command with
  | .block _ => .submit (.pop r)
  | .synchronous => .handler r
  | .immediate err => .finish r err r.ioActual

@[simp] theorem commandPc_standing (r : IORequest) :
    (commandPc r).standing = {} := by
  unfold commandPc
  cases r.command <;> rfl

def returnPc (call : SyncCall) (result : Int) : Pc :=
  if call.fallback then
    if result ≠ 0 then .finish call.ioreq result 0
    else .finish call.ioreq 0 (call.ioreq.ioLength - call.residual)
  else .handler call.ioreq

@[simp] theorem returnPc_standing (call : SyncCall) (result : Int) :
    (returnPc call result).standing = {} := by
  unfold returnPc
  split_ifs <;> rfl

namespace Config

def standing (s : Config) (u : UnitNum) : Standing :=
  (s.pc u).standing

theorem standing_of {s : Config} {u : UnitNum} {p : Pc} (h : s.pc u = p) :
    s.standing u = p.standing :=
  congrArg Pc.standing h

theorem standing_goto (s : Config) (u : UnitNum) (p : Pc) :
    (s.goto u p).standing = Function.update s.standing u p.standing := by
  funext v
  simp only [standing, goto, Function.update_apply]
  split <;> rfl

/-! ## Moves -/

def Draining (s : Config) (u : UnitNum) (caller : Option SyncCall) : Prop :=
  s.pc u = .drain caller ∨ ∃ call, caller = some call ∧ s.pc u = .sync call .enter

theorem Draining.standing {s : Config} {u : UnitNum} {caller : Option SyncCall}
    (h : s.Draining u caller) :
    s.standing u = { awaiting := caller.map SyncCall.mine } := by
  rcases h with hpc | ⟨call, rfl, hpc⟩
  · exact standing_of hpc
  · exact standing_of hpc

/-- The steps of task `u` that change neither the queue, nor a slot, nor who
has which chain. -/
inductive Quiet (s : Config) (u : UnitNum) : Config → Prop
  | wakeUp (hpc : s.pc u = .wait) (hsig : (s.ioSig u || s.portSig u) = true) :
      Quiet s u ({ s with
        ioSig := Function.update s.ioSig u false
        portSig := Function.update s.portSig u false
        sigsPort := Function.update s.sigsPort u (s.portSig u) }.goto u
          (if s.ioSig u then .drain none else .dispatch))
  | drained (call : SyncCall) (hpc : s.Draining u (some call))
      (hlock : s.ioLock = none)
      (hempty : s.queue.hist.returned.length = s.queue.hist.published.length) :
      Quiet s u (s.goto u (.sync call .wait))
  | noMessage (hpc : s.pc u = .dispatch) (hport : s.port u = []) :
      Quiet s u (s.goto u (if s.needKick u then .kick else .wait))
  | message (r : IORequest) (rest : List IORequest) (hpc : s.pc u = .dispatch)
      (hport : s.port u = r :: rest) :
      Quiet s u ({ s with port := Function.update s.port u rest }.goto u
        (commandPc r))
  | noSlot (r : IORequest) (hpc : s.pc u = .submit (.pop r))
      (hlock : s.ioLock = none) (hfree : (s.unit u).freeHead = none) :
      Quiet s u (s.goto u
        (.sync (newCall r true (isWriteCommand r.command) r.ioLength) .fill))
  | handler (r : IORequest) (p : Pc) (hpc : s.pc u = .handler r)
      (hp : (∃ isWrite len, p = .sync (newCall r false isWrite len) .fill) ∨
        ∃ err actual, p = .finish r err actual) : Quiet s u (s.goto u p)
  | woken (call : SyncCall) (at_ : SyncAt) (hpc : s.pc u = .sync call .wait)
      (hsig : s.ioSig u = true)
      (hat : at_ = if call.retries - 1 = 0 then .clear none else .enter) :
      Quiet s u ({ s with ioSig := Function.update s.ioSig u false }.goto u
        (.sync { call with retries := call.retries - 1, wakes := call.wakes + 1 }
          at_))
  | polled (call : SyncCall) (left : ℕ)
      (hpc : s.pc u = .sync call (.poll left))
      (hempty : s.queue.hist.returned.length = s.queue.hist.published.length) :
      Quiet s u (s.goto u
        (.sync call (if left ≤ 1 then .check none else .poll (left - 1))))
  | clear (call : SyncCall) (taken : Option Completion)
      (hpc : s.pc u = .sync call (.clear taken)) :
      Quiet s u ({ s with ioSig := Function.update s.ioSig u false }.goto u
        (.sync call (.check taken)))
  | finish (r : IORequest) (err : Int) (actual : BitVec 32)
      (hpc : s.pc u = .finish r err actual) :
      Quiet s u ((s.reply none r err actual).goto u .dispatch)

inductive Move (s : Config) : Event → Config → Prop
  | quiet (u : UnitNum) (ch : Choice) (s' : Config) (h : s.Quiet u s') :
      Move s (.task u ch) s'
  | harvested (u : UnitNum) (ch : Choice) (hpc : s.pc u = .drain none)
      (hlock : s.ioLock = none)
      (hempty : s.queue.hist.returned.length = s.queue.hist.published.length) :
      Move s (.task u ch) ({ s with ioLock := some u }.goto u .coalesce)
  | take (u : UnitNum) (ch : Choice) (caller : Option SyncCall)
      (serial : ℕ) (x : BitVec 16 × ReqBuf) (len : BitVec 32)
      (q' : RequestQueue ReqBuf) (hpc : s.Draining u caller)
      (hlock : s.ioLock = none) (htake : s.queue.TakenFrom q' serial x len)
      (hq : q'.Ok) (hforeign : caller ≠ none → x.2 ≠ reqBuf u) :
      Move s (.task u ch)
        ({ s with queue := q' }.goto u (.handle caller ⟨x.2, serial⟩ .route))
  | takeOwn (u : UnitNum) (ch : Choice) (call : SyncCall)
      (serial : ℕ) (x : BitVec 16 × ReqBuf) (len : BitVec 32)
      (q' : RequestQueue ReqBuf) (hpc : s.Draining u (some call))
      (hlock : s.ioLock = none) (htake : s.queue.TakenFrom q' serial x len)
      (hq : q'.Ok) (hown : x.2 = reqBuf u) :
      Move s (.task u ch)
        ({ s with queue := q' }.goto u
          (.sync call (.clear (some ⟨x.2, serial⟩))))
  | pick (u : UnitNum) (ch : Choice) (call : SyncCall) (c : Completion)
      (hpc : s.pc u = .sync call .enter) (hlock : s.ioLock = none)
      (hpending : (s.unit u).doioPending = some c)
      (hown : c.cookie = reqBuf u) :
      Move s (.task u ch)
        ((s.setUnit u { s.unit u with doioPending := none }).goto u
          (.sync call (.clear (some c))))
  | found (u : UnitNum) (ch : Choice) (caller : Option SyncCall)
      (c : Completion) (cu : UnitNum) (cs : Slot) (r : IORequest)
      (hpc : s.pc u = .handle caller c .route)
      (hlookup : s.lookup c.cookie = some (cu, cs, r)) :
      Move s (.task u ch) (s.goto u (.handle caller c (.release cu cs r
        (completionStatus s.setup.modern (s.resp (.slot cu cs)) r.ioLength).1
        (completionStatus s.setup.modern (s.resp (.slot cu cs)) r.ioLength).2)))
  | foreign (u : UnitNum) (ch : Choice) (call : SyncCall) (c : Completion)
      (hpc : s.pc u = .handle (some call) c .route)
      (hlookup : s.lookup c.cookie = none) :
      Move s (.task u ch) (s.goto u (.handle (some call) c .stash))
  | stash (u : UnitNum) (ch : Choice) (caller : Option SyncCall)
      (c : Completion)
      (hpc : (caller = none ∧ s.pc u = .handle none c .route ∧
        s.lookup c.cookie = none) ∨ s.pc u = .handle caller c .stash) :
      Move s (.task u ch) ((s.stashCookie c).goto u (.drain caller))
  | release (u : UnitNum) (ch : Choice) (caller : Option SyncCall)
      (c : Completion) (cu : UnitNum) (cs : Slot) (r : IORequest) (err : Int)
      (actual : BitVec 32)
      (hpc : s.pc u = .handle caller c (.release cu cs r err actual))
      (hlock : s.ioLock = none) :
      Move s (.task u ch)
        ((s.releaseSlot cu cs).goto u (.handle caller c (.reply r err actual)))
  | reply (u : UnitNum) (ch : Choice) (caller : Option SyncCall)
      (c : Completion) (r : IORequest) (err : Int) (actual : BitVec 32)
      (hpc : s.pc u = .handle caller c (.reply r err actual)) :
      Move s (.task u ch)
        ((s.reply (some c.serial) r err actual).goto u (.drain caller))
  | coalesce (u : UnitNum) (ch : Choice) (hpc : s.pc u = .coalesce) :
      Move s (.task u ch) (s.coalesce u)
  | pop (u : UnitNum) (ch : Choice) (r : IORequest) (sl : Slot)
      (hpc : s.pc u = .submit (.pop r)) (hlock : s.ioLock = none)
      (hfree : (s.unit u).freeHead = some sl) :
      Move s (.task u ch)
        ((s.setUnit u { s.unit u with
          freeHead := (s.unit u).inflightNext sl }).goto u
            (.submit (.fill r sl)))
  | fillFailed (u : UnitNum) (ch : Choice) (r : IORequest) (sl : Slot)
      (hpc : s.pc u = .submit (.fill r sl)) :
      Move s (.task u ch)
        ((s.prepare (.slot u sl) (requestId u sl)).goto u
          (.submit (.giveBack r sl hferrDma)))
  | fill (u : UnitNum) (ch : Choice) (r : IORequest) (sl : Slot) (sg : SgList)
      (hpc : s.pc u = .submit (.fill r sl)) (hsg : 1 ≤ sg.outNum + sg.inNum) :
      Move s (.task u ch)
        (((s.prepare (.slot u sl) (requestId u sl)).setInflight u sl
          { (s.unit u).inflight sl with
            ioreq := some r, cookie := some (.slot u sl) }).goto u
              (.submit (.add r sl sg)))
  | addFailed (u : UnitNum) (ch : Choice) (r : IORequest) (sl : Slot)
      (sg : SgList) (hpc : s.pc u = .submit (.add r sl sg))
      (hlock : s.ioLock = none) :
      Move s (.task u ch)
        ((s.setInflight u sl { (s.unit u).inflight sl with
          ioreq := none, cookie := none }).goto u
            (.submit (.giveBack r sl tderrNotSpecified)))
  | add (u : UnitNum) (ch : Choice) (r : IORequest) (sl : Slot)
      (sg : SgList) (q' : RequestQueue ReqBuf)
      (hpc : s.pc u = .submit (.add r sl sg)) (hlock : s.ioLock = none)
      (hadd : s.queue.AddedTo q' (.slot u sl)) (hq : q'.Ok) :
      Move s (.task u ch)
        ({ ({ s with queue := q' }.setInflight u sl { (s.unit u).inflight sl with
            serial := s.queue.hist.added.length }) with
          ioLock := some u
          journal := { s.journal with
            submitted := s.journal.submitted ++
              [Submission.mk s.queue.hist.added.length u sl r] } }.goto u
              (.submit (.account r sl)))
  | account (u : UnitNum) (ch : Choice) (r : IORequest) (sl : Slot)
      (hpc : s.pc u = .submit (.account r sl)) :
      Move s (.task u ch) (s.submitAccount u)
  | giveBack (u : UnitNum) (ch : Choice) (r : IORequest) (sl : Slot)
      (err : Int) (hpc : s.pc u = .submit (.giveBack r sl err))
      (hlock : s.ioLock = none) :
      Move s (.task u ch)
        ((s.setUnit u { s.unit u with
          inflightNext := Function.update (s.unit u).inflightNext sl
            (s.unit u).freeHead
          freeHead := some sl }).goto u (.finish r err 0))
  | prepareFailed (u : UnitNum) (ch : Choice) (call : SyncCall)
      (hpc : s.pc u = .sync call .fill) :
      Move s (.task u ch)
        ((s.prepare (reqBuf u) 1).goto u (.sync call (.leave hferrDma)))
  | prepare (u : UnitNum) (ch : Choice) (call : SyncCall) (sg : SgList)
      (hpc : s.pc u = .sync call .fill) (hsg : 1 ≤ sg.outNum + sg.inNum) :
      Move s (.task u ch)
        ((s.prepare (reqBuf u) 1).goto u
          (.sync { call with retries := 50, wakes := 0 } (.add sg)))
  | syncFailed (u : UnitNum) (ch : Choice) (call : SyncCall) (sg : SgList)
      (hpc : s.pc u = .sync call (.add sg)) (hlock : s.ioLock = none) :
      Move s (.task u ch)
        (s.goto u (.sync call (.leave tderrNotSpecified)))
  | sync (u : UnitNum) (ch : Choice) (call : SyncCall) (sg : SgList)
      (q' : RequestQueue ReqBuf) (hpc : s.pc u = .sync call (.add sg))
      (hlock : s.ioLock = none) (hadd : s.queue.AddedTo q' (reqBuf u))
      (hq : q'.Ok) :
      Move s (.task u ch)
        ({ s with queue := q', ioLock := some u }.goto u
          (.sync { call with mine := s.queue.hist.added.length } .mark))
  | mark (u : UnitNum) (ch : Choice) (call : SyncCall)
      (hpc : s.pc u = .sync call .mark) : Move s (.task u ch) (s.doioMark u call)
  | pollTake (u : UnitNum) (ch : Choice) (call : SyncCall) (left serial : ℕ)
      (x : BitVec 16 × ReqBuf) (len : BitVec 32) (q' : RequestQueue ReqBuf)
      (hpc : s.pc u = .sync call (.poll left))
      (htake : s.queue.TakenFrom q' serial x len) (hq : q'.Ok) :
      Move s (.task u ch)
        ({ s with queue := q' }.goto u
          (.sync call (.check (some ⟨x.2, serial⟩))))
  | giveUp (u : UnitNum) (ch : Choice) (call : SyncCall)
      (hpc : s.pc u = .sync call (.check none)) :
      Move s (.task u ch) (s.doioCheck u call none)
  | accept (u : UnitNum) (ch : Choice) (call : SyncCall) (c : Completion)
      (hpc : s.pc u = .sync call (.check (some c))) :
      Move s (.task u ch) (s.doioCheck u call (some c))
  | leave (u : UnitNum) (ch : Choice) (call : SyncCall) (result : Int)
      (hpc : s.pc u = .sync call (.leave result))
      (hlock : (s.unit u).inflightCount = 0 → s.ioLock = none) :
      Move s (.task u ch)
        ((if (s.unit u).inflightCount = 0 then s.clearActive u else s).goto u
          (returnPc call result))
  | kick (u : UnitNum) (ch : Choice) (hpc : s.pc u = .kick)
      (hlock : s.ioLock = none) :
      Move s (.task u ch)
        ({ s with
          queue := s.queue.kick
          needKick := Function.update s.needKick u false }.goto u .wait)
  | probeBegin (ch : Choice) (hrun : s.running = false)
      (hprobe : s.probe = .idle) :
      Move s (.probe ch) { s with
        probe := .attempt s.nextTemp 2
        nextTemp := s.nextTemp + 1 }
  | probeFailed (ch : Choice) (n tries : ℕ) (hrun : s.running = false)
      (hprobe : s.probe = .attempt n tries) :
      Move s (.probe ch) { s.prepare (.temp n) 1 with probe := .idle }
  | probeAdd (ch : Choice) (n tries : ℕ) (q' : RequestQueue ReqBuf)
      (hrun : s.running = false) (hprobe : s.probe = .attempt n tries)
      (hadd : s.queue.AddedTo q' (.temp n)) (hq : q'.Ok) :
      Move s (.probe ch) { s.prepare (.temp n) 1 with
        queue := q'.kick
        probe := .polling ⟨n, tries, pollTimeout, s.queue.hist.added.length⟩
        journal := { s.journal with
          probeChain := Function.update s.journal.probeChain n
            (some s.queue.hist.added.length) } }
  | probePolled (ch : Choice) (call : ProbeCall) (hrun : s.running = false)
      (hprobe : s.probe = .polling call)
      (hempty : s.queue.hist.returned.length = s.queue.hist.published.length) :
      Move s (.probe ch) { s with
        probe := if call.left ≤ 1 then .idle
          else .polling { call with left := call.left - 1 } }
  | probeTake (ch : Choice) (call : ProbeCall) (serial : ℕ)
      (x : BitVec 16 × ReqBuf) (len : BitVec 32) (q' : RequestQueue ReqBuf)
      (p : Probe) (hrun : s.running = false) (hprobe : s.probe = .polling call)
      (htake : s.queue.TakenFrom q' serial x len)
      (hq : q'.Ok) (hp : p = .idle ∨ p = .attempt call.buf (call.tries - 1)) :
      Move s (.probe ch) { s with
        queue := q'
        probe := p
        journal := { s.journal with
          accepted := s.journal.accepted ++
            [⟨call.mine, ⟨x.2, serial⟩, s.resp (.temp call.buf)⟩]
          probeChain :=
            Function.update s.journal.probeChain call.buf none } }
  | interrupt (hirq : s.setup.irqInstalled = true)
      (hisr : s.queue.dev.isr = true) :
      Move s .interrupt { s with
        queue := { s.queue with dev := { s.queue.dev with isr := false } }
        ioSig := fun u => s.ioSig u || s.activeUnitsMask.getLsbD u.val }
  | fetch (q' : RequestQueue ReqBuf) (hfetch : s.queue.fetch = some q') :
      Move s .fetch { s with queue := q' }
  | complete (i : ℕ) (len : BitVec 32) (r : Response) (serial : ℕ)
      (x : BitVec 16 × ReqBuf) (q' : RequestQueue ReqBuf)
      (hpending : s.queue.dev.pending[i]? = some (serial, x.1))
      (hcomplete : s.queue.complete i len = some q')
      (hadded : s.queue.hist.added[serial]? = some x) :
      Move s (.complete i len r) { s with
        queue := q'
        resp := Function.update s.resp x.2 r
        journal := { s.journal with
          answer := Function.update s.journal.answer serial (some r) } }
  | signal (q' : RequestQueue ReqBuf) (hsignal : s.queue.signal = some q') :
      Move s .signal { s with queue := q' }
  | rest (q' : RequestQueue ReqBuf) (hrest : s.queue.rest = some q') :
      Move s .rest { s with queue := q' }
  | putMsg (u : UnitNum) (r : IORequest) (hrun : s.running = true) :
      Move s (.putMsg u r) { s with
        port := Function.update s.port u (s.port u ++ [r])
        portSig := Function.update s.portSig u true }
  | start (hrun : s.running = false) (hprobe : s.probe = .idle) :
      Move s .start { s with running := true }

/-! ## Every step is a move -/

variable {s s' : Config} {u : UnitNum} {ch : Choice} {e : Event}

/-- A list at `AddBuf` is not empty. -/
def PcFilled : Pc → Prop
  | .submit (.add _ _ sg) => 1 ≤ sg.outNum + sg.inNum
  | .sync _ (.add sg) => 1 ≤ sg.outNum + sg.inNum
  | _ => True

/-- `VirtQueue_GetBuf` finds the used ring empty or takes its oldest entry. -/
theorem getBuf_cases (hq : s.queue.Ok) :
    (s.getBuf = some (none, s) ∧
        s.queue.hist.returned.length = s.queue.hist.published.length) ∨
      ∃ serial x len q', s.getBuf =
          some (some ⟨x.2, serial⟩, { s with queue := q' }) ∧
        s.queue.TakenFrom q' serial x len ∧ q'.Ok := by
  obtain ⟨free, chain, hi⟩ := hq
  unfold Config.getBuf
  rcases hi.getBuf with ⟨hget, hempty⟩ | ⟨serial, x, len, q', hget, htake, hi'⟩
  · rw [hget]
    exact .inl ⟨rfl, hempty⟩
  · rw [hget]
    refine .inr ⟨serial, x, len, q', ?_, htake, _, _, hi'⟩
    simp [nextSerial, htake.published]

/-- `VirtQueue_AddBuf` refuses the request, leaving the queue alone, or adds it. -/
theorem addBuf_cases (hq : s.queue.Ok) (sg : SgList) (cookie : ReqBuf)
    (env : Virtqueue.IndirectEnv) (hsg : 1 ≤ sg.outNum + sg.inNum) :
    (s.addBuf sg cookie env).1 ≠ 0 ∧ (s.addBuf sg cookie env).2 = s ∨
      (s.addBuf sg cookie env).1 = 0 ∧ ∃ q', (s.addBuf sg cookie env).2 =
          { s with queue := q' } ∧ s.queue.AddedTo q' cookie ∧ q'.Ok := by
  obtain ⟨free, chain, hi⟩ := hq
  by_cases hrc : (s.queue.addBuf sg.get sg.outNum sg.inNum cookie env).1 = 0
  · obtain ⟨hadd, -, cells, rest, -, hi'⟩ := hi.addBuf hsg hrc
    exact .inr ⟨hrc, _, rfl, hadd, _, _, hi'⟩
  · refine .inl ⟨hrc, ?_⟩
    show { s with queue := _ } = s
    rw [addBuf_failed hrc]

theorem buildSg_pos (s : Config) (isWrite : Bool) (b : ReqBuf)
    (data : List VringSg) :
    1 ≤ (buildSg isWrite (s.setup.reqDma b) (s.setup.respDma b) data).outNum +
      (buildSg isWrite (s.setup.reqDma b) (s.setup.respDma b) data).inNum := by
  rw [buildSg_total]
  have hpos := List.length_pos_of_ne_nil (s.setup.reqDma_ne b)
  omega

theorem drain_move {caller : Option SyncCall} (hq : s.queue.Ok)
    (hpc : s.Draining u caller) (h : s.drain u caller = some s') :
    s.Move (.task u ch) s' := by
  unfold drain at h
  split at h
  · next hlock =>
    rcases getBuf_cases hq with ⟨hget, hempty⟩ | ⟨serial, x, len, q', hget, htake, hq'⟩
    · rw [hget] at h
      cases caller with
      | none =>
          cases h
          rcases hpc with hpc | ⟨call, hcall, -⟩
          · exact .harvested u ch hpc hlock hempty
          · cases hcall
      | some call =>
          cases h
          exact .quiet u ch _ (.drained call hpc hlock hempty)
    · rw [hget] at h
      cases caller with
      | none =>
          cases h
          exact .take u ch none serial x len q' hpc hlock htake hq' (absurd rfl)
      | some call =>
          simp only at h
          split at h
          · next hown =>
            cases h
            exact .takeOwn u ch call serial x len q' hpc hlock htake hq' hown
          · next hown =>
            cases h
            exact .take u ch (some call) serial x len q' hpc hlock htake hq'
              fun _ => hown
  · cases h

theorem handleTaken_move {caller : Option SyncCall} {c : Completion}
    {what : Handling} (hpc : s.pc u = .handle caller c what)
    (h : s.handleTaken u caller c what = some s') : s.Move (.task u ch) s' := by
  cases what with
  | route =>
      cases h
      unfold route
      cases hlookup : s.lookup c.cookie with
      | some found =>
          obtain ⟨cu, cs, r⟩ := found
          exact .found u ch caller c cu cs r hpc hlookup
      | none =>
          cases caller with
          | none => exact .stash u ch none c (.inl ⟨rfl, hpc, hlookup⟩)
          | some call => exact .foreign u ch call c hpc hlookup
  | stash =>
      simp only [handleTaken] at h
      split at h
      · cases h
        exact .stash u ch caller c (.inr hpc)
      · cases h
  | release cu cs r err actual =>
      simp only [handleTaken] at h
      split at h
      · next hlock =>
        cases h
        exact .release u ch caller c cu cs r err actual hpc hlock
      · cases h
  | reply r err actual =>
      cases h
      exact .reply u ch caller c r err actual hpc

theorem submitStep_move {at_ : SubmitAt} (hq : s.queue.Ok)
    (hfilled : PcFilled (s.pc u)) (hpc : s.pc u = .submit at_)
    (h : s.submitStep u ch at_ = some s') : s.Move (.task u ch) s' := by
  cases at_ with
  | pop r =>
      simp only [submitStep, submitPop] at h
      split at h
      · next hlock =>
        split at h
        · next hfree =>
          cases h
          exact .quiet u ch _ (.noSlot r hpc hlock hfree)
        · next sl hfree =>
          cases h
          exact .pop u ch r sl hpc hlock hfree
      · cases h
  | fill r sl =>
      simp only [submitStep, submitFill] at h
      split at h
      · cases h
        exact .fillFailed u ch r sl hpc
      · next data _ =>
        split at h
        · cases h
          exact .fillFailed u ch r sl hpc
        · cases h
          exact .fill u ch r sl _ hpc (s.buildSg_pos _ _ _)
  | add r sl sg =>
      simp only [submitStep, submitAdd] at h
      rw [hpc] at hfilled
      split at h
      · next hlock =>
        rcases addBuf_cases hq sg (.slot u sl) ch.env hfilled with
          ⟨hrc, hsame⟩ | ⟨hrc, q', hq', hadd, hok⟩
        · rw [if_pos hrc, hsame] at h
          cases h
          exact .addFailed u ch r sl sg hpc hlock
        · rw [if_neg (not_not.mpr hrc), hq'] at h
          cases h
          exact .add u ch r sl sg q' hpc hlock hadd hok
      · cases h
  | account r sl =>
      cases h
      exact .account u ch r sl hpc
  | giveBack r sl err =>
      simp only [submitStep, submitReleaseSlot] at h
      split at h
      · next hlock =>
        cases h
        exact .giveBack u ch r sl err hpc hlock
      · cases h

theorem doioStep_move {call : SyncCall} {at_ : SyncAt} (hq : s.queue.Ok)
    (hfilled : PcFilled (s.pc u)) (hpc : s.pc u = .sync call at_)
    (h : s.doioStep u ch call at_ = some s') : s.Move (.task u ch) s' := by
  cases at_ with
  | fill =>
      simp only [doioStep, doioFill] at h
      split at h
      · cases h
        exact .prepareFailed u ch call hpc
      · next data _ =>
        split at h
        · cases h
          exact .prepareFailed u ch call hpc
        · cases h
          exact .prepare u ch call _ hpc (s.buildSg_pos _ _ _)
  | add sg =>
      simp only [doioStep, doioAdd] at h
      rw [hpc] at hfilled
      split at h
      · next hlock =>
        rcases addBuf_cases hq sg (reqBuf u) ch.env hfilled with
          ⟨hrc, hsame⟩ | ⟨hrc, q', hq', hadd, hok⟩
        · rw [if_pos hrc, hsame] at h
          cases h
          exact .syncFailed u ch call sg hpc hlock
        · rw [if_neg (not_not.mpr hrc), hq'] at h
          cases h
          exact .sync u ch call sg q' hpc hlock hadd hok
      · cases h
  | mark =>
      cases h
      exact .mark u ch call hpc
  | enter =>
      simp only [doioStep, doioEnter] at h
      have hdrain : s.Draining u (some call) := .inr ⟨call, rfl, hpc⟩
      split at h
      · next hlock =>
        split at h
        · next c hpending =>
          split at h
          · next hown =>
            cases h
            exact .pick u ch call c hpc hlock hpending hown
          · exact drain_move hq hdrain h
        · exact drain_move hq hdrain h
      · cases h
  | wait =>
      simp only [doioStep, doioWait] at h
      split at h
      · next hsig =>
        cases h
        exact .quiet u ch _ (.woken call _ hpc hsig rfl)
      · cases h
  | poll left =>
      simp only [doioStep, doioPoll] at h
      rcases getBuf_cases hq with ⟨hget, hempty⟩ | ⟨serial, x, len, q', hget, htake, hq'⟩
      · rw [hget] at h
        cases h
        exact .quiet u ch _ (.polled call left hpc hempty)
      · rw [hget] at h
        cases h
        exact .pollTake u ch call left serial x len q' hpc htake hq'
  | clear taken =>
      cases h
      exact .quiet u ch _ (.clear call taken hpc)
  | check taken =>
      cases h
      cases taken with
      | none => exact .giveUp u ch call hpc
      | some c => exact .accept u ch call c hpc
  | leave result =>
      simp only [doioStep, doioLeave] at h
      split at h
      · next hcount =>
        split at h
        · next hlock =>
          cases h
          have hmove := Move.leave u ch call result hpc fun _ => hlock
          rwa [if_pos hcount] at hmove
        · cases h
      · next hcount =>
        cases h
        have hmove := Move.leave u ch call result hpc fun hzero =>
          absurd hzero hcount
        rwa [if_neg hcount] at hmove

theorem taskStep_move (hq : s.queue.Ok) (hfilled : PcFilled (s.pc u))
    (h : s.taskStep u ch = some s') : s.Move (.task u ch) s' := by
  unfold taskStep at h
  split at h
  · next hpc =>
    unfold wakeUp at h
    split at h
    · next hsig =>
      cases h
      exact .quiet u ch _ (.wakeUp hpc hsig)
    · cases h
  · next caller hpc => exact drain_move hq (.inl hpc) h
  · next caller c what hpc => exact handleTaken_move hpc h
  · next hpc =>
    cases h
    exact .coalesce u ch hpc
  · next hpc =>
    cases h
    unfold dispatch
    split
    · next hport => exact .quiet u ch _ (.noMessage hpc hport)
    · next r rest hport => exact .quiet u ch _ (.message r rest hpc hport)
  · next at_ hpc => exact submitStep_move hq hfilled hpc h
  · next r hpc =>
    cases h
    unfold handlerStep
    split
    · next isWrite len _ =>
      exact .quiet u ch _ (.handler r _ hpc (.inl ⟨isWrite, len, rfl⟩))
    · exact .quiet u ch _ (.handler r _ hpc (.inr ⟨_, _, rfl⟩))
  · next call at_ hpc => exact doioStep_move hq hfilled hpc h
  · next r err actual hpc =>
    cases h
    exact .quiet u ch _ (.finish r err actual hpc)
  · next hpc =>
    unfold kick at h
    split at h
    · next hlock =>
      cases h
      exact .kick u ch hpc hlock
    · cases h

theorem probeStep_move (hq : s.queue.Ok) (h : s.probeStep ch = some s') :
    s.Move (.probe ch) s' := by
  unfold probeStep at h
  split at h
  · cases h
  · next hrun =>
    rw [Bool.not_eq_true] at hrun
    split at h
    · next hprobe =>
      cases h
      exact .probeBegin ch hrun hprobe
    · next n tries hprobe =>
      rw [Option.some.injEq] at h
      subst h
      unfold probeAttempt
      dsimp only
      split
      · exact .probeFailed ch n tries hrun hprobe
      · next data _ =>
        split
        · exact .probeFailed ch n tries hrun hprobe
        · have hcases := addBuf_cases (s := s.prepare (.temp n) 1) hq
            (buildSg false ((s.prepare (.temp n) 1).setup.reqDma (.temp n))
              ((s.prepare (.temp n) 1).setup.respDma (.temp n)) data)
            (.temp n) ch.env (s.buildSg_pos _ _ _)
          rcases hcases with ⟨hrc, hsame⟩ | ⟨hrc, q', hq', hadd, hok⟩
          · rw [if_pos hrc, hsame]
            exact .probeFailed ch n tries hrun hprobe
          · rw [if_neg (not_not.mpr hrc), hq']
            exact .probeAdd ch n tries q' hrun hprobe hadd hok
    · next call hprobe =>
      unfold probePoll at h
      rcases getBuf_cases hq with ⟨hget, hempty⟩ | ⟨serial, x, len, q', hget, htake, hq'⟩
      · rw [hget] at h
        cases h
        exact .probePolled ch call hrun hprobe hempty
      · rw [hget] at h
        cases h
        refine .probeTake ch call serial x len q' _ hrun hprobe htake hq' ?_
        split
        · exact .inr rfl
        · exact .inl rfl

theorem deviceComplete_move {i : ℕ} {len : BitVec 32} {r : Response}
    (hq : s.queue.Ok) (h : s.deviceComplete i len r = some s') :
    s.Move (.complete i len r) s' := by
  obtain ⟨free, chain, hi⟩ := hq
  unfold deviceComplete at h
  split at h
  · next serial head q' hpending hcomplete =>
    split at h
    · next head' cookie hadded =>
      cases h
      obtain ⟨hlt, heq⟩ := List.getElem?_eq_some_iff.mp hpending
      obtain ⟨cookie', hcookie⟩ :=
        hi.ledger.added_of_pending (heq ▸ List.getElem_mem hlt)
      rw [hadded, Option.some.injEq, Prod.mk.injEq] at hcookie
      obtain ⟨rfl, rfl⟩ := hcookie
      exact .complete i len r serial (head', cookie) q' hpending hcomplete hadded
    · cases h
  · cases h

/-- Every step of the system is one of the moves, with all its guards. -/
theorem step_move (hq : s.queue.Ok) (hfilled : ∀ u, PcFilled (s.pc u))
    (h : s.step e = some s') : s.Move e s' := by
  cases e with
  | task u ch =>
      simp only [step] at h
      split at h
      · exact taskStep_move hq (hfilled u) h
      · cases h
  | interrupt =>
      simp only [step, interruptHandler] at h
      split at h
      · next hcond =>
        rw [Bool.and_eq_true] at hcond
        cases h
        exact .interrupt hcond.1 hcond.2
      · cases h
  | fetch =>
      obtain ⟨q', hfetch, rfl⟩ := Option.map_eq_some_iff.mp h
      exact .fetch q' hfetch
  | complete i len r => exact deviceComplete_move hq h
  | signal =>
      obtain ⟨q', hsignal, rfl⟩ := Option.map_eq_some_iff.mp h
      exact .signal q' hsignal
  | rest =>
      obtain ⟨q', hrest, rfl⟩ := Option.map_eq_some_iff.mp h
      exact .rest q' hrest
  | putMsg u r =>
      simp only [step] at h
      split at h
      · next hrun =>
        cases h
        exact .putMsg u r hrun
      · cases h
  | probe ch => exact probeStep_move hq h
  | start =>
      simp only [step] at h
      split at h
      · next hcond =>
        cases h
        exact .start hcond.1 hcond.2
      · cases h

end Config
end VirtioScsi
