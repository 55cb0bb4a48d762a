import VirtioScsi.UnitRuns
import VirtioScsi.OpenRuns

/-!
# The work left to do

How many steps the tasks, the interrupt handler and the device can still take
before they need new input, as a weight of the state.  A place in a task weighs
more than every place it can lead to; what a step adds for another party (a chain,
a completion, a signal) weighs less than the step gives up.  So no loop of the
driver turns without something it consumes: a message, a completion, a signal, an
attempt or a poll of `VirtIOSCSI_DoIO`.
-/

namespace VirtioScsi

/-! ## The weights -/

/-- A `VirtIOSCSI_DoIO` after its answer: the return, or another attempt. -/
def checkWork (tries : ℕ) : ℕ := 6 + tries * (Config.pollTimeout + 57)

def SyncAt.work (tries : ℕ) : SyncAt → ℕ
  | .leave _ => 5
  | .check _ => checkWork tries
  | .clear _ => checkWork tries + 1
  | .wait => checkWork tries + 1
  | .enter => checkWork tries + 2
  | .poll left => checkWork tries + 1 + left
  | .mark => checkWork tries + Config.pollTimeout + 2
  | .add _ => checkWork tries + Config.pollTimeout + 55
  | .fill => checkWork tries + Config.pollTimeout + 56

def SubmitAt.work : SubmitAt → ℕ
  | .account _ _ => 3
  | .giveBack _ _ _ => 4
  | .add _ _ _ => 56
  | .fill _ _ => 57
  | .pop _ => 3 * Config.pollTimeout + 177

/-- The drain loop of `Harvest`, or of a `VirtIOSCSI_DoIO`. -/
def drainWork : Option SyncCall → ℕ
  | none => 4
  | some call => checkWork call.tries + 2

def Handling.work : Handling → ℕ
  | .route => 7
  | .stash => 6
  | .release _ _ _ _ _ => 2
  | .reply _ _ _ => 1

def Pc.work : Pc → ℕ
  | .wait => 0
  | .kick => 1
  | .dispatch => 2
  | .coalesce => 3
  | .finish _ _ _ => 3
  | .handler _ => 4
  | .drain caller => drainWork caller
  | .handle caller _ what => drainWork caller + what.work
  | .submit at_ => at_.work
  | .sync call at_ => at_.work call.tries

/-- A request in the port. -/
def messageWork : ℕ := 3 * Config.pollTimeout + 176

/-- What a chain still asks of the device and of whoever takes its completion. -/
def RequestQueue.work (q : RequestQueue ReqBuf) : ℕ :=
  52 * (q.hist.added.length - q.hist.seen.length) + 51 * q.dev.pending.length +
    42 * q.dev.batch + (if q.dev.isr then 41 else 0) +
    8 * (q.hist.published.length - q.hist.returned.length)

namespace Config

/-- What is left to do besides the places of the tasks. -/
def load (s : Config) : ℕ :=
  (∑ u, if s.ioSig u then 5 else 0) + (∑ u, if s.portSig u then 3 else 0) +
    (∑ u, (s.port u).length * messageWork) + s.queue.work

def work (s : Config) : ℕ :=
  (∑ u, (s.pc u).work) + s.load

end Config

/-! ## The queue -/

namespace RequestQueue

variable {q q' : RequestQueue ReqBuf}

theorem work_addedTo {cookie : ReqBuf} (hq : q.Ok) (h : q.AddedTo q' cookie) :
    q'.work = q.work + 52 := by
  obtain ⟨free, chain, hi⟩ := hq
  have hseen := hi.ledger.seen_le
  unfold work
  rw [h.hist, h.dev]
  simp only [List.length_append, List.length_singleton]
  omega

theorem work_takenFrom {serial : ℕ} {x : BitVec 16 × ReqBuf} {len : BitVec 32}
    (h : q.TakenFrom q' serial x len) : q'.work + 8 = q.work := by
  obtain ⟨hlt, -⟩ := List.getElem?_eq_some_iff.mp h.published
  unfold work
  rw [h.hist, h.dev]
  simp only [List.length_append, List.length_singleton]
  omega

theorem work_fetch (hq : q.Ok) (h : q.fetch = some q') : q'.work + 1 = q.work := by
  obtain ⟨free, chain, hi⟩ := hq
  obtain ⟨head, hhead, rfl, hi'⟩ := hi.fetch h
  have hseen := hi'.ledger.seen_le
  unfold work
  simp only [List.length_append, List.length_singleton] at hseen ⊢
  omega

theorem work_complete {i : ℕ} {len : BitVec 32} (hq : q.Ok) (h : q.complete i len = some q') :
    q'.work + 1 ≤ q.work := by
  obtain ⟨free, chain, hi⟩ := hq
  obtain ⟨serial, head, hpending, hhist, hdev, -⟩ := hi.complete h
  obtain ⟨hlt, -⟩ := List.getElem?_eq_some_iff.mp hpending
  have hreturned := hi.ledger.returned_le
  unfold work
  rw [hhist, hdev]
  simp only [List.length_append, List.length_singleton, List.length_eraseIdx_of_lt hlt]
  omega

theorem work_signal (h : q.signal = some q') : q'.work + 1 ≤ q.work := by
  obtain ⟨hbatch, raise, rfl, -⟩ := signal_cases h
  unfold work
  dsimp only
  split_ifs <;> omega

theorem work_rest (h : q.rest = some q') : q'.work = q.work := by
  unfold rest at h
  split at h
  · rw [Option.some.injEq] at h
    rw [← h]
    rfl
  · cases h

end RequestQueue

/-! ## What a step costs -/

theorem sum_comp_update {β : Type*} (g : β → ℕ) (f : UnitNum → β) (u : UnitNum) (x : β) :
    ∑ v, g (Function.update f u x v) + g (f u) = ∑ v, g (f v) + g x := by
  have h := sum_update_add (fun v => g (f v)) u (g x)
  have hcomp : (fun v => g (Function.update f u x v)) =
      Function.update (fun v => g (f v)) u (g x) := by
    funext v
    exact Function.apply_update (fun _ => g) f u x v
  rw [hcomp]
  exact h

/-- The steps that are counted: those of the tasks, of the interrupt handler and
of the device, but for its move from rest. -/
def Event.cost : Event → ℕ
  | .task _ _ | .interrupt | .fetch | .complete _ _ _ | .signal => 1
  | .rest | .putMsg _ _ | .probe _ | .start => 0

namespace Config

/-- What a step brings in: a request, a `VirtIOSCSI_DoIO` that a handler calls, or
a chain that discovery adds. -/
def gain (s : Config) (e : Event) (s' : Config) : ℕ :=
  match e with
  | .putMsg _ _ => messageWork + 3
  | .task u _ =>
      match s.pc u, s'.pc u with
      | .handler _, .sync _ _ => 3 * pollTimeout + 173
      | _, _ => 0
  | .probe _ => 52 * (s'.queue.hist.added.length - s.queue.hist.added.length)
  | .interrupt | .fetch | .complete _ _ _ | .signal | .rest | .start => 0

variable {s s₁ s' : Config} {u : UnitNum} {p p₀ : Pc} {ch : Choice} {e : Event} {g : ℕ}

/-- A step of a task pays with the place it leaves for the one it goes to and
for what it adds to the load. -/
theorem pays (hpcs : s₁.pc = s.pc) (hpc : s.pc u = p₀)
    (hpay : 1 + p.work + s₁.load ≤ p₀.work + s.load + g) :
    1 + (s₁.goto u p).work ≤ s.work + g := by
  have hsum := sum_comp_update Pc.work s.pc u p
  rw [hpc] at hsum
  have hload : (s₁.goto u p).load = s₁.load := rfl
  have hplaces : (s₁.goto u p).pc = Function.update s.pc u p := by
    unfold goto
    rw [hpcs]
  unfold work
  rw [hload, hplaces]
  omega

/-- The load of a state with other signals, ports or queue. -/
theorem load_ioSig (sig : UnitNum → Bool) :
    ({ s with ioSig := sig } : Config).load + (∑ u, if s.ioSig u then 5 else 0) =
      s.load + ∑ u, if sig u then 5 else 0 := by
  unfold load
  dsimp only
  omega

theorem load_clearSig (hsig : s.ioSig u = true) :
    ({ s with ioSig := Function.update s.ioSig u false } : Config).load + 5 = s.load := by
  have hsum := sum_comp_update (fun b => if b = true then 5 else 0) s.ioSig u false
  rw [if_pos hsig, if_neg Bool.false_ne_true] at hsum
  have hload := @load_ioSig s (Function.update s.ioSig u false)
  omega

theorem load_clearSig_le (s : Config) (u : UnitNum) :
    ({ s with ioSig := Function.update s.ioSig u false } : Config).load ≤ s.load := by
  have hsum := sum_comp_update (fun b => if b = true then 5 else 0) s.ioSig u false
  rw [if_neg Bool.false_ne_true] at hsum
  have hload := @load_ioSig s (Function.update s.ioSig u false)
  omega

theorem load_setSig_le (s : Config) (u : UnitNum) :
    ({ s with ioSig := Function.update s.ioSig u true } : Config).load ≤ s.load + 5 := by
  have hsum := sum_comp_update (fun b => if b = true then 5 else 0) s.ioSig u true
  rw [if_pos rfl] at hsum
  have hload := @load_ioSig s (Function.update s.ioSig u true)
  omega

theorem load_wakeUp (s : Config) (u : UnitNum) (sigsPort : UnitNum → Bool) :
    ({ s with
        ioSig := Function.update s.ioSig u false
        portSig := Function.update s.portSig u false
        sigsPort := sigsPort } : Config).load +
      ((if s.ioSig u then 5 else 0) + if s.portSig u then 3 else 0) = s.load := by
  have hio := sum_comp_update (fun b => if b = true then 5 else 0) s.ioSig u false
  have hport := sum_comp_update (fun b => if b = true then 3 else 0) s.portSig u false
  rw [if_neg Bool.false_ne_true] at hio hport
  unfold load
  dsimp only
  omega

theorem load_message (s : Config) (u : UnitNum) (requests : List IORequest) :
    ({ s with port := Function.update s.port u requests } : Config).load +
      (s.port u).length * messageWork = s.load + requests.length * messageWork := by
  have hport := sum_comp_update (fun l => l.length * messageWork) s.port u requests
  unfold load
  dsimp only
  omega

theorem load_queue (s : Config) (q' : RequestQueue ReqBuf) :
    ({ s with queue := q' } : Config).load + s.queue.work = s.load + q'.work := by
  unfold load
  dsimp only
  omega

theorem load_stashCookie_le (s : Config) (c : Completion) :
    (s.stashCookie c).load ≤ s.load + 5 := by
  unfold stashCookie
  split
  · omega
  · next v _ => exact load_setSig_le s v

theorem load_releaseSlot (s : Config) (cu : UnitNum) (cs : Slot) :
    (s.releaseSlot cu cs).load = s.load := by
  unfold releaseSlot
  dsimp only
  split <;> rfl

theorem load_interrupt (hisr : s.queue.dev.isr = true) :
    ({ s with
        queue := { s.queue with dev := { s.queue.dev with isr := false } }
        ioSig := fun u => s.ioSig u || s.activeUnitsMask.getLsbD u.val } : Config).load + 1 ≤
      s.load := by
  have hsignals : (∑ u, if (s.ioSig u || s.activeUnitsMask.getLsbD u.val) = true then 5 else 0) ≤
      (∑ u, if s.ioSig u = true then 5 else 0) + ∑ _u : UnitNum, 5 := by
    rw [← Finset.sum_add_distrib]
    apply Finset.sum_le_sum
    intro u _
    split_ifs <;> omega
  rw [Finset.sum_const, Finset.card_univ, Fintype.card_fin, smul_eq_mul] at hsignals
  unfold load RequestQueue.work
  dsimp only
  rw [hisr, if_pos rfl, if_neg Bool.false_ne_true]
  omega

theorem load_putMsg_le (s : Config) (u : UnitNum) (r : IORequest) :
    ({ s with
        port := Function.update s.port u (s.port u ++ [r])
        portSig := Function.update s.portSig u true } : Config).load ≤
      s.load + (messageWork + 3) := by
  have hmessages := sum_comp_update (fun l => l.length * messageWork) s.port u (s.port u ++ [r])
  have hsignals := sum_comp_update (fun b => if b = true then 3 else 0) s.portSig u true
  rw [List.length_append, List.length_singleton, Nat.succ_mul] at hmessages
  rw [if_pos rfl] at hsignals
  unfold load
  dsimp only
  omega

theorem retry_work {tries : ℕ} (htries : 0 < tries) :
    1 + SyncAt.fill.work (tries - 1) ≤ checkWork tries := by
  obtain ⟨left, rfl⟩ := Nat.exists_eq_succ_of_ne_zero htries.ne'
  have hfill : SyncAt.fill.work left = checkWork left + pollTimeout + 56 := rfl
  rw [Nat.succ_eq_add_one, Nat.add_sub_cancel, hfill]
  unfold checkWork
  rw [Nat.succ_mul]
  omega

theorem doioOutcome_work (modern : Bool) (call : SyncCall) (r : Response) :
    1 + (doioOutcome modern call r).2.work (doioOutcome modern call r).1.tries ≤
      checkWork call.tries := by
  have hleave : 6 ≤ checkWork call.tries := Nat.le_add_right _ _
  unfold doioOutcome
  by_cases hresponse : r.response ≠ virtioScsiSOk
  · rw [if_pos hresponse]
    exact hleave
  rw [if_neg hresponse]
  dsimp only
  by_cases hcheck : r.status = 2
  · rw [if_pos hcheck]
    by_cases htries : 0 < call.tries
    · rw [if_pos htries]
      exact retry_work htries
    · rw [if_neg htries]
      exact hleave
  rw [if_neg hcheck]
  by_cases hgood : r.status = 0
  · rw [if_pos hgood]
    exact hleave
  · rw [if_neg hgood]
    exact hleave

theorem commandPc_work (r : IORequest) : (commandPc r).work ≤ 3 * pollTimeout + 177 := by
  unfold commandPc
  cases r.command with
  | block isWrite => exact le_refl (3 * pollTimeout + 177)
  | synchronous =>
      show 4 ≤ 3 * pollTimeout + 177
      omega
  | immediate err =>
      show 3 ≤ 3 * pollTimeout + 177
      omega

theorem returnPc_work (call : SyncCall) (result : Int) : (returnPc call result).work ≤ 4 := by
  have hfinish (r : IORequest) (err : Int) (actual : BitVec 32) :
      (Pc.finish r err actual).work ≤ 4 := Nat.le_succ 3
  unfold returnPc
  split_ifs
  · exact hfinish _ _ _
  · exact hfinish _ _ _
  · exact le_refl 4

/-! ## Every step pays -/

/-- The quiet steps of a task. -/
theorem quiet_pays (h : s.Quiet u s') :
    1 + s'.work ≤ s.work + s.gain (.task u ch) s' := by
  cases h with
  | wakeUp hpc hsig =>
      have hload := load_wakeUp s u (Function.update s.sigsPort u (s.portSig u))
      refine pays (by rfl) hpc ?_
      cases hio : s.ioSig u with
      | true =>
          rw [hio, if_pos rfl] at hload
          rw [if_pos rfl]
          show 1 + 4 + _ ≤ 0 + s.load + _
          omega
      | false =>
          rw [hio, Bool.false_or] at hsig
          have hport : (if s.portSig u = true then 3 else 0) = 3 := if_pos hsig
          rw [hio, hport, if_neg Bool.false_ne_true] at hload
          rw [if_neg Bool.false_ne_true]
          show 1 + 2 + _ ≤ 0 + s.load + _
          omega
  | drained call hpc hlock hempty =>
      have hleft : (s.pc u).work = checkWork call.tries + 2 := by
        rcases hpc with hpc | ⟨_, hcall, hpc⟩
        · rw [hpc]
          rfl
        · cases hcall
          rw [hpc]
          rfl
      refine pays (by rfl) rfl ?_
      rw [hleft]
      show 1 + (checkWork call.tries + 1) + s.load ≤ checkWork call.tries + 2 + s.load + _
      omega
  | noMessage hpc hport =>
      refine pays (by rfl) hpc ?_
      split_ifs
      · show 1 + 1 + s.load ≤ 2 + s.load + _
        omega
      · show 1 + 0 + s.load ≤ 2 + s.load + _
        omega
  | message r rest hpc hport =>
      have hload := load_message s u rest
      rw [hport, List.length_cons, Nat.succ_mul] at hload
      have hcommand := commandPc_work r
      refine pays (by rfl) hpc ?_
      have hdispatch : Pc.dispatch.work = 2 := rfl
      unfold messageWork at hload
      omega
  | noSlot r hpc hlock hfree =>
      refine pays (by rfl) hpc ?_
      show 1 + (checkWork 2 + pollTimeout + 56) + s.load ≤ 3 * pollTimeout + 177 + s.load + _
      unfold checkWork
      omega
  | handler r p hpc hp =>
      refine pays (by rfl) hpc ?_
      rcases hp with ⟨isWrite, len, rfl⟩ | ⟨err, actual, rfl⟩
      · have hgain : s.gain (.task u ch) (s.goto u (.sync (newCall r false isWrite len) .fill)) =
            3 * pollTimeout + 173 := by
          simp only [gain, hpc, goto_pc_self]
        rw [hgain]
        show 1 + (checkWork 2 + pollTimeout + 56) + s.load ≤ 4 + s.load + _
        unfold checkWork
        omega
      · show 1 + 3 + s.load ≤ 4 + s.load + _
        omega
  | woken call at_ hpc hsig hat =>
      have hload := load_clearSig hsig
      refine pays (by rfl) hpc ?_
      rw [hat]
      split_ifs
      · show 1 + (checkWork call.tries + 1) + _ ≤ checkWork call.tries + 1 + s.load + _
        omega
      · show 1 + (checkWork call.tries + 2) + _ ≤ checkWork call.tries + 1 + s.load + _
        omega
  | polled call left hpc hempty =>
      refine pays (by rfl) hpc ?_
      split_ifs
      · show 1 + checkWork call.tries + s.load ≤ checkWork call.tries + 1 + left + s.load + _
        omega
      · show 1 + (checkWork call.tries + 1 + (left - 1)) + s.load ≤
          checkWork call.tries + 1 + left + s.load + _
        omega
  | clear call taken hpc =>
      have hload := load_clearSig_le s u
      refine pays (by rfl) hpc ?_
      show 1 + checkWork call.tries + _ ≤ checkWork call.tries + 1 + s.load + _
      omega
  | finish r err actual hpc =>
      refine pays (by rfl) hpc ?_
      show 1 + 2 + s.load ≤ 3 + s.load + _
      omega

theorem draining_work {caller : Option SyncCall} (h : s.Draining u caller) :
    (s.pc u).work = drainWork caller := by
  rcases h with hpc | ⟨call, rfl, hpc⟩
  · rw [hpc]
    rfl
  · rw [hpc]
    rfl

theorem load_takenFrom {q' : RequestQueue ReqBuf} {serial : ℕ} {x : BitVec 16 × ReqBuf}
    {len : BitVec 32} (h : s.queue.TakenFrom q' serial x len) :
    ({ s with queue := q' } : Config).load + 8 = s.load := by
  have htaken := RequestQueue.work_takenFrom h
  have hload := load_queue s q'
  omega

theorem load_addedTo {q' : RequestQueue ReqBuf} {cookie : ReqBuf} (hq : s.queue.Ok)
    (h : s.queue.AddedTo q' cookie) :
    ({ s with queue := q' } : Config).load = s.load + 52 := by
  have hadded := RequestQueue.work_addedTo hq h
  have hload := load_queue s q'
  omega

theorem move_pays (hq : s.queue.Ok) (hm : s.Move e s') :
    e.cost + s'.work ≤ s.work + s.gain e s' := by
  cases hm with
  | quiet u ch s' h => exact quiet_pays h
  | harvested u ch hpc hlock hempty =>
      refine pays (by rfl) hpc ?_
      show 1 + 3 + s.load ≤ 4 + s.load + _
      omega
  | take u ch caller serial x len q' hpc hlock htake hq' hforeign =>
      have hload := load_takenFrom htake
      refine pays (by rfl) rfl ?_
      rw [draining_work hpc]
      show 1 + (drainWork caller + 7) + _ ≤ drainWork caller + s.load + _
      omega
  | takeOwn u ch call serial x len q' hpc hlock htake hq' hown =>
      have hload := load_takenFrom htake
      refine pays (by rfl) rfl ?_
      rw [draining_work hpc]
      show 1 + (checkWork call.tries + 1) + _ ≤ checkWork call.tries + 2 + s.load + _
      omega
  | pick u ch call c hpc hlock hpending hown =>
      refine pays (by rfl) hpc ?_
      show 1 + (checkWork call.tries + 1) + s.load ≤ checkWork call.tries + 2 + s.load + _
      omega
  | found u ch caller c cu cs r hpc hlookup =>
      refine pays (by rfl) hpc ?_
      show 1 + (drainWork caller + 2) + s.load ≤ drainWork caller + 7 + s.load + _
      omega
  | foreign u ch call c hpc hlookup =>
      refine pays (by rfl) hpc ?_
      show 1 + (drainWork (some call) + 6) + s.load ≤ drainWork (some call) + 7 + s.load + _
      omega
  | stash u ch caller c hpc => 
      have hload := load_stashCookie_le s c
      have hleft : drainWork caller + 6 ≤ (s.pc u).work := by
        rcases hpc with ⟨rfl, hpc, _⟩ | hpc
        · rw [hpc]
          exact Nat.le_succ _
        · rw [hpc]
          exact le_refl _
      refine pays (stashCookie_pc s c) rfl ?_
      show 1 + drainWork caller + _ ≤ _
      omega
  | release u ch caller c cu cs r err actual hpc hlock =>
      refine pays (releaseSlot_pc s cu cs) hpc ?_
      rw [load_releaseSlot]
      show 1 + (drainWork caller + 1) + s.load ≤ drainWork caller + 2 + s.load + _
      omega
  | reply u ch caller c r err actual hpc =>
      refine pays (by rfl) hpc ?_
      show 1 + drainWork caller + s.load ≤ drainWork caller + 1 + s.load + _
      omega
  | coalesce u ch hpc =>
      unfold coalesce
      refine pays (by rfl) hpc ?_
      cases s.sigsPort u with
      | true =>
          show 1 + 2 + s.load ≤ 3 + s.load + _
          omega
      | false =>
          show 1 + 0 + s.load ≤ 3 + s.load + _
          omega
  | pop u ch r sl hpc hlock hfree =>
      refine pays (by rfl) hpc ?_
      show 1 + 57 + s.load ≤ 3 * pollTimeout + 177 + s.load + _
      omega
  | fillFailed u ch r sl hpc =>
      refine pays (by rfl) hpc ?_
      show 1 + 4 + s.load ≤ 57 + s.load + _
      omega
  | fill u ch r sl sg hpc hsg =>
      refine pays (by rfl) hpc ?_
      show 1 + 56 + s.load ≤ 57 + s.load + _
      omega
  | addFailed u ch r sl sg hpc hlock =>
      refine pays (by rfl) hpc ?_
      show 1 + 4 + s.load ≤ 56 + s.load + _
      omega
  | add u ch r sl sg q' hpc hlock hadd hq' =>
      have hload := load_addedTo hq hadd
      refine pays (by rfl) hpc ?_
      show 1 + 3 + ({ s with queue := q' } : Config).load ≤ 56 + s.load + _
      omega
  | account u ch r sl hpc =>
      refine pays (by rfl) hpc ?_
      show 1 + 2 + s.load ≤ 3 + s.load + _
      omega
  | giveBack u ch r sl err hpc hlock =>
      refine pays (by rfl) hpc ?_
      show 1 + 3 + s.load ≤ 4 + s.load + _
      omega
  | prepareFailed u ch call hpc =>
      refine pays (by rfl) hpc ?_
      show 1 + 5 + s.load ≤ checkWork call.tries + pollTimeout + 56 + s.load + _
      omega
  | prepare u ch call sg hpc hsg =>
      refine pays (by rfl) hpc ?_
      show 1 + (checkWork call.tries + pollTimeout + 55) + s.load ≤
        checkWork call.tries + pollTimeout + 56 + s.load + _
      omega
  | syncFailed u ch call sg hpc hlock =>
      refine pays (by rfl) hpc ?_
      show 1 + 5 + s.load ≤ checkWork call.tries + pollTimeout + 55 + s.load + _
      omega
  | sync u ch call sg q' hpc hlock hadd hq' =>
      have hload := load_addedTo hq hadd
      refine pays (by rfl) hpc ?_
      show 1 + (checkWork call.tries + pollTimeout + 2) + ({ s with queue := q' } : Config).load ≤
        checkWork call.tries + pollTimeout + 55 + s.load + _
      omega
  | mark u ch call hpc =>
      have hpoll : pollTimeout = 500000 := rfl
      unfold doioMark
      refine pays (by rfl) hpc ?_
      split_ifs
      · show 1 + (checkWork call.tries + 2) + s.load ≤
          checkWork call.tries + pollTimeout + 2 + s.load + _
        omega
      · show 1 + (checkWork call.tries + 1 + pollTimeout) + s.load ≤
          checkWork call.tries + pollTimeout + 2 + s.load + _
        omega
  | pollTake u ch call left serial x len q' hpc htake hq' =>
      have hload := load_takenFrom htake
      refine pays (by rfl) hpc ?_
      show 1 + checkWork call.tries + _ ≤ checkWork call.tries + 1 + left + s.load + _
      omega
  | giveUp u ch call hpc =>
      refine pays (by rfl) hpc ?_
      show 1 + 5 + s.load ≤ 6 + call.tries * (pollTimeout + 57) + s.load + _
      omega
  | accept u ch call c hpc =>
      have houtcome := doioOutcome_work s.setup.modern call (s.resp (reqBuf u))
      refine pays (by rfl) hpc ?_
      show 1 + SyncAt.work _ _ + s.load ≤ checkWork call.tries + s.load + _
      omega
  | leave u ch call result hpc hlock =>
      have hreturn := returnPc_work call result
      refine pays (by split_ifs <;> rfl) hpc ?_
      have hload : (if (s.unit u).inflightCount = 0 then s.clearActive u else s).load = s.load := by
        split_ifs <;> rfl
      rw [hload]
      show 1 + (returnPc call result).work + s.load ≤ 5 + s.load + _
      omega
  | kick u ch hpc hlock =>
      refine pays (by rfl) hpc ?_
      show 1 + 0 + s.load ≤ 1 + s.load + _
      omega
  | probeBegin ch hrun hprobe =>
      show 0 + s.work ≤ s.work + _
      omega
  | probeFailed ch n tries hrun hprobe =>
      show 0 + s.work ≤ s.work + _
      omega
  | probeAdd ch n tries q' hrun hprobe hadd hq' =>
      have hload := load_addedTo hq hadd
      show 0 + ((∑ u, (s.pc u).work) + ({ s with queue := q' } : Config).load) ≤
        s.work + 52 * (q'.hist.added.length - s.queue.hist.added.length)
      rw [hadd.added_eq, List.length_append, List.length_singleton]
      unfold work
      omega
  | probePolled ch call hrun hprobe hempty =>
      show 0 + s.work ≤ s.work + _
      omega
  | probeTake ch call serial x len q' p hrun hprobe htake hq' hp =>
      have hload := load_takenFrom htake
      show 0 + ((∑ u, (s.pc u).work) + ({ s with queue := q' } : Config).load) ≤ s.work + _
      unfold work
      omega
  | interrupt hirq hisr =>
      have hload := load_interrupt hisr
      show 1 + ((∑ u, (s.pc u).work) + _) ≤ s.work + 0
      unfold work
      omega
  | fetch q' hfetch =>
      have hpaid := RequestQueue.work_fetch hq hfetch
      have hload := load_queue s q'
      show 1 + ((∑ u, (s.pc u).work) + ({ s with queue := q' } : Config).load) ≤ s.work + 0
      unfold work
      omega
  | complete i len r serial x q' hpending hcomplete hadded =>
      have hpaid := RequestQueue.work_complete hq hcomplete
      have hload := load_queue s q'
      show 1 + ((∑ u, (s.pc u).work) + ({ s with queue := q' } : Config).load) ≤ s.work + 0
      unfold work
      omega
  | signal q' hsignal =>
      have hpaid := RequestQueue.work_signal hsignal
      have hload := load_queue s q'
      show 1 + ((∑ u, (s.pc u).work) + ({ s with queue := q' } : Config).load) ≤ s.work + 0
      unfold work
      omega
  | rest q' hrest =>
      have hpaid := RequestQueue.work_rest hrest
      have hload := load_queue s q'
      show 0 + ((∑ u, (s.pc u).work) + ({ s with queue := q' } : Config).load) ≤ s.work + 0
      unfold work
      omega
  | putMsg u r hrun =>
      have hload := load_putMsg_le s u r
      show 0 + ((∑ u, (s.pc u).work) + _) ≤ s.work + (messageWork + 3)
      unfold work
      omega
  | start hrun hprobe =>
      show 0 + s.work ≤ s.work + 0
      omega

/-! ## Runs -/

theorem step_pays (h : s.Fit) (hstep : s.step e = some s') :
    e.cost + s'.work ≤ s.work + s.gain e s' :=
  move_pays h.queue (h.move_of_step hstep)

end Config

theorem Config.work_initial (setup : Setup) : (Config.initial setup).work = 0 := by
  have hplaces (u : UnitNum) : ((Config.initial setup).pc u).work = 0 := rfl
  have hqueue : (Config.initial setup).queue.work = 0 := rfl
  have hports (u : UnitNum) : ((Config.initial setup).port u).length = 0 := rfl
  have hio (u : UnitNum) : (if (Config.initial setup).ioSig u = true then 5 else 0) = 0 := rfl
  have hport (u : UnitNum) : (if (Config.initial setup).portSig u = true then 3 else 0) = 0 := rfl
  unfold Config.work Config.load
  simp only [hplaces, hqueue, hports, hio, hport, Nat.zero_mul, Finset.sum_const_zero, add_zero]

/-- Neither the tasks nor the interrupt handler nor the device can go on without
new input: nothing is to be done at first, and from any state that can be reached
the steps they take are bounded by the work at hand and by what the requests, the
`VirtIOSCSI_DoIO` calls of handlers and the chains of discovery bring in. -/
theorem Config.work_bounded (setup : Setup) :
    (Config.initial setup).work = 0 ∧
      ∀ (before events : List Event) (s s' : Config),
        GuardedRun.run Config.step (Config.initial setup) before = some s →
        GuardedRun.run Config.step s events = some s' →
        (events.map Event.cost).sum + s'.work ≤
          s.work + GuardedRun.total Config.step Config.gain s events := by
  refine ⟨Config.work_initial setup, fun before events s s' hbefore hrun => ?_⟩
  have hfit : s.Fit := GuardedRun.invariant_of_step
    (fun _ _ _ hs hstep => hs.step hstep) (Config.fit_initial setup) hbefore
  have hobeys : GuardedRun.Obeys Config.step (fun _ _ => True) s events :=
    GuardedRun.Obeys.of_forall fun _ _ => trivial
  exact GuardedRun.bounded_total
    (fun _ _ _ hs _ hstep => ⟨hs.step hstep, step_pays hs hstep⟩) hobeys hfit hrun

/-- A geometry request is answered in few of the steps its message pays for. -/
theorem Config.work_bounded_sampleGeometry :
    ∃ s s', GuardedRun.run Config.step (Config.initial (sampleSetup true true))
          [.start, .putMsg 3 (sampleGeometryRequest 1)] = some s ∧
        GuardedRun.run Config.step s (taskSteps 3 4) = some s' ∧
        4 + s'.work ≤ s.work := by
  have hall : (GuardedRun.run Config.step (Config.initial (sampleSetup true true))
      ([.start, .putMsg 3 (sampleGeometryRequest 1)] ++ taskSteps 3 4)).isSome := rfl
  obtain ⟨s', hs'⟩ := Option.isSome_iff_exists.mp hall
  rw [GuardedRun.run_append] at hs'
  obtain ⟨s, hs, hrun⟩ := Option.bind_eq_some_iff.mp hs'
  have hbound := (Config.work_bounded (sampleSetup true true)).2 _ _ s s' hs hrun
  have hcost : ((taskSteps 3 4).map Event.cost).sum = 4 := rfl
  have htotal : (GuardedRun.run Config.step (Config.initial (sampleSetup true true))
      [.start, .putMsg 3 (sampleGeometryRequest 1)]).map
        (fun s => GuardedRun.total Config.step Config.gain s (taskSteps 3 4)) = some 0 := by
    decide +kernel
  rw [hs, Option.map_some, Option.some.injEq] at htotal
  rw [hcost, htotal, add_zero] at hbound
  exact ⟨s, s', hs, hrun, hbound⟩

end VirtioScsi
