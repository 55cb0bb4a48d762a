import VirtioScsi.UnitTasks
import VirtioScsi.BlockRequests

/-!
# The attempts of a synchronous request

`VirtIOSCSI_DoIO` as one function of what Exec, the queue and the device
answer it: the temporary buffers of discovery, the retry loop with its exits,
and the clean-up.  Every resource is recorded when it is acquired and
released.
-/

namespace VirtioScsi

open ResourceTrace Virtqueue

def tderrNoMem : Int := 31

/-! ## DMA buffers -/

/-- What `DoIO` acquires: memory, DMA mappings (`toDevice` is the flag
`DMA_ReadFromRAM`), and arrays of DMA entries. -/
inductive DoioResource where
  | memory (virt : ℕ)
  | dma (addr size : ℕ) (toDevice : Bool)
  | entryList (virt : ℕ)
deriving DecidableEq, Repr

/-- What Exec answers to `prepare_dma`: the DMA list of the buffer, empty if
`StartDMA` fails, and the array for it. -/
structure MapEnv where
  dma : List VringSg
  list : Option ℕ
deriving DecidableEq, Repr

/-- `struct DMABuffer`; `num_entries` is the length of `entries`. -/
structure DmaBuffer where
  addr : ℕ
  size : ℕ
  toDevice : Bool
  list : Option ℕ
  entries : List VringSg
deriving DecidableEq, Repr

namespace DmaBuffer

/-- `prepare_dma`; `none` is FALSE. -/
def prepare (addr size : ℕ) (toDevice : Bool) (env : MapEnv) :
    Option DmaBuffer × List (Op DoioResource) :=
  if size = 0 then (some ⟨addr, size, toDevice, none, []⟩, [])
  else if env.dma.length = 0 then (none, [])
  else
    match env.list with
    | none =>
        (none, [.acquire (.dma addr size toDevice),
          .release (.dma addr size toDevice)])
    | some list =>
        (some ⟨addr, size, toDevice, some list, env.dma⟩,
          [.acquire (.dma addr size toDevice), .acquire (.entryList list)])

/-- `cleanup_dma`. -/
def cleanup (db : DmaBuffer) : List (Op DoioResource) :=
  if 0 < db.entries.length then
    (db.list.toList.map fun list => Op.release (.entryList list)) ++
      [.release (.dma db.addr db.size db.toDevice)]
  else []

def held (db : DmaBuffer) : Multiset DoioResource :=
  if 0 < db.entries.length then
    (db.list.toList.map DoioResource.entryList : Multiset DoioResource) +
      {.dma db.addr db.size db.toDevice}
  else 0

theorem cleanup_held (db : DmaBuffer) : balance db.held db.cleanup = some 0 := by
  unfold held cleanup
  by_cases hentries : 0 < db.entries.length
  · rw [if_pos hentries, if_pos hentries]
    cases db.list with
    | none => simp [← Multiset.cons_zero]
    | some list =>
        simp only [Option.toList_some, List.map_cons, List.map_nil,
          Multiset.coe_singleton, ← Multiset.cons_zero, Multiset.cons_add, zero_add,
          List.cons_append, List.nil_append, balance_release, balance_nil]
  · rw [if_neg hentries, if_neg hentries, balance_nil]

theorem cleanup_frame (db : DmaBuffer) (base : Multiset DoioResource) :
    balance (db.held + base) db.cleanup = some base := by
  have hframe := balance_frame db.cleanup_held base
  rwa [zero_add] at hframe

theorem prepare_held (addr size : ℕ) (toDevice : Bool) (env : MapEnv) :
    balance 0 (prepare addr size toDevice env).2 =
      some ((prepare addr size toDevice env).1.elim 0 held) := by
  unfold prepare
  by_cases hsize : size = 0
  · rw [if_pos hsize]
    simp [held]
  rw [if_neg hsize]
  by_cases hdma : env.dma.length = 0
  · rw [if_pos hdma]
    rfl
  rw [if_neg hdma]
  cases env.list with
  | none =>
      simp
  | some list =>
      have hentries : 0 < env.dma.length := Nat.pos_of_ne_zero hdma
      simp only [balance_acquire, balance_nil, Option.elim_some, held, if_pos hentries]
      rfl

end DmaBuffer

/-! ## An attempt -/

/-- What an attempt meets: Exec's answers for the data and for `AddBuf`, the
queue, and the response buffer when the completion is taken (`none` if the
wait ends without one). -/
structure AttemptEnv where
  data : MapEnv
  vq : Virtqueue ReqBuf
  exec : IndirectEnv
  answer : Option Response

/-- The DMA entries of a unit's own request and response buffers. -/
structure UnitBuffers where
  reqDma : List VringSg
  respDma : List VringSg
deriving DecidableEq, Repr

/-- A call; `unit` is NULL in discovery, `data` is an address. -/
structure DoioCall where
  buf : ReqBuf
  unit : Option UnitBuffers
  data : ℕ
  dataLen : BitVec 32
  isWrite : Bool
deriving DecidableEq, Repr

/-- The result, what is stored through `scsi_status_out` and `residual_out`,
and the resources; the attempts made and those submitted are history. -/
structure DoioRun where
  result : Int
  scsiStatus : Option (BitVec 8)
  residual : Option (BitVec 32)
  ops : List (Op DoioResource)
  made : ℕ
  submitted : ℕ
deriving DecidableEq, Repr

def DoioRun.before (result : Int) (ops : List (Op DoioResource)) : DoioRun :=
  ⟨result, none, none, ops, 0, 0⟩

namespace DoioCall

/-- The data mapping of an attempt. -/
def prepareData (c : DoioCall) (env : MapEnv) :
    Option DmaBuffer × List (Op DoioResource) :=
  if c.data ≠ 0 ∧ 0 < c.dataLen.toNat then
    DmaBuffer.prepare c.data c.dataLen.toNat c.isWrite env
  else (some ⟨c.data, c.dataLen.toNat, c.isWrite, none, []⟩, [])

def sgList (c : DoioCall) (bufs : UnitBuffers) (db : DmaBuffer) : SgList :=
  buildSg c.isWrite bufs.reqDma bufs.respDma db.entries

/-- How the body of the loop ends: with `continue` or with `break`. -/
inductive Turn where
  | again (run : DoioRun)
  | leave (run : DoioRun)
deriving DecidableEq, Repr

/-- The checks of a response; `tries` are the attempts left. -/
def check (c : DoioCall) (modern : Bool) (tries : ℕ) (r : Response)
    (run : DoioRun) : Turn :=
  if r.response ≠ virtioScsiSOk then
    .leave { run with scsiStatus := some 0, result := tderrNotSpecified }
  else
    let residual := r.residualNative modern
    let run := { run with
      scsiStatus := some r.status
      residual := some (if c.dataLen < residual then c.dataLen else residual) }
    if r.status = 2 then
      if 0 < tries then .again run
      else .leave { run with
        result := mapScsiError r.response r.status (r.sense &&& 0x0F) }
    else if r.status = 0 then .leave { run with result := 0 }
    else .leave { run with result := mapScsiError r.response r.status 0xFF }

def attempt (c : DoioCall) (bufs : UnitBuffers) (tries : ℕ) (env : AttemptEnv)
    (run : DoioRun) : Turn :=
  let prepared := c.prepareData env.data
  let run := { run with made := run.made + 1, ops := run.ops ++ prepared.2 }
  match prepared.1 with
  | none => .leave { run with result := hferrDma }
  | some db =>
      let sg := c.sgList bufs db
      if maxSgEntries < sg.outNum + sg.inNum then
        .leave { run with result := hferrDma, ops := run.ops ++ db.cleanup }
      else if (env.vq.addBuf sg.get sg.outNum sg.inNum c.buf env.exec).rc ≠ 0 then
        .leave { run with result := tderrNotSpecified, ops := run.ops ++ db.cleanup }
      else
        let run := { run with submitted := run.submitted + 1 }
        match env.answer with
        | none =>
            -- Without a completion only the unit path ends the mapping.
            .leave { run with
              result := ioerrSelfTest
              ops := if c.unit.isSome then run.ops ++ db.cleanup else run.ops }
        | some r =>
            c.check env.vq.modern tries r { run with ops := run.ops ++ db.cleanup }

def attempts (c : DoioCall) (bufs : UnitBuffers) (env : ℕ → AttemptEnv) :
    ℕ → DoioRun → DoioRun
  | 0, run => run
  | tries + 1, run =>
      match c.attempt bufs tries (env run.made) run with
      | .again run => c.attempts bufs env tries run
      | .leave run => run

end DoioCall

/-! ## The call -/

def reqCmdSize : ℕ := 51
def respCmdSize : ℕ := 108

/-- What a call meets: whether there are a queue and a PCI device, Exec's
answers for the temporary buffers, and its attempts. -/
structure DoioEnv where
  ready : Bool
  req : Option ℕ
  resp : Option ℕ
  reqDma : MapEnv
  respDma : MapEnv
  attempt : ℕ → AttemptEnv

namespace DoioCall

/-- Discovery after its temporary buffers were mapped. -/
def discover (c : DoioCall) (env : DoioEnv) (req resp : ℕ)
    (dbReq dbResp : DmaBuffer) (ops : List (Op DoioResource)) : DoioRun :=
  let run := c.attempts ⟨dbReq.entries, dbResp.entries⟩ env.attempt 3
    (.before tderrNotSpecified ops)
  if run.result ≠ ioerrSelfTest then
    { run with ops := run.ops ++ (dbResp.cleanup ++ (dbReq.cleanup ++
        [.release (.memory resp), .release (.memory req)])) }
  else run

/-- `VirtIOSCSI_DoIO`. -/
def doio (c : DoioCall) (env : DoioEnv) : DoioRun :=
  if env.ready = false then .before tderrNotSpecified []
  else
    match c.unit with
    | some bufs => c.attempts bufs env.attempt 3 (.before tderrNotSpecified [])
    | none =>
        match env.req, env.resp with
        | some req, some resp =>
            let alloc := [.acquire (.memory req), .acquire (.memory resp)]
            let free := [.release (.memory req), .release (.memory resp)]
            let first := DmaBuffer.prepare req reqCmdSize true env.reqDma
            match first.1 with
            | none => .before hferrDma (alloc ++ (first.2 ++ free))
            | some dbReq =>
                let second := DmaBuffer.prepare resp respCmdSize false env.respDma
                match second.1 with
                | none =>
                    .before hferrDma
                      (alloc ++ (first.2 ++ (second.2 ++ (dbReq.cleanup ++ free))))
                | some dbResp =>
                    c.discover env req resp dbReq dbResp
                      (alloc ++ (first.2 ++ second.2))
        | some req, none =>
            .before tderrNoMem [.acquire (.memory req), .release (.memory req)]
        | none, some resp =>
            .before tderrNoMem [.acquire (.memory resp), .release (.memory resp)]
        | none, none => .before tderrNoMem []

end DoioCall

/-! ## What an attempt comes to -/

/-- An attempt fails before its request is submitted, gets no completion, or
is answered. -/
inductive Attempt where
  | failed (error : Int)
  | timedOut
  | answered (r : Response)
deriving DecidableEq, Repr

def Attempt.outcome : Attempt → Int
  | .failed error => error
  | .timedOut => ioerrSelfTest
  | .answered r => mapScsiError r.response r.status (r.sense &&& 0x0F)

/-- The requests an attempt puts into the available ring. -/
def Attempt.sent : Attempt → ℕ
  | .failed _ => 0
  | .timedOut => 1
  | .answered _ => 1

def Response.CheckCondition (r : Response) : Prop :=
  r.response = virtioScsiSOk ∧ r.status = 2

/-- GOOD, or CHECK CONDITION with NO SENSE or RECOVERED ERROR. -/
def Response.Succeeds (r : Response) : Prop :=
  r.response = virtioScsiSOk ∧
    (r.status = 0 ∨ r.status = 2 ∧ (r.sense &&& 0x0F = 0 ∨ r.sense &&& 0x0F = 1))

theorem mapScsiError_eq_zero_iff (r : Response) :
    mapScsiError r.response r.status (r.sense &&& 0x0F) = 0 ↔ r.Succeeds := by
  have hkeys : ∀ key : BitVec 8, mapScsiError virtioScsiSOk 2 (key &&& 0x0F) = 0 ↔
      key &&& 0x0F = 0 ∨ key &&& 0x0F = 1 := by decide +kernel
  unfold Response.Succeeds
  by_cases hresponse : r.response = virtioScsiSOk
  · by_cases hgood : r.status = 0
    · simp [mapScsiError, hresponse, hgood]
    · by_cases hcheck : r.status = 2
      · rw [hresponse, hcheck, hkeys]
        simp
      · unfold mapScsiError
        rw [if_neg (not_not.mpr hresponse), if_neg hgood, if_pos hcheck]
        apply iff_of_false (by decide)
        rintro ⟨-, hstatus | hstatus⟩
        · exact hgood hstatus
        · exact hcheck hstatus.1
  · simp [mapScsiError, hresponse, tderrNotSpecified]

theorem mapScsiError_other {virtioResp scsiStatus : BitVec 8}
    (h : scsiStatus ≠ 2) (key key' : BitVec 8) :
    mapScsiError virtioResp scsiStatus key = mapScsiError virtioResp scsiStatus key' := by
  unfold mapScsiError
  split_ifs <;> rfl

namespace DoioCall

def comesTo (c : DoioCall) (bufs : UnitBuffers) (env : AttemptEnv) : Attempt :=
  match (c.prepareData env.data).1 with
  | none => .failed hferrDma
  | some db =>
      let sg := c.sgList bufs db
      if maxSgEntries < sg.outNum + sg.inNum then .failed hferrDma
      else if (env.vq.addBuf sg.get sg.outNum sg.inNum c.buf env.exec).rc ≠ 0 then
        .failed tderrNotSpecified
      else
        match env.answer with
        | none => .timedOut
        | some r => .answered r

def dataHeld (c : DoioCall) (env : AttemptEnv) : Multiset DoioResource :=
  (c.prepareData env.data).1.elim 0 DmaBuffer.held

variable {c : DoioCall} {bufs : UnitBuffers} {tries : ℕ}

theorem prepareData_held (c : DoioCall) (env : AttemptEnv) :
    balance 0 (c.prepareData env.data).2 = some (c.dataHeld env) := by
  unfold dataHeld prepareData
  split_ifs
  · exact DmaBuffer.prepare_held _ _ _ _
  · rfl

theorem prepareData_cleanup {env : AttemptEnv} {db : DmaBuffer}
    (hdb : (c.prepareData env.data).1 = some db) :
    AllReleased ((c.prepareData env.data).2 ++ db.cleanup) := by
  have hprepared := prepareData_held c env
  unfold dataHeld at hprepared
  rw [hdb] at hprepared
  exact balance_trans hprepared db.cleanup_held

/-- The body of the loop, by what the attempt comes to; only a discovery that
times out keeps its data mapping. -/
inductive Attempted (c : DoioCall) (tries : ℕ) (env : AttemptEnv) (run : DoioRun) :
    Attempt → Turn → Prop where
  | failed {error : Int} {ops : List (Op DoioResource)} (released : AllReleased ops) :
      Attempted c tries env run (.failed error) (.leave { run with
        made := run.made + 1, ops := run.ops ++ ops, result := error })
  | timedOut {ops : List (Op DoioResource)}
      (held : balance 0 ops = some (if c.unit = none then c.dataHeld env else 0)) :
      Attempted c tries env run .timedOut (.leave { run with
        made := run.made + 1, ops := run.ops ++ ops,
        submitted := run.submitted + 1, result := ioerrSelfTest })
  | answered {r : Response} {ops : List (Op DoioResource)} (released : AllReleased ops) :
      Attempted c tries env run (.answered r) (c.check env.vq.modern tries r { run with
        made := run.made + 1, ops := run.ops ++ ops, submitted := run.submitted + 1 })

theorem attempt_cases (c : DoioCall) (bufs : UnitBuffers) (tries : ℕ)
    (env : AttemptEnv) (run : DoioRun) :
    Attempted c tries env run (c.comesTo bufs env) (c.attempt bufs tries env run) := by
  have hprepared := prepareData_held c env
  unfold comesTo attempt
  dsimp only
  cases hdb : (c.prepareData env.data).1 with
  | none =>
      apply Attempted.failed
      unfold dataHeld at hprepared
      rw [hdb] at hprepared
      exact hprepared
  | some db =>
      have hreleased := prepareData_cleanup hdb
      dsimp only
      by_cases hlong : maxSgEntries <
          (c.sgList bufs db).outNum + (c.sgList bufs db).inNum
      · rw [if_pos hlong, if_pos hlong, List.append_assoc]
        exact .failed hreleased
      rw [if_neg hlong, if_neg hlong]
      by_cases hrefused : (env.vq.addBuf (c.sgList bufs db).get (c.sgList bufs db).outNum
          (c.sgList bufs db).inNum c.buf env.exec).rc ≠ 0
      · rw [if_pos hrefused, if_pos hrefused, List.append_assoc]
        exact .failed hreleased
      rw [if_neg hrefused, if_neg hrefused]
      cases env.answer with
      | some r =>
          dsimp only
          rw [List.append_assoc]
          exact .answered hreleased
      | none =>
          cases hunit : c.unit with
          | none =>
              apply Attempted.timedOut
              rw [hprepared, if_pos hunit]
          | some own =>
              simp only [Option.isSome_some, if_true, List.append_assoc]
              apply Attempted.timedOut
              rw [if_neg (by rw [hunit]; exact Option.some_ne_none own)]
              exact hreleased

theorem check_cases (c : DoioCall) (modern : Bool) (tries : ℕ) (r : Response)
    (run : DoioRun) :
    (0 < tries ∧ r.CheckCondition ∧ ∃ run', c.check modern tries r run = .again run' ∧
        run'.made = run.made ∧ run'.submitted = run.submitted ∧ run'.ops = run.ops) ∨
      (∃ run', c.check modern tries r run = .leave run' ∧
        run'.made = run.made ∧ run'.submitted = run.submitted ∧ run'.ops = run.ops ∧
        run'.result = (Attempt.answered r).outcome ∧
        (0 < tries → ¬ r.CheckCondition)) := by
  unfold check
  dsimp only
  by_cases hresponse : r.response ≠ virtioScsiSOk
  · rw [if_pos hresponse]
    exact .inr ⟨_, rfl, rfl, rfl, rfl, (if_pos hresponse).symm,
      fun _ hchecked => hresponse hchecked.1⟩
  rw [if_neg hresponse]
  rw [not_not] at hresponse
  by_cases hcheck : r.status = 2
  · rw [if_pos hcheck]
    by_cases htries : 0 < tries
    · rw [if_pos htries]
      exact .inl ⟨htries, ⟨hresponse, hcheck⟩, _, rfl, rfl, rfl, rfl⟩
    · rw [if_neg htries]
      exact .inr ⟨_, rfl, rfl, rfl, rfl, rfl, fun hleft => absurd hleft htries⟩
  rw [if_neg hcheck]
  by_cases hgood : r.status = 0
  · rw [if_pos hgood]
    refine .inr ⟨_, rfl, rfl, rfl, rfl, ?_, fun _ hchecked => hcheck hchecked.2⟩
    simp [Attempt.outcome, mapScsiError, hresponse, hgood]
  · rw [if_neg hgood]
    refine .inr ⟨_, rfl, rfl, rfl, rfl, ?_, fun _ hchecked => hcheck hchecked.2⟩
    exact mapScsiError_other hcheck 0xFF (r.sense &&& 0x0F)

/-! ## The loop -/

/-- What a discovery that times out leaves of an attempt: its data mapping. -/
def leftover (c : DoioCall) (bufs : UnitBuffers) (env : AttemptEnv) :
    Multiset DoioResource :=
  if c.unit = none ∧ c.comesTo bufs env = .timedOut then c.dataHeld env else 0

/-- Whether an attempt is answered with a CHECK CONDITION. -/
def Checked (c : DoioCall) (bufs : UnitBuffers) (env : AttemptEnv) : Prop :=
  ∃ r, c.comesTo bufs env = .answered r ∧ r.CheckCondition

/-- The loop from `run` to `run'`, with `tries` attempts left: each attempt but
the last meets a CHECK CONDITION, and the last one decides. -/
structure Looped (c : DoioCall) (bufs : UnitBuffers) (env : ℕ → AttemptEnv)
    (tries : ℕ) (run run' : DoioRun) (last : ℕ) : Prop where
  made : run'.made = last + 1
  first : run.made ≤ last
  bound : last < run.made + tries
  submitted : run'.submitted + run.made =
    run.submitted + last + (c.comesTo bufs (env last)).sent
  retried : ∀ k, run.made ≤ k → k < last → c.Checked bufs (env k)
  settled : last + 1 < run.made + tries → ¬ c.Checked bufs (env last)
  result : run'.result = (c.comesTo bufs (env last)).outcome
  trace : ∃ ops, run'.ops = run.ops ++ ops ∧
    balance 0 ops = some (c.leftover bufs (env last))

theorem Looped.kept {env : ℕ → AttemptEnv} {run run' : DoioRun} {last : ℕ}
    (h : Looped c bufs env tries run run' last) : run.submitted ≤ run'.submitted := by
  have hfirst := h.first
  have hsubmitted := h.submitted
  omega

theorem Looped.of_leave {env : ℕ → AttemptEnv} {run run' : DoioRun}
    (hmade : run'.made = run.made + 1)
    (hsubmitted : run'.submitted =
      run.submitted + (c.comesTo bufs (env run.made)).sent)
    (hsettled : 0 < tries → ¬ c.Checked bufs (env run.made))
    (hresult : run'.result = (c.comesTo bufs (env run.made)).outcome)
    (htrace : ∃ ops, run'.ops = run.ops ++ ops ∧
      balance 0 ops = some (c.leftover bufs (env run.made))) :
    Looped c bufs env (tries + 1) run run' run.made where
  made := hmade
  first := le_rfl
  bound := by omega
  submitted := by omega
  retried := fun k hle hlt => absurd hle (Nat.not_le_of_lt hlt)
  settled := fun hlt => hsettled (by omega)
  result := hresult
  trace := htrace

theorem not_checked_of_ne {env : AttemptEnv}
    (h : ∀ r, c.comesTo bufs env ≠ .answered r) : ¬ c.Checked bufs env := by
  rintro ⟨r, hcomes, -⟩
  exact h r hcomes

theorem leftover_of_ne {env : AttemptEnv} (h : c.comesTo bufs env ≠ .timedOut) :
    c.leftover bufs env = 0 :=
  if_neg fun htimed => h htimed.2

theorem attempt_turn (c : DoioCall) (bufs : UnitBuffers) (env : ℕ → AttemptEnv)
    (tries : ℕ) (run : DoioRun) :
    (∃ run' r ops, c.attempt bufs tries (env run.made) run = .again run' ∧ 0 < tries ∧
        c.comesTo bufs (env run.made) = .answered r ∧ r.CheckCondition ∧
        run'.made = run.made + 1 ∧ run'.submitted = run.submitted + 1 ∧
        run'.ops = run.ops ++ ops ∧ AllReleased ops) ∨
      ∃ run', c.attempt bufs tries (env run.made) run = .leave run' ∧
        Looped c bufs env (tries + 1) run run' run.made := by
  have hcases := attempt_cases c bufs tries (env run.made) run
  generalize hturn : c.attempt bufs tries (env run.made) run = turn at hcases ⊢
  generalize hcomes : c.comesTo bufs (env run.made) = outcome at hcases ⊢
  cases hcases with
  | @failed error ops hreleased =>
      refine .inr ⟨_, rfl, .of_leave rfl ?_ ?_ ?_ ⟨ops, rfl, ?_⟩⟩
      · rw [hcomes]
        rfl
      · exact fun _ => not_checked_of_ne (by rw [hcomes]; exact fun _ => Attempt.noConfusion)
      · rw [hcomes]
        rfl
      · rw [leftover_of_ne (by rw [hcomes]; exact Attempt.noConfusion)]
        exact hreleased
  | @timedOut ops hheld =>
      refine .inr ⟨_, rfl, .of_leave rfl ?_ ?_ ?_ ⟨ops, rfl, ?_⟩⟩
      · rw [hcomes]
        rfl
      · exact fun _ => not_checked_of_ne (by rw [hcomes]; exact fun _ => Attempt.noConfusion)
      · rw [hcomes]
        rfl
      · rw [hheld, leftover]
        simp only [hcomes, and_true]
  | @answered r ops hreleased =>
      rcases check_cases c (env run.made).vq.modern tries r { run with
          made := run.made + 1, ops := run.ops ++ ops,
          submitted := run.submitted + 1 } with
        ⟨htries, hchecked, run', hagain, hmade, hsubmitted, hops⟩ |
        ⟨run', hleave, hmade, hsubmitted, hops, hresult, hlast⟩
      · exact .inl ⟨run', r, ops, hagain, htries, rfl, hchecked, hmade, hsubmitted,
          hops, hreleased⟩
      · refine .inr ⟨run', hleave, .of_leave hmade ?_ ?_ ?_ ⟨ops, hops, ?_⟩⟩
        · rw [hcomes]
          exact hsubmitted
        · rintro htries ⟨r', hcomes', hchecked⟩
          rw [hcomes, Attempt.answered.injEq] at hcomes'
          exact hlast htries (hcomes' ▸ hchecked)
        · rw [hcomes]
          exact hresult
        · rw [leftover_of_ne (by rw [hcomes]; exact Attempt.noConfusion)]
          exact hreleased

/-- The induction is on the attempts left; each turn that goes on uses one. -/
theorem attempts_looped (c : DoioCall) (bufs : UnitBuffers) (env : ℕ → AttemptEnv)
    (tries : ℕ) (run : DoioRun) :
    ∃ last, Looped c bufs env (tries + 1) run
      (c.attempts bufs env (tries + 1) run) last := by
  induction tries generalizing run with
  | zero =>
      rcases attempt_turn c bufs env 0 run with
        ⟨_, _, _, _, htries, _⟩ | ⟨run', hleave, hlooped⟩
      · exact absurd htries (Nat.lt_irrefl 0)
      · rw [attempts, hleave]
        exact ⟨run.made, hlooped⟩
  | succ tries ih =>
      rw [attempts]
      rcases attempt_turn c bufs env (tries + 1) run with
        ⟨run₁, r, ops, hagain, -, hcomes, hchecked, hmade, hsubmitted, hops, hreleased⟩ |
        ⟨run', hleave, hlooped⟩
      · rw [hagain]
        dsimp only
        obtain ⟨last, hrest⟩ := ih run₁
        have hfirst := hrest.first
        have hbound := hrest.bound
        have hsent := hrest.submitted
        obtain ⟨ops', htrace, hheld⟩ := hrest.trace
        refine ⟨last, hrest.made, by omega, by omega, by omega, ?_,
          fun hlt => hrest.settled (by omega), hrest.result, ops ++ ops', ?_, ?_⟩
        · intro k hle hlt
          rcases Nat.eq_or_lt_of_le hle with heq | hlater
          · rw [← heq]
            exact ⟨r, hcomes, hchecked⟩
          · exact hrest.retried k (by omega) hlt
        · rw [htrace, hops, List.append_assoc]
        · exact balance_trans hreleased hheld
      · rw [hleave]
        exact ⟨run.made, hlooped⟩

theorem comesTo_cases (c : DoioCall) (bufs : UnitBuffers) (env : AttemptEnv) :
    c.comesTo bufs env = .failed hferrDma ∨
      c.comesTo bufs env = .failed tderrNotSpecified ∨
      c.comesTo bufs env = .timedOut ∨ ∃ r, c.comesTo bufs env = .answered r := by
  unfold comesTo
  cases (c.prepareData env.data).1 with
  | none => exact .inl rfl
  | some db =>
      dsimp only
      by_cases hlong : maxSgEntries <
          (c.sgList bufs db).outNum + (c.sgList bufs db).inNum
      · rw [if_pos hlong]
        exact .inl rfl
      rw [if_neg hlong]
      by_cases hrefused : (env.vq.addBuf (c.sgList bufs db).get (c.sgList bufs db).outNum
          (c.sgList bufs db).inNum c.buf env.exec).rc ≠ 0
      · rw [if_pos hrefused]
        exact .inr (.inl rfl)
      rw [if_neg hrefused]
      cases env.answer with
      | none => exact .inr (.inr (.inl rfl))
      | some r => exact .inr (.inr (.inr ⟨r, rfl⟩))

theorem outcome_eq_zero_iff (c : DoioCall) (bufs : UnitBuffers) (env : AttemptEnv) :
    (c.comesTo bufs env).outcome = 0 ↔
      ∃ r, c.comesTo bufs env = .answered r ∧ r.Succeeds := by
  rcases comesTo_cases c bufs env with hcomes | hcomes | hcomes | ⟨r, hcomes⟩
  · rw [hcomes]
    simp [Attempt.outcome, hferrDma]
  · rw [hcomes]
    simp [Attempt.outcome, tderrNotSpecified]
  · rw [hcomes]
    simp [Attempt.outcome, ioerrSelfTest]
  · rw [hcomes]
    simp only [Attempt.outcome, mapScsiError_eq_zero_iff, Attempt.answered.injEq,
      exists_eq_left']

theorem outcome_eq_selfTest_iff (c : DoioCall) (bufs : UnitBuffers) (env : AttemptEnv) :
    (c.comesTo bufs env).outcome = ioerrSelfTest ↔ c.comesTo bufs env = .timedOut := by
  rcases comesTo_cases c bufs env with hcomes | hcomes | hcomes | ⟨r, hcomes⟩
  · rw [hcomes]
    simp [Attempt.outcome, hferrDma, ioerrSelfTest]
  · rw [hcomes]
    simp [Attempt.outcome, tderrNotSpecified, ioerrSelfTest]
  · rw [hcomes]
    simp [Attempt.outcome]
  · rw [hcomes]
    simp [Attempt.outcome, mapScsiError_ne_selfTest]

/-! ## The whole call -/

def buffers (c : DoioCall) (env : DoioEnv) : UnitBuffers :=
  c.unit.getD ⟨env.reqDma.dma, env.respDma.dma⟩

def attemptAt (c : DoioCall) (env : DoioEnv) (k : ℕ) : Attempt :=
  c.comesTo (c.buffers env) (env.attempt k)

end DoioCall

/-- A temporary buffer of discovery with its mapping. -/
def tempHeld (virt : Option ℕ) (size : ℕ) (toDevice : Bool) (env : MapEnv) :
    Multiset DoioResource :=
  virt.elim 0 fun virt => .memory virt ::ₘ
    (DmaBuffer.prepare virt size toDevice env).1.elim 0 DmaBuffer.held

theorem tempHeld_some {virt : Option ℕ} {v size : ℕ} {toDevice : Bool} {env : MapEnv}
    {db : DmaBuffer} (hvirt : virt = some v)
    (hdb : (DmaBuffer.prepare v size toDevice env).1 = some db) :
    tempHeld virt size toDevice env = .memory v ::ₘ db.held := by
  rw [tempHeld, hvirt, Option.elim_some, hdb]
  rfl

namespace DoioCall

/-- What a call leaves behind whose last attempt is `last`: nothing, unless
discovery timed out. -/
def kept (c : DoioCall) (env : DoioEnv) (last : ℕ) : Multiset DoioResource :=
  if c.unit = none ∧ c.attemptAt env last = .timedOut then
    tempHeld env.req reqCmdSize true env.reqDma +
      tempHeld env.resp respCmdSize false env.respDma +
      c.dataHeld (env.attempt last)
  else 0

/-- Whether a call reaches the loop: there are a queue and a PCI device, and in
discovery the temporary buffers and their mappings. -/
def Starts (c : DoioCall) (env : DoioEnv) : Prop :=
  env.ready = true ∧ (c.unit = none →
    ∃ req ∈ env.req, ∃ resp ∈ env.resp,
      (DmaBuffer.prepare req reqCmdSize true env.reqDma).1.isSome = true ∧
      (DmaBuffer.prepare resp respCmdSize false env.respDma).1.isSome = true)

def CheckedAt (c : DoioCall) (env : DoioEnv) (k : ℕ) : Prop :=
  ∃ r, c.attemptAt env k = .answered r ∧ r.CheckCondition

/-- A call that made attempts, up to `last`. -/
structure Returned (c : DoioCall) (env : DoioEnv) (run : DoioRun) (last : ℕ) :
    Prop where
  made : run.made = last + 1
  bound : last < 3
  submitted : run.submitted = last + (c.attemptAt env last).sent
  retried : ∀ k < last, c.CheckedAt env k
  settled : last < 2 → ¬ c.CheckedAt env last
  result : run.result = (c.attemptAt env last).outcome
  held : balance 0 run.ops = some (c.kept env last)

/-- A call that returned before its first attempt. -/
structure Rejected (run : DoioRun) : Prop where
  made : run.made = 0
  submitted : run.submitted = 0
  result : run.result ≠ 0
  released : AllReleased run.ops

theorem prepare_entries {addr size : ℕ} {toDevice : Bool} {env : MapEnv}
    {db : DmaBuffer} (hsize : size ≠ 0)
    (hdb : (DmaBuffer.prepare addr size toDevice env).1 = some db) :
    db.entries = env.dma := by
  unfold DmaBuffer.prepare at hdb
  rw [if_neg hsize] at hdb
  by_cases hdma : env.dma.length = 0
  · rw [if_pos hdma] at hdb
    cases hdb
  rw [if_neg hdma] at hdb
  cases hlist : env.list with
  | none =>
      rw [hlist] at hdb
      cases hdb
  | some list =>
      rw [hlist] at hdb
      cases hdb
      rfl

/-- The loop, started with the resources `held`. -/
theorem attempts_returned (c : DoioCall) (env : DoioEnv) {ops : List (Op DoioResource)}
    {held : Multiset DoioResource} (hops : balance 0 ops = some held) :
    ∃ last,
      let run := c.attempts (c.buffers env) env.attempt 3 (.before tderrNotSpecified ops)
      (run.made = last + 1 ∧ last < 3 ∧
        run.submitted = last + (c.attemptAt env last).sent ∧
        (∀ k < last, c.CheckedAt env k) ∧ (last < 2 → ¬ c.CheckedAt env last) ∧
        run.result = (c.attemptAt env last).outcome) ∧
      balance 0 run.ops =
        some (held + c.leftover (c.buffers env) (env.attempt last)) := by
  obtain ⟨last, hlooped⟩ := attempts_looped c (c.buffers env) env.attempt 2
    (.before tderrNotSpecified ops)
  obtain ⟨ops', htrace, hheld⟩ := hlooped.trace
  refine ⟨last, ⟨hlooped.made, ?_, ?_, ?_, ?_, hlooped.result⟩, ?_⟩
  · exact hlooped.bound.trans_eq (Nat.zero_add 3)
  · exact hlooped.submitted.trans (by rw [DoioRun.before, Nat.zero_add]; rfl)
  · intro k hlt
    exact hlooped.retried k (Nat.zero_le k) hlt
  · intro hlt
    refine hlooped.settled ?_
    rw [DoioRun.before]
    omega
  · have hframe := balance_frame hheld held
    rw [zero_add, add_comm (c.leftover _ _)] at hframe
    rw [htrace]
    exact balance_trans hops hframe

theorem discover_returned {c : DoioCall} {env : DoioEnv} {req resp : ℕ}
    {dbReq dbResp : DmaBuffer} (hunit : c.unit = none) (hreq : env.req = some req)
    (hresp : env.resp = some resp)
    (hdbReq : (DmaBuffer.prepare req reqCmdSize true env.reqDma).1 = some dbReq)
    (hdbResp : (DmaBuffer.prepare resp respCmdSize false env.respDma).1 = some dbResp)
    {ops : List (Op DoioResource)}
    (hops : balance 0 ops = some (tempHeld env.req reqCmdSize true env.reqDma +
      tempHeld env.resp respCmdSize false env.respDma)) :
    ∃ last, c.Returned env (c.discover env req resp dbReq dbResp ops) last := by
  have hbuffers : (⟨dbReq.entries, dbResp.entries⟩ : UnitBuffers) = c.buffers env := by
    rw [buffers, hunit, prepare_entries (by decide) hdbReq,
      prepare_entries (by decide) hdbResp]
    rfl
  obtain ⟨last, ⟨hmade, hbound, hsubmitted, hretried, hsettled, hresult⟩, hheld⟩ :=
    c.attempts_returned env hops
  have htimeout := outcome_eq_selfTest_iff c (c.buffers env) (env.attempt last)
  refine ⟨last, ?_⟩
  unfold discover
  rw [hbuffers]
  dsimp only
  by_cases htimed : c.attemptAt env last = .timedOut
  · rw [if_neg (not_not.mpr (hresult.trans (htimeout.mpr htimed)))]
    refine ⟨hmade, hbound, hsubmitted, hretried, hsettled, hresult, ?_⟩
    rw [hheld, kept, if_pos ⟨hunit, htimed⟩, leftover, if_pos ⟨hunit, htimed⟩]
  · rw [if_pos fun h => htimed (htimeout.mp (hresult.symm.trans h))]
    refine ⟨hmade, hbound, hsubmitted, hretried, hsettled, hresult, ?_⟩
    rw [leftover_of_ne htimed, add_zero] at hheld
    rw [kept, if_neg fun h => htimed h.2]
    have htemps : tempHeld env.req reqCmdSize true env.reqDma +
        tempHeld env.resp respCmdSize false env.respDma =
        dbResp.held + (dbReq.held + {.memory resp, .memory req}) := by
      rw [tempHeld_some hreq hdbReq, tempHeld_some hresp hdbResp,
        Multiset.insert_eq_cons]
      simp only [← Multiset.singleton_add]
      abel
    rw [htemps] at hheld
    have hfreed : balance {.memory resp, .memory req}
        [.release (.memory resp), .release (.memory req)] =
        some (0 : Multiset DoioResource) := by
      rw [Multiset.insert_eq_cons, balance_release, balance_release_singleton,
        balance_nil]
    exact balance_trans hheld (balance_trans (dbResp.cleanup_frame _)
      (balance_trans (dbReq.cleanup_frame _) hfreed))

theorem Rejected.of_before {result : Int} {ops : List (Op DoioResource)}
    (hresult : result ≠ 0) (hreleased : AllReleased ops) :
    Rejected (.before result ops) :=
  ⟨rfl, rfl, hresult, hreleased⟩

theorem not_starts_of_unready {c : DoioCall} {env : DoioEnv}
    (hready : env.ready = false) : ¬ c.Starts env := by
  rintro ⟨hyes, -⟩
  rw [hready] at hyes
  cases hyes

/-- A discovery whose buffers or mappings are not there does not reach the
loop. -/
theorem not_starts_of_missing {c : DoioCall} {env : DoioEnv} (hunit : c.unit = none)
    (hmissing : ∀ req ∈ env.req, ∀ resp ∈ env.resp,
      (DmaBuffer.prepare req reqCmdSize true env.reqDma).1 = none ∨
      (DmaBuffer.prepare resp respCmdSize false env.respDma).1 = none) :
    ¬ c.Starts env := by
  rintro ⟨-, hall⟩
  obtain ⟨req, hreq, resp, hresp, hfirst, hsecond⟩ := hall hunit
  rcases hmissing req hreq resp hresp with hnone | hnone
  · rw [hnone] at hfirst
    cases hfirst
  · rw [hnone] at hsecond
    cases hsecond

/-- A call returns before its first attempt or after its last one. -/
theorem doio_cases (c : DoioCall) (env : DoioEnv) :
    (¬ c.Starts env ∧ Rejected (c.doio env)) ∨
      (c.Starts env ∧ ∃ last, c.Returned env (c.doio env) last) := by
  unfold doio
  by_cases hready : env.ready = false
  · rw [if_pos hready]
    exact .inl ⟨not_starts_of_unready hready, .of_before (by decide) rfl⟩
  rw [if_neg hready]
  rw [Bool.not_eq_false] at hready
  cases hunit : c.unit with
  | some bufs =>
      have hbuffers : bufs = c.buffers env := by
        rw [buffers, hunit]
        rfl
      have hkept : ∀ last, c.kept env last = 0 ∧
          c.leftover (c.buffers env) (env.attempt last) = 0 := by
        intro last
        rw [kept, leftover, hunit]
        simp
      obtain ⟨last, ⟨hmade, hbound, hsubmitted, hretried, hsettled, hresult⟩, hheld⟩ :=
        c.attempts_returned env (balance_nil 0)
      rw [(hkept last).2, add_zero] at hheld
      have hstarts : c.Starts env :=
        ⟨hready, fun hnone => by rw [hunit] at hnone; cases hnone⟩
      dsimp only
      rw [hbuffers]
      refine .inr ⟨hstarts, last, hmade, hbound, hsubmitted, hretried, hsettled, hresult, ?_⟩
      rw [hheld, (hkept last).1]
  | none =>
      cases hreq : env.req with
      | none =>
          have hnot : ¬ c.Starts env := by
            apply not_starts_of_missing hunit
            intro req hmem
            rw [hreq] at hmem
            cases hmem
          cases hresp : env.resp with
          | none => exact .inl ⟨hnot, .of_before (by decide) rfl⟩
          | some resp => exact .inl ⟨hnot, .of_before (by decide) (by simp [AllReleased])⟩
      | some req =>
          cases hresp : env.resp with
          | none =>
              have hnot : ¬ c.Starts env := by
                apply not_starts_of_missing hunit
                intro _ _ resp hmem
                rw [hresp] at hmem
                cases hmem
              exact .inl ⟨hnot, .of_before (by decide) (by simp [AllReleased])⟩
          | some resp =>
              have halloc : balance 0 [.acquire (.memory req), .acquire (.memory resp)] =
                  some ({.memory req, .memory resp} : Multiset DoioResource) := by
                rw [balance_acquire, balance_acquire, balance_nil, Multiset.cons_swap]
                rfl
              have hfree : balance {.memory req, .memory resp}
                  [.release (.memory req), .release (.memory resp)] =
                  some (0 : Multiset DoioResource) := by
                rw [Multiset.insert_eq_cons, balance_release,
                  balance_release_singleton, balance_nil]
              have hfirst := balance_frame
                (DmaBuffer.prepare_held req reqCmdSize true env.reqDma)
                {.memory req, .memory resp}
              rw [zero_add] at hfirst
              dsimp only
              cases hdbReq : (DmaBuffer.prepare req reqCmdSize true env.reqDma).1 with
              | none =>
                  have hnot : ¬ c.Starts env := by
                    apply not_starts_of_missing hunit
                    rw [hreq]
                    rintro _ ⟨rfl⟩ _ -
                    exact .inl hdbReq
                  rw [hdbReq, Option.elim_none, zero_add] at hfirst
                  exact .inl ⟨hnot, .of_before (by decide)
                    (balance_trans halloc (balance_trans hfirst hfree))⟩
              | some dbReq =>
                  rw [hdbReq, Option.elim_some] at hfirst
                  have hsecond := balance_frame
                    (DmaBuffer.prepare_held resp respCmdSize false env.respDma)
                    (dbReq.held + {.memory req, .memory resp})
                  rw [zero_add] at hsecond
                  dsimp only
                  cases hdbResp :
                      (DmaBuffer.prepare resp respCmdSize false env.respDma).1 with
                  | none =>
                      have hnot : ¬ c.Starts env := by
                        apply not_starts_of_missing hunit
                        rw [hresp]
                        rintro _ - _ ⟨rfl⟩
                        exact .inr hdbResp
                      rw [hdbResp, Option.elim_none, zero_add] at hsecond
                      exact .inl ⟨hnot, .of_before (by decide)
                        (balance_trans halloc (balance_trans hfirst
                          (balance_trans hsecond
                            (balance_trans (dbReq.cleanup_frame _) hfree))))⟩
                  | some dbResp =>
                      rw [hdbResp, Option.elim_some] at hsecond
                      have hstarts : c.Starts env := by
                        refine ⟨hready, fun _ => ⟨req, hreq, resp, hresp, ?_, ?_⟩⟩
                        · rw [hdbReq]
                          rfl
                        · rw [hdbResp]
                          rfl
                      refine .inr ⟨hstarts, ?_⟩
                      apply discover_returned hunit hreq hresp hdbReq hdbResp
                      rw [tempHeld_some hreq hdbReq, tempHeld_some hresp hdbResp]
                      have hboth := balance_trans halloc (balance_trans hfirst hsecond)
                      rw [hboth, Multiset.insert_eq_cons]
                      simp only [← Multiset.singleton_add]
                      congr 1
                      abel

/-- What a call comes to.  Unless it is turned away before the loop it makes
one to three attempts, each but the first after a CHECK CONDITION and none
after anything else; the last one decides the result; and what was acquired is
released exactly once, but for the buffers of a discovery that timed out. -/
structure Exact (c : DoioCall) (env : DoioEnv) : Prop where
  started : 0 < (c.doio env).made ↔ c.Starts env
  made : (c.doio env).made ≤ 3
  submitted : (c.doio env).submitted =
    ∑ k ∈ Finset.range (c.doio env).made, (c.attemptAt env k).sent
  submitted_le : (c.doio env).submitted ≤ 3
  retried : ∀ k, k + 1 < (c.doio env).made → c.CheckedAt env k
  settled : ∀ last, (c.doio env).made = last + 1 → last < 2 → ¬ c.CheckedAt env last
  result : ∀ last, (c.doio env).made = last + 1 →
    (c.doio env).result = (c.attemptAt env last).outcome
  success : (c.doio env).result = 0 ↔ ∃ last r, (c.doio env).made = last + 1 ∧
    c.attemptAt env last = .answered r ∧ r.Succeeds
  released : (∀ last, (c.doio env).made = last + 1 →
      ¬ (c.unit = none ∧ c.attemptAt env last = .timedOut)) →
    AllReleased (c.doio env).ops
  timedOut : ∀ last, (c.doio env).made = last + 1 →
    c.unit = none → c.attemptAt env last = .timedOut →
    balance 0 (c.doio env).ops = some (
      tempHeld env.req reqCmdSize true env.reqDma +
        tempHeld env.resp respCmdSize false env.respDma +
        c.dataHeld (env.attempt last))

theorem sent_le_one (a : Attempt) : a.sent ≤ 1 := by
  cases a <;> simp [Attempt.sent]

theorem CheckedAt.sent {c : DoioCall} {env : DoioEnv} {k : ℕ}
    (h : c.CheckedAt env k) : (c.attemptAt env k).sent = 1 := by
  obtain ⟨r, hcomes, -⟩ := h
  rw [hcomes]
  rfl

theorem Returned.sum_sent {c : DoioCall} {env : DoioEnv} {run : DoioRun} {last : ℕ}
    (h : c.Returned env run last) :
    ∑ k ∈ Finset.range (last + 1), (c.attemptAt env k).sent = run.submitted := by
  have hearlier : ∑ k ∈ Finset.range last, (c.attemptAt env k).sent =
      ∑ _k ∈ Finset.range last, 1 :=
    Finset.sum_congr rfl fun k hk => (h.retried k (Finset.mem_range.mp hk)).sent
  rw [Finset.sum_range_succ, hearlier, Finset.sum_const, Finset.card_range, h.submitted]
  simp

theorem exact_of_rejected {c : DoioCall} {env : DoioEnv} (hnot : ¬ c.Starts env)
    (h : Rejected (c.doio env)) : c.Exact env := by
  have hnone : ∀ last, (c.doio env).made ≠ last + 1 := by
    intro last hmade
    rw [h.made] at hmade
    cases hmade
  constructor
  · rw [h.made]
    exact iff_of_false (Nat.lt_irrefl 0) hnot
  · rw [h.made]
    exact Nat.zero_le 3
  · rw [h.made, h.submitted]
    rfl
  · rw [h.submitted]
    exact Nat.zero_le 3
  · intro k hlt
    rw [h.made] at hlt
    cases hlt
  · intro last hmade
    exact absurd hmade (hnone last)
  · intro last hmade
    exact absurd hmade (hnone last)
  · apply iff_of_false h.result
    rintro ⟨last, _, hmade, -⟩
    exact hnone last hmade
  · intro _
    exact h.released
  · intro last hmade
    exact absurd hmade (hnone last)

theorem exact_of_returned {c : DoioCall} {env : DoioEnv} {last : ℕ}
    (hstarts : c.Starts env) (h : c.Returned env (c.doio env) last) : c.Exact env := by
  have hlast : ∀ last', (c.doio env).made = last' + 1 → last' = last := by
    intro last' hmade
    rw [h.made] at hmade
    exact (Nat.succ.inj hmade).symm
  have hbound := h.bound
  have hheld := h.held
  constructor
  · rw [h.made]
    exact iff_of_true (Nat.succ_pos last) hstarts
  · rw [h.made]
    exact hbound
  · rw [h.made]
    exact h.sum_sent.symm
  · have hsent := sent_le_one (c.attemptAt env last)
    rw [h.submitted]
    omega
  · intro k hlt
    rw [h.made] at hlt
    exact h.retried k (by omega)
  · intro last' hmade
    rw [hlast last' hmade]
    exact h.settled
  · intro last' hmade
    rw [hlast last' hmade]
    exact h.result
  · rw [h.result, attemptAt, outcome_eq_zero_iff]
    constructor
    · rintro ⟨r, hcomes, hsucceeds⟩
      exact ⟨last, r, h.made, hcomes, hsucceeds⟩
    · rintro ⟨last', r, hmade, hcomes, hsucceeds⟩
      rw [hlast last' hmade] at hcomes
      exact ⟨r, hcomes, hsucceeds⟩
  · intro hanswered
    rw [kept, if_neg (hanswered last h.made)] at hheld
    exact hheld
  · intro last' hmade hunit htimed
    rw [hlast last' hmade] at htimed ⊢
    rw [kept, if_pos ⟨hunit, htimed⟩] at hheld
    exact hheld

/-- `VirtIOSCSI_DoIO` is exact, whatever Exec, the queue and the device
answer. -/
theorem doio_exact (c : DoioCall) (env : DoioEnv) : c.Exact env := by
  rcases doio_cases c env with ⟨hnot, hrejected⟩ | ⟨hstarts, last, hreturned⟩
  · exact exact_of_rejected hnot hrejected
  · exact exact_of_returned hstarts hreturned

section Sample

/-- The INQUIRY of a probe. -/
def sampleProbe : DoioCall := ⟨.temp 0, none, 0x3000, 36, false⟩

/-- A device that reports UNIT ATTENTION and then stays silent. -/
def sampleProbeEnv : DoioEnv where
  ready := true
  req := some 0x1000
  resp := some 0x2000
  reqDma := ⟨[⟨0x1000, 51⟩], some 0x4000⟩
  respDma := ⟨[⟨0x2000, 108⟩], some 0x5000⟩
  attempt k := ⟨⟨[⟨0x3000, 36⟩], some 0x6000⟩, Virtqueue.allocate 16 false false false,
    ⟨none, 0, none⟩, if k = 0 then some ⟨0, 2, 0, 6⟩ else none⟩

/-- UNIT ATTENTION, then silence: two attempts, and the buffers of the second are
kept. -/
theorem doio_exact_sampleProbe :
    (sampleProbe.doio sampleProbeEnv).made = 2 ∧ sampleProbe.CheckedAt sampleProbeEnv 0 ∧
      (sampleProbe.doio sampleProbeEnv).result = ioerrSelfTest ∧
      balance 0 (sampleProbe.doio sampleProbeEnv).ops = some (
        tempHeld (some 0x1000) reqCmdSize true sampleProbeEnv.reqDma +
          tempHeld (some 0x2000) respCmdSize false sampleProbeEnv.respDma +
          sampleProbe.dataHeld (sampleProbeEnv.attempt 1)) := by
  have hexact := doio_exact sampleProbe sampleProbeEnv
  have hmade : (sampleProbe.doio sampleProbeEnv).made = 2 := by decide +kernel
  have htimed : sampleProbe.attemptAt sampleProbeEnv 1 = .timedOut := by decide +kernel
  refine ⟨hmade, hexact.retried 0 ?_, ?_, hexact.timedOut 1 hmade rfl htimed⟩
  · rw [hmade]
    exact Nat.lt_succ_self 1
  · rw [hexact.result 1 hmade, htimed]
    rfl

end Sample

end DoioCall

end VirtioScsi
