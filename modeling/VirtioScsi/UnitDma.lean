import VirtioScsi.DoioAttempts

/-!
# The DMA buffers of a unit

`preallocate_unit_dma` and `free_unit_dma`: the request, response and bounce
buffers of the slots with their DMA mappings and entry lists.  Every failure of
Exec takes an exit of its own; each of them releases exactly what was acquired
before, so that the clean-up of `UnitTask_Shutdown` finds nothing.
-/

namespace VirtioScsi

open ResourceTrace

def maxInflight : ℕ := 16

/-- The fields of a unit for one slot; pointers are addresses, and NULL is
`none`. -/
structure SlotDma where
  reqBuf : Option ℕ
  respBuf : Option ℕ
  dmaReqList : Option ℕ
  dmaReqEntries : ℕ
  dmaRespList : Option ℕ
  dmaRespEntries : ℕ
  bounceBuf : Option ℕ
  bounceDmaPhys : BitVec 32
  bounceDmaEntries : ℕ
  dataDmaPool : Option ℕ
deriving DecidableEq, Repr

/-- What Exec answers for a slot. -/
structure SlotEnv where
  req : Option ℕ
  resp : Option ℕ
  reqDma : MapEnv
  respDma : MapEnv
  bounce : Option ℕ
  bounceDma : MapEnv
  pool : Option ℕ

/-- `StartDMA` and the call for its entry list succeed. -/
structure MapEnv.Complete (env : MapEnv) : Prop where
  dma : env.dma ≠ []
  list : env.list.isSome = true

/-- No call of Exec for a slot fails. -/
structure SlotEnv.Complete (env : SlotEnv) : Prop where
  req : env.req.isSome = true
  resp : env.resp.isSome = true
  reqDma : env.reqDma.Complete
  respDma : env.respDma.Complete
  bounce : env.bounce.isSome = true
  bounceDma : env.bounceDma.Complete
  pool : env.pool.isSome = true

/-- The result of a set-up step, what it leaves behind, and its calls. -/
structure SetupRun (σ : Type) where
  ok : Bool
  state : σ
  ops : List (Op DoioResource)

namespace SlotDma

/-! ## A slot -/

def reqDma (req : ℕ) : DoioResource := .dma req reqCmdSize true

def respDma (resp : ℕ) : DoioResource := .dma resp respCmdSize false

def bounceDma (bounce : ℕ) : DoioResource := .dma bounce bounceBufSize true

def allocOneSlot (d : SlotDma) (env : SlotEnv) : SetupRun SlotDma :=
  match env.req with
  | none => ⟨false, { d with reqBuf := none }, []⟩
  | some req =>
  match env.resp with
  | none =>
      ⟨false, { d with reqBuf := none, respBuf := none },
        [.acquire (.memory req), .release (.memory req)]⟩
  | some resp =>
  let buffers := [.acquire (.memory req), .acquire (.memory resp)]
  let failResp := [.release (.memory resp), .release (.memory req)]
  let d := { d with dmaReqEntries := env.reqDma.dma.length }
  if env.reqDma.dma.length = 0 then
    ⟨false, { d with reqBuf := none, respBuf := none }, buffers ++ failResp⟩
  else
  match env.reqDma.list with
  | none =>
      ⟨false, { d with dmaReqList := none, dmaReqEntries := 0, reqBuf := none
                       respBuf := none },
        buffers ++ [.acquire (reqDma req), .release (reqDma req)] ++ failResp⟩
  | some reqList =>
  let mapped := buffers ++ [.acquire (reqDma req), .acquire (.entryList reqList)]
  let failMapped := [.release (.entryList reqList), .release (reqDma req)] ++ failResp
  let d := { d with dmaRespEntries := env.respDma.dma.length }
  if env.respDma.dma.length = 0 then
    ⟨false, { d with dmaReqList := none, dmaReqEntries := 0, reqBuf := none
                     respBuf := none }, mapped ++ failMapped⟩
  else
  match env.respDma.list with
  | none =>
      ⟨false, { d with dmaRespList := none, dmaRespEntries := 0, dmaReqList := none
                       dmaReqEntries := 0, reqBuf := none, respBuf := none },
        mapped ++ [.acquire (respDma resp), .release (respDma resp)] ++ failMapped⟩
  | some respList =>
      ⟨true, { d with dmaRespList := some respList, dmaReqList := some reqList
                      reqBuf := some req, respBuf := some resp },
        mapped ++ [.acquire (respDma resp), .acquire (.entryList respList)]⟩

/-- What `free_one_slot` releases, in its order. -/
def slotResources (d : SlotDma) : List DoioResource :=
  d.dmaRespList.toList.map .entryList ++
    (if 0 < d.dmaRespEntries then d.respBuf.toList.map respDma else []) ++
    d.dmaReqList.toList.map .entryList ++
    (if 0 < d.dmaReqEntries then d.reqBuf.toList.map reqDma else []) ++
    d.respBuf.toList.map .memory ++ d.reqBuf.toList.map .memory

def freeOneSlot (d : SlotDma) : SlotDma × List (Op DoioResource) :=
  ({ d with
      dmaRespList := none
      dmaRespEntries := if 0 < d.dmaRespEntries ∧ d.respBuf.isSome then 0
        else d.dmaRespEntries
      dmaReqList := none
      dmaReqEntries := if 0 < d.dmaReqEntries ∧ d.reqBuf.isSome then 0
        else d.dmaReqEntries
      respBuf := none
      reqBuf := none },
    d.slotResources.map .release)

/-! ## The bounce buffer -/

/-- `alloc_one_bounce`: the mapping is ended at once, and of the entries only
the first physical address is kept. -/
def allocOneBounce (d : SlotDma) (env : SlotEnv) : SetupRun SlotDma :=
  match env.bounce with
  | none => ⟨false, { d with bounceBuf := none }, []⟩
  | some bounce =>
  match env.bounceDma.dma with
  | [] =>
      ⟨false, { d with bounceBuf := none },
        [.acquire (.memory bounce), .release (.memory bounce)]⟩
  | first :: _ =>
  match env.bounceDma.list with
  | none =>
      ⟨false, { d with bounceBuf := none, bounceDmaEntries := 0 },
        [.acquire (.memory bounce), .acquire (bounceDma bounce),
          .release (bounceDma bounce), .release (.memory bounce)]⟩
  | some tmp =>
      ⟨true, { d with bounceBuf := some bounce, bounceDmaPhys := first.addr
                      bounceDmaEntries := 0 },
        [.acquire (.memory bounce), .acquire (bounceDma bounce),
          .acquire (.entryList tmp), .release (.entryList tmp),
          .release (bounceDma bounce)]⟩

def bounceResources (d : SlotDma) : List DoioResource :=
  (if 0 < d.bounceDmaEntries then d.bounceBuf.toList.map bounceDma else []) ++
    d.bounceBuf.toList.map .memory

def freeOneBounce (d : SlotDma) : SlotDma × List (Op DoioResource) :=
  let mapped := 0 < d.bounceDmaEntries ∧ d.bounceBuf.isSome
  ({ d with
      bounceDmaPhys := if mapped then 0 else d.bounceDmaPhys
      bounceDmaEntries := if mapped then 0 else d.bounceDmaEntries
      bounceBuf := none },
    d.bounceResources.map .release)

/-! ## The turns of the loops -/

/-- The turn of `preallocate_unit_dma` for a slot, without the clean-up of the
slots before it. -/
def setUp (d : SlotDma) (env : SlotEnv) : SetupRun SlotDma :=
  let slot := d.allocOneSlot env
  if slot.ok = false then slot
  else
    let bounce := slot.state.allocOneBounce env
    if bounce.ok = false then
      let freed := bounce.state.freeOneSlot
      ⟨false, freed.1, slot.ops ++ bounce.ops ++ freed.2⟩
    else
      match env.pool with
      | some pool =>
          ⟨true, { bounce.state with dataDmaPool := some pool },
            slot.ops ++ bounce.ops ++ [.acquire (.entryList pool)]⟩
      | none =>
          let unbounced := { bounce.state with dataDmaPool := none }.freeOneBounce
          let freed := unbounced.1.freeOneSlot
          ⟨false, freed.1, slot.ops ++ bounce.ops ++ unbounced.2 ++ freed.2⟩

def poolResources (d : SlotDma) : List DoioResource :=
  d.dataDmaPool.toList.map .entryList

/-- The turn of the clean-up loops and of `free_unit_dma` for a slot. -/
def tearDown (d : SlotDma) : SlotDma × List (Op DoioResource) :=
  let unbounced := { d with dataDmaPool := none }.freeOneBounce
  let freed := unbounced.1.freeOneSlot
  (freed.1, d.poolResources.map .release ++ unbounced.2 ++ freed.2)

end SlotDma

/-! ## The unit -/

/-- The slot-0 aliases of the synchronous path. -/
structure SlotAliases where
  reqBuf : Option ℕ
  respBuf : Option ℕ
  dmaReqList : Option ℕ
  dmaReqEntries : ℕ
  dmaRespList : Option ℕ
  dmaRespEntries : ℕ
deriving DecidableEq, Repr

def SlotAliases.none : SlotAliases := ⟨.none, .none, .none, 0, .none, 0⟩

def SlotDma.aliases (d : SlotDma) : SlotAliases :=
  ⟨d.reqBuf, d.respBuf, d.dmaReqList, d.dmaReqEntries, d.dmaRespList, d.dmaRespEntries⟩

structure UnitDma where
  slots : ℕ → SlotDma
  slot0 : SlotAliases
  freeHead : Int
  inflightNext : ℕ → Int

namespace UnitDma

def setSlot (u : UnitDma) (s : ℕ) (d : SlotDma) : UnitDma :=
  { u with slots := Function.update u.slots s d }

/-- The clean-up of the slots below `n`. -/
def freeSlots (u : UnitDma) : ℕ → UnitDma × List (Op DoioResource)
  | 0 => (u, [])
  | n + 1 =>
      let freed := u.freeSlots n
      let last := (freed.1.slots n).tearDown
      (freed.1.setSlot n last.1, freed.2 ++ last.2)

/-- The loop of `preallocate_unit_dma` from slot `s` on. -/
def preallocateFrom (env : ℕ → SlotEnv) : ℕ → ℕ → UnitDma → SetupRun UnitDma
  | 0, _, u => ⟨true, u, []⟩
  | left + 1, s, u =>
      let turn := (u.slots s).setUp (env s)
      let u := u.setSlot s turn.state
      if turn.ok then
        let rest := preallocateFrom env left (s + 1) u
        ⟨rest.ok, rest.state, turn.ops ++ rest.ops⟩
      else
        let freed := u.freeSlots s
        ⟨false, freed.1, turn.ops ++ freed.2⟩

/-- All slots free, linked 0→1→...→15→-1. -/
def initFreeList (u : UnitDma) : UnitDma :=
  { u with
    inflightNext := fun s => if s < maxInflight - 1 then s + 1
      else if s = maxInflight - 1 then -1 else u.inflightNext s
    freeHead := 0 }

def preallocateUnitDma (u : UnitDma) (env : ℕ → SlotEnv) : SetupRun UnitDma :=
  let run := preallocateFrom env maxInflight 0 u.initFreeList
  if run.ok then
    { run with state := { run.state with slot0 := (run.state.slots 0).aliases } }
  else run

def freeUnitDma (u : UnitDma) : UnitDma × List (Op DoioResource) :=
  let freed := u.freeSlots maxInflight
  ({ freed.1 with slot0 := .none, freeHead := -1 }, freed.2)

end UnitDma

namespace SlotDma

def blank (phys : BitVec 32) : SlotDma :=
  ⟨none, none, none, 0, none, 0, none, phys, 0, none⟩

def Blank (d : SlotDma) : Prop := ∃ phys, d = blank phys

/-- A slot with all its resources; the bounce buffer is not mapped. -/
structure Live (d : SlotDma) : Prop where
  reqBuf : d.reqBuf.isSome
  respBuf : d.respBuf.isSome
  dmaReqList : d.dmaReqList.isSome
  dmaReqEntries : 0 < d.dmaReqEntries
  dmaRespList : d.dmaRespList.isSome
  dmaRespEntries : 0 < d.dmaRespEntries
  bounceBuf : d.bounceBuf.isSome
  bounceDmaEntries : d.bounceDmaEntries = 0
  dataDmaPool : d.dataDmaPool.isSome

def resources (d : SlotDma) : Multiset DoioResource :=
  (d.poolResources : Multiset DoioResource) + d.bounceResources + d.slotResources

theorem tearDown_balance (d : SlotDma) (base : Multiset DoioResource) :
    balance (d.resources + base) d.tearDown.2 = some base := by
  have hpool := balance_releases d.poolResources
    ((d.bounceResources : Multiset DoioResource) + (d.slotResources + base))
  have hbounce := balance_releases d.bounceResources
    ((d.slotResources : Multiset DoioResource) + base)
  have hslot := balance_releases d.slotResources base
  have hheld : d.resources + base = (d.poolResources : Multiset DoioResource) +
      ((d.bounceResources : Multiset DoioResource) + (d.slotResources + base)) := by
    unfold resources
    simp only [add_assoc]
  rw [hheld]
  exact balance_trans (balance_trans hpool hbounce) hslot

theorem tearDown_blank (phys : BitVec 32) : (blank phys).tearDown = (blank phys, []) := rfl

theorem Live.tearDown {d : SlotDma} (h : d.Live) : d.tearDown.1.Blank := by
  have hresp : 0 < d.dmaRespEntries ∧ d.respBuf.isSome := ⟨h.dmaRespEntries, h.respBuf⟩
  have hreq : 0 < d.dmaReqEntries ∧ d.reqBuf.isSome := ⟨h.dmaReqEntries, h.reqBuf⟩
  refine ⟨d.bounceDmaPhys, ?_⟩
  unfold SlotDma.tearDown freeOneBounce freeOneSlot blank
  simp [hresp, hreq, h.bounceDmaEntries]

/-- A slot between `alloc_one_slot` and `alloc_one_bounce`. -/
inductive Mapped (phys : BitVec 32) : SlotDma → Prop where
  | mk {m n : ℕ} (req resp reqList respList : ℕ) (hreq : 0 < m) (hresp : 0 < n) :
      Mapped phys ⟨some req, some resp, some reqList, m, some respList, n, none, phys,
        0, none⟩

/-- A run fails and leaves nothing, of what was held before neither, or it
succeeds and holds what its state says. -/
inductive AllOrNothing {σ : Type} (base : Multiset DoioResource) (nothing all : σ → Prop)
    (held : σ → Multiset DoioResource) : SetupRun σ → Prop where
  | failed {state : σ} {ops : List (Op DoioResource)} (hnothing : nothing state)
      (hreleased : balance base ops = some 0) :
      AllOrNothing base nothing all held ⟨false, state, ops⟩
  | done {state : σ} {ops : List (Op DoioResource)} (hall : all state)
      (hheld : balance base ops = some (held state)) :
      AllOrNothing base nothing all held ⟨true, state, ops⟩

theorem allocOneSlot_blank (phys : BitVec 32) (env : SlotEnv) :
    AllOrNothing 0 (· = blank phys) (Mapped phys) (fun d => (d.slotResources : Multiset _))
      ((blank phys).allocOneSlot env) := by
  unfold allocOneSlot
  cases env.req with
  | none => exact .failed rfl rfl
  | some req =>
  cases env.resp with
  | none =>
      refine .failed rfl ?_
      simp
  | some resp =>
  dsimp only
  by_cases hreq : env.reqDma.dma.length = 0
  · rw [if_pos hreq, hreq]
    refine .failed rfl ?_
    simp
  rw [if_neg hreq]
  cases env.reqDma.list with
  | none =>
      refine .failed rfl ?_
      simp
  | some reqList =>
  dsimp only
  by_cases hresp : env.respDma.dma.length = 0
  · rw [if_pos hresp, hresp]
    refine .failed rfl ?_
    simp
  rw [if_neg hresp]
  have hreqPos := Nat.pos_of_ne_zero hreq
  have hrespPos := Nat.pos_of_ne_zero hresp
  cases env.respDma.list with
  | none =>
      refine .failed rfl ?_
      simp
  | some respList =>
      apply AllOrNothing.done
      · exact .mk req resp reqList respList hreqPos hrespPos
      · simp only [slotResources, hreqPos, hrespPos, if_true]
        rfl

theorem allocOneBounce_mapped {phys : BitVec 32} {d : SlotDma} (h : d.Mapped phys)
    (env : SlotEnv) :
    AllOrNothing 0 (· = d)
      (fun d' => ∃ bounce phys', d' = { d with
        bounceBuf := some bounce, bounceDmaPhys := phys' })
      (fun d => (d.bounceResources : Multiset _)) (d.allocOneBounce env) := by
  obtain ⟨req, resp, reqList, respList, -, -⟩ := h
  unfold allocOneBounce
  cases env.bounce with
  | none => exact .failed rfl rfl
  | some bounce =>
  cases env.bounceDma.dma with
  | nil =>
      refine .failed rfl ?_
      simp
  | cons first rest =>
  cases env.bounceDma.list with
  | none =>
      refine .failed rfl ?_
      simp
  | some tmp =>
      apply AllOrNothing.done
      · exact ⟨bounce, first.addr, rfl⟩
      · simp [bounceResources]

theorem freeOneSlot_mapped {phys : BitVec 32} {d : SlotDma} (h : d.Mapped phys) :
    d.freeOneSlot.1 = blank phys := by
  obtain ⟨req, resp, reqList, respList, hreq, hresp⟩ := h
  simp [freeOneSlot, blank, hreq, hresp]

theorem setUp_blank (phys : BitVec 32) (env : SlotEnv) :
    AllOrNothing 0 Blank Live resources ((blank phys).setUp env) := by
  have hslot := allocOneSlot_blank phys env
  unfold setUp
  dsimp only
  generalize (blank phys).allocOneSlot env = slot at hslot ⊢
  cases hslot with
  | failed hnothing hreleased => exact .failed ⟨phys, hnothing⟩ hreleased
  | @done d slotOps hmapped hheld =>
  have hbounce := allocOneBounce_mapped hmapped env
  dsimp only
  generalize d.allocOneBounce env = bounce at hbounce ⊢
  rw [if_neg (by decide)]
  have hfree := balance_releases d.slotResources 0
  rw [add_zero] at hfree
  cases hbounce with
  | @failed d' bounceOps hsame hreleased =>
      cases hsame
      refine .failed ⟨phys, freeOneSlot_mapped hmapped⟩ ?_
      have hframe := balance_frame hreleased d.slotResources
      simp only [zero_add] at hframe
      exact balance_trans (balance_trans hheld hframe) hfree
  | @done d' bounceOps hbounced hbounceHeld =>
  obtain ⟨bounce, phys', rfl⟩ := hbounced
  have hframe := balance_frame hbounceHeld d.slotResources
  rw [zero_add] at hframe
  have hboth := balance_trans hheld hframe
  dsimp only
  rw [if_neg (by decide)]
  cases env.pool with
  | none =>
      have hunbounce := balance_releases
        (bounceResources { d with bounceBuf := some bounce, bounceDmaPhys := phys' })
        d.slotResources
      have hreleased := balance_trans (balance_trans hboth hunbounce) hfree
      obtain ⟨req, resp, reqList, respList, hreq, hresp⟩ := hmapped
      refine .failed ⟨phys', ?_⟩ hreleased
      simp [freeOneBounce, freeOneSlot, blank, hreq, hresp]
  | some pool =>
      have hpooled : balance (((bounceResources { d with
          bounceBuf := some bounce, bounceDmaPhys := phys' } : List _) : Multiset _) +
            (d.slotResources : Multiset _)) [Op.acquire (DoioResource.entryList pool)] =
          some (resources { d with
            bounceBuf := some bounce, bounceDmaPhys := phys', dataDmaPool := some pool }) := by
        rw [balance_acquire, balance_nil, ← Multiset.singleton_add, ← add_assoc]
        rfl
      have hheld := balance_trans hboth hpooled
      obtain ⟨req, resp, reqList, respList, hreq, hresp⟩ := hmapped
      refine .done ?_ hheld
      constructor <;> first | rfl | assumption

/-! ### Success -/

theorem mapEnv_complete {dma : List VringSg} {list : Option ℕ} :
    (⟨dma, list⟩ : MapEnv).Complete ↔ dma ≠ [] ∧ list.isSome = true :=
  ⟨fun h => ⟨h.dma, h.list⟩, fun h => ⟨h.1, h.2⟩⟩

theorem allocOneSlot_ok (d : SlotDma) (env : SlotEnv) :
    (d.allocOneSlot env).ok = true ↔ env.req.isSome = true ∧ env.resp.isSome = true ∧
      env.reqDma.Complete ∧ env.respDma.Complete := by
  obtain ⟨req, resp, ⟨reqDma, reqList⟩, ⟨respDma, respList⟩, _, _, _⟩ := env
  rw [mapEnv_complete, mapEnv_complete]
  unfold allocOneSlot
  cases req with
  | none => simp
  | some req =>
  cases resp with
  | none => simp
  | some resp =>
  cases reqDma with
  | nil => simp
  | cons first rest =>
  cases reqList with
  | none => simp
  | some reqList =>
  cases respDma with
  | nil => simp
  | cons first rest =>
  cases respList <;> simp

theorem allocOneBounce_ok (d : SlotDma) (env : SlotEnv) :
    (d.allocOneBounce env).ok = true ↔
      env.bounce.isSome = true ∧ env.bounceDma.Complete := by
  obtain ⟨_, _, _, _, bounce, ⟨dma, list⟩, _⟩ := env
  rw [mapEnv_complete]
  unfold allocOneBounce
  cases bounce with
  | none => simp
  | some bounce =>
  cases dma with
  | nil => simp
  | cons first rest =>
  cases list <;> simp

/-- The turn of a slot succeeds exactly if none of its calls fails. -/
theorem setUp_ok (d : SlotDma) (env : SlotEnv) :
    (d.setUp env).ok = true ↔ env.Complete := by
  have hslot := allocOneSlot_ok d env
  have hbounce := allocOneBounce_ok (d.allocOneSlot env).state env
  unfold setUp
  dsimp only
  by_cases hslotOk : (d.allocOneSlot env).ok = true
  case neg =>
    rw [Bool.not_eq_true] at hslotOk
    rw [if_pos hslotOk, hslotOk]
    refine iff_of_false Bool.false_ne_true fun h => ?_
    rw [hslot.mpr ⟨h.req, h.resp, h.reqDma, h.respDma⟩] at hslotOk
    cases hslotOk
  rw [if_neg (by rw [hslotOk]; decide)]
  by_cases hbounceOk : ((d.allocOneSlot env).state.allocOneBounce env).ok = true
  case neg =>
    rw [Bool.not_eq_true] at hbounceOk
    rw [if_pos hbounceOk]
    refine iff_of_false Bool.false_ne_true fun h => ?_
    rw [hbounce.mpr ⟨h.bounce, h.bounceDma⟩] at hbounceOk
    cases hbounceOk
  rw [if_neg (by rw [hbounceOk]; decide)]
  cases hpool : env.pool with
  | none =>
      refine iff_of_false Bool.false_ne_true fun h => ?_
      have hpooled := h.pool
      rw [hpool] at hpooled
      cases hpooled
  | some pool =>
      obtain ⟨hreq, hresp, hreqDma, hrespDma⟩ := hslot.mp hslotOk
      obtain ⟨hbuf, hdma⟩ := hbounce.mp hbounceOk
      exact iff_of_true rfl
        ⟨hreq, hresp, hreqDma, hrespDma, hbuf, hdma, by rw [hpool]; rfl⟩

end SlotDma

namespace UnitDma

variable {u : UnitDma} {n s : ℕ}

@[simp] theorem setSlot_slots (u : UnitDma) (s : ℕ) (d : SlotDma) :
    (u.setSlot s d).slots = Function.update u.slots s d := rfl

def heldBelow (u : UnitDma) (n : ℕ) : Multiset DoioResource :=
  ∑ k ∈ Finset.range n, (u.slots k).resources

theorem heldBelow_succ (u : UnitDma) (n : ℕ) :
    u.heldBelow (n + 1) = u.heldBelow n + (u.slots n).resources :=
  Finset.sum_range_succ _ n

theorem heldBelow_congr {v : UnitDma} (h : ∀ k < n, u.slots k = v.slots k) :
    u.heldBelow n = v.heldBelow n := by
  apply Finset.sum_congr rfl
  intro k hk
  rw [h k (Finset.mem_range.mp hk)]

/-! ### Clean-up -/

theorem freeSlots_other (u : UnitDma) {k : ℕ} (hk : n ≤ k) :
    (u.freeSlots n).1.slots k = u.slots k := by
  induction n with
  | zero => rfl
  | succ n ih =>
      rw [freeSlots, setSlot_slots, Function.update_of_ne (by omega)]
      exact ih (by omega)

theorem freeSlots_below (u : UnitDma) {k : ℕ} (hk : k < n) :
    (u.freeSlots n).1.slots k = (u.slots k).tearDown.1 := by
  induction n with
  | zero => exact absurd hk (Nat.not_lt_zero k)
  | succ n ih =>
      rw [freeSlots, setSlot_slots]
      by_cases hlast : k = n
      · subst hlast
        rw [Function.update_self, freeSlots_other u le_rfl]
      · rw [Function.update_of_ne hlast]
        exact ih (by omega)

@[simp] theorem freeSlots_slot0 (u : UnitDma) (n : ℕ) :
    (u.freeSlots n).1.slot0 = u.slot0 := by
  induction n with
  | zero => rfl
  | succ n ih => exact ih

theorem freeSlots_balance (u : UnitDma) (n : ℕ) (base : Multiset DoioResource) :
    balance (u.heldBelow n + base) (u.freeSlots n).2 = some base := by
  induction n generalizing base with
  | zero =>
      rw [freeSlots, balance_nil, heldBelow, Finset.range_zero, Finset.sum_empty, zero_add]
  | succ n ih =>
      have hlast := (u.slots n).tearDown_balance base
      rw [freeSlots, heldBelow_succ, add_assoc]
      dsimp only
      rw [freeSlots_other u le_rfl]
      exact balance_trans (ih _) hlast

theorem freeSlots_blank (h : ∀ k, (u.slots k).Blank) (n : ℕ) :
    u.freeSlots n = (u, []) := by
  induction n with
  | zero => rfl
  | succ n ih =>
      obtain ⟨phys, hblank⟩ := h n
      rw [freeSlots, ih]
      dsimp only
      rw [hblank, SlotDma.tearDown_blank, ← hblank, setSlot, Function.update_eq_self]
      rfl

/-! ### Set-up -/

structure Filled (n : ℕ) (u : UnitDma) : Prop where
  live : ∀ k < n, (u.slots k).Live
  blank : ∀ k, n ≤ k → (u.slots k).Blank

theorem Filled.freeSlots (h : u.Filled n) (k : ℕ) : ((u.freeSlots n).1.slots k).Blank := by
  by_cases hk : k < n
  · rw [freeSlots_below u hk]
    exact (h.live k hk).tearDown
  · rw [freeSlots_other u (Nat.le_of_not_lt hk)]
    exact h.blank k (Nat.le_of_not_lt hk)

theorem Filled.succ (h : u.Filled n) {d : SlotDma} (hd : d.Live) :
    (u.setSlot n d).Filled (n + 1) where
  live := by
    intro k hk
    rw [setSlot_slots]
    by_cases hlast : k = n
    · rw [hlast, Function.update_self]
      exact hd
    · rw [Function.update_of_ne hlast]
      exact h.live k (by omega)
  blank := by
    intro k hk
    rw [setSlot_slots, Function.update_of_ne (by omega)]
    exact h.blank k (by omega)

/-- The turns before `s` filled their slots; the induction is on the turns
left. -/
theorem preallocateFrom_exact (env : ℕ → SlotEnv) (left : ℕ) (h : u.Filled s) :
    SlotDma.AllOrNothing (u.heldBelow s)
      (fun v => (∀ k, (v.slots k).Blank) ∧ v.slot0 = u.slot0)
      (fun v => v.Filled (s + left) ∧ v.slot0 = u.slot0)
      (fun v => v.heldBelow (s + left)) (preallocateFrom env left s u) := by
  induction left generalizing s u with
  | zero =>
      rw [preallocateFrom]
      exact .done ⟨h, rfl⟩ (balance_nil _)
  | succ left ih =>
      obtain ⟨phys, hblank⟩ := h.blank s le_rfl
      have hturn := SlotDma.setUp_blank phys (env s)
      rw [preallocateFrom, hblank]
      dsimp only
      generalize (SlotDma.blank phys).setUp (env s) = turn at hturn ⊢
      have hbelow : ∀ d, (u.setSlot s d).heldBelow s = u.heldBelow s := by
        intro d
        apply heldBelow_congr
        intro k hk
        rw [setSlot_slots, Function.update_of_ne (Nat.ne_of_lt hk)]
      cases hturn with
      | @failed d ops hnothing hreleased =>
          have hframe := balance_frame hreleased (u.heldBelow s)
          have hfree := (u.setSlot s d).freeSlots_balance s 0
          have hfilled : (u.setSlot s d).Filled s := by
            constructor
            · intro k hk
              rw [setSlot_slots, Function.update_of_ne (Nat.ne_of_lt hk)]
              exact h.live k hk
            · intro k hk
              rw [setSlot_slots]
              by_cases hself : k = s
              · rw [hself, Function.update_self]
                exact hnothing
              · rw [Function.update_of_ne hself]
                exact h.blank k hk
          rw [hbelow, add_zero] at hfree
          rw [zero_add] at hframe
          refine .failed ⟨hfilled.freeSlots, ?_⟩ (balance_trans hframe hfree)
          rw [freeSlots_slot0]
          rfl
      | @done d ops hlive hheld =>
          have hrest := ih (h.succ hlive)
          have hframe := balance_frame hheld (u.heldBelow s)
          have hsum : (u.setSlot s d).heldBelow (s + 1) = d.resources + u.heldBelow s := by
            rw [heldBelow_succ, hbelow, setSlot_slots, Function.update_self, add_comm]
          rw [zero_add, ← hsum] at hframe
          dsimp only
          rw [if_pos rfl]
          rw [Nat.add_right_comm] at hrest
          generalize preallocateFrom env left (s + 1) (u.setSlot s d) = rest at hrest ⊢
          cases hrest with
          | failed hnothing hreleased =>
              exact .failed hnothing (balance_trans hframe hreleased)
          | done hall hrestHeld =>
              exact .done hall (balance_trans hframe hrestHeld)

/-! ### Success -/

/-- The loop succeeds exactly if no call fails in the slots that are left. -/
theorem preallocateFrom_ok (env : ℕ → SlotEnv) (left s : ℕ) (u : UnitDma) :
    (preallocateFrom env left s u).ok = true ↔
      ∀ k, s ≤ k → k < s + left → (env k).Complete := by
  induction left generalizing s u with
  | zero =>
      rw [preallocateFrom]
      exact iff_of_true rfl fun k hle hlt => absurd hle (Nat.not_le_of_lt hlt)
  | succ left ih =>
      have hturn := SlotDma.setUp_ok (u.slots s) (env s)
      rw [preallocateFrom]
      dsimp only
      cases hok : ((u.slots s).setUp (env s)).ok with
      | false =>
          rw [if_neg Bool.false_ne_true]
          apply iff_of_false Bool.false_ne_true
          intro hall
          rw [hturn.mpr (hall s le_rfl (by omega))] at hok
          cases hok
      | true =>
          rw [if_pos rfl, ih]
          constructor
          · intro hrest k hle hlt
            rcases Nat.eq_or_lt_of_le hle with heq | hlater
            · rw [← heq]
              exact hturn.mp hok
            · exact hrest k hlater (by omega)
          · intro hall k hle hlt
            exact hall k (by omega) (by omega)

theorem preallocateUnitDma_ok (u : UnitDma) (env : ℕ → SlotEnv) :
    (u.preallocateUnitDma env).ok = true ↔ ∀ s < maxInflight, (env s).Complete := by
  have hloop := preallocateFrom_ok env maxInflight 0 u.initFreeList
  have hok : (u.preallocateUnitDma env).ok =
      (preallocateFrom env maxInflight 0 u.initFreeList).ok := by
    unfold preallocateUnitDma
    dsimp only
    split_ifs <;> rfl
  rw [hok, hloop, Nat.zero_add]
  exact forall_congr' fun s => ⟨fun h => h (Nat.zero_le s), fun h _ => h⟩

/-! ## Starts and shutdowns -/

structure Cleared (u : UnitDma) : Prop where
  slots : ∀ s, (u.slots s).Blank
  slot0 : u.slot0 = .none

def fresh : UnitDma := ⟨fun _ => .blank 0, .none, 0, fun _ => 0⟩

/-- `UnitTask_Start` and the `UnitTask_Shutdown` that follows, at once if the
buffers could not be allocated, else at the last `Close`. -/
def cycle (u : UnitDma) (env : ℕ → SlotEnv) : UnitDma :=
  (u.preallocateUnitDma env).state.freeUnitDma.1

/-- The set-up succeeds in full, exactly if no call of Exec fails, or leaves
nothing, and the tear-down releases what is left, once. -/
structure SetUpExact (u : UnitDma) (env : ℕ → SlotEnv) : Prop where
  succeeds : (u.preallocateUnitDma env).ok = true ↔ ∀ s < maxInflight, (env s).Complete
  success : (u.preallocateUnitDma env).ok = true →
    (∀ s < maxInflight, ((u.preallocateUnitDma env).state.slots s).Live) ∧
      (u.preallocateUnitDma env).state.slot0 =
        ((u.preallocateUnitDma env).state.slots 0).aliases ∧
      balance 0 (u.preallocateUnitDma env).ops =
        some ((u.preallocateUnitDma env).state.heldBelow maxInflight)
  failure : (u.preallocateUnitDma env).ok = false →
    (u.preallocateUnitDma env).state.Cleared ∧
      AllReleased (u.preallocateUnitDma env).ops ∧
      (u.preallocateUnitDma env).state.freeUnitDma.2 = []
  tornDown : (u.cycle env).Cleared ∧ AllReleased ((u.preallocateUnitDma env).ops ++
    (u.preallocateUnitDma env).state.freeUnitDma.2)
  again : (u.cycle env).freeUnitDma = (u.cycle env, [])

theorem freeUnitDma_blank (h : ∀ k, (u.slots k).Blank) :
    u.freeUnitDma = ({ u with slot0 := .none, freeHead := -1 }, []) := by
  rw [freeUnitDma, freeSlots_blank h]

theorem freeUnitDma_filled (h : u.Filled maxInflight) :
    u.freeUnitDma.1.Cleared ∧
      balance (u.heldBelow maxInflight) u.freeUnitDma.2 = some 0 := by
  have hfree := u.freeSlots_balance maxInflight 0
  rw [add_zero] at hfree
  exact ⟨⟨h.freeSlots, rfl⟩, hfree⟩

theorem setUpExact_cleared (h : u.Cleared) (env : ℕ → SlotEnv) : u.SetUpExact env := by
  have hfilled : u.initFreeList.Filled 0 := by
    constructor
    · intro k hk
      exact absurd hk (Nat.not_lt_zero k)
    · intro k _
      exact h.slots k
  -- A second tear-down finds the slots, the aliases and `free_head` reset.
  have hagain : ∀ v : UnitDma, v.freeUnitDma.1.Cleared →
      v.freeUnitDma.1.freeUnitDma = (v.freeUnitDma.1, []) := by
    intro v hcleared
    rw [freeUnitDma_blank hcleared.slots]
    rfl
  have hexact := preallocateFrom_exact env maxInflight hfilled
  rw [heldBelow, Finset.range_zero, Finset.sum_empty] at hexact
  generalize hloop : preallocateFrom env maxInflight 0 u.initFreeList = run at hexact
  cases hexact with
  | @failed state ops hnothing hreleased =>
      obtain ⟨hblank, hkept⟩ := hnothing
      have hfree := freeUnitDma_blank hblank
      have hcleared : state.freeUnitDma.1.Cleared := by
        rw [hfree]
        exact ⟨hblank, rfl⟩
      have hrun : u.preallocateUnitDma env = ⟨false, state, ops⟩ := by
        rw [preallocateUnitDma, hloop]
        rfl
      constructor
      · exact preallocateUnitDma_ok u env
      · rw [hrun]
        intro hok
        cases hok
      · rw [hrun, hfree]
        intro _
        exact ⟨⟨hblank, hkept.trans h.slot0⟩, hreleased, rfl⟩
      · rw [cycle, hrun]
        refine ⟨hcleared, ?_⟩
        rw [hfree, List.append_nil]
        exact hreleased
      · rw [cycle, hrun]
        exact hagain state hcleared
  | @done state ops hall hheld =>
      obtain ⟨hlive, -⟩ := hall
      have hrun : u.preallocateUnitDma env =
          ⟨true, { state with slot0 := (state.slots 0).aliases }, ops⟩ := by
        rw [preallocateUnitDma, hloop]
        rfl
      have haliased : Filled maxInflight { state with slot0 := (state.slots 0).aliases } :=
        ⟨(Nat.zero_add maxInflight ▸ hlive).live, (Nat.zero_add maxInflight ▸ hlive).blank⟩
      obtain ⟨hcleared, hfree⟩ := freeUnitDma_filled haliased
      rw [Nat.zero_add] at hheld
      constructor
      · exact preallocateUnitDma_ok u env
      · rw [hrun]
        intro _
        exact ⟨haliased.live, rfl, hheld⟩
      · rw [hrun]
        intro hfailed
        cases hfailed
      · rw [cycle, hrun]
        exact ⟨hcleared, balance_trans hheld hfree⟩
      · rw [cycle, hrun]
        exact hagain _ hcleared

/-- However often a unit was started before, and whatever failed then and
fails now. -/
theorem setUpExact (past : List (ℕ → SlotEnv)) (env : ℕ → SlotEnv) :
    (past.foldl cycle fresh).SetUpExact env := by
  have hcleared : ∀ u : UnitDma, u.Cleared → (past.foldl cycle u).Cleared := by
    induction past with
    | nil => exact fun _ h => h
    | cons env past ih =>
        intro u h
        exact ih _ (setUpExact_cleared h env).tornDown.1
  exact setUpExact_cleared (hcleared fresh ⟨fun _ => ⟨0, rfl⟩, rfl⟩) env

section Sample

/-- A slot for which Exec has everything. -/
def sampleSlot (s : ℕ) : SlotEnv where
  req := some (0x10000 + 0x1000 * s)
  resp := some (0x10100 + 0x1000 * s)
  reqDma := ⟨[⟨BitVec.ofNat 32 (0x50000 + 0x1000 * s), 51⟩], some (0x10200 + 0x1000 * s)⟩
  respDma := ⟨[⟨BitVec.ofNat 32 (0x50100 + 0x1000 * s), 108⟩], some (0x10300 + 0x1000 * s)⟩
  bounce := some (0x100000 + 0x10000 * s)
  bounceDma := ⟨[⟨BitVec.ofNat 32 (0x200000 + 0x10000 * s), 65536⟩], some 0x9000⟩
  pool := some (0x10400 + 0x1000 * s)

/-- Without a failure every slot is set up. -/
theorem setUpExact_sampleSlot :
    (fresh.preallocateUnitDma sampleSlot).ok = true ∧
      ∀ s < maxInflight, ((fresh.preallocateUnitDma sampleSlot).state.slots s).Live := by
  have hexact := setUpExact [] sampleSlot
  have hok : (fresh.preallocateUnitDma sampleSlot).ok = true :=
    hexact.succeeds.mpr fun _ _ =>
      ⟨rfl, rfl, ⟨List.cons_ne_nil _ _, rfl⟩, ⟨List.cons_ne_nil _ _, rfl⟩, rfl,
        ⟨List.cons_ne_nil _ _, rfl⟩, rfl⟩
  exact ⟨hok, (hexact.success hok).1⟩

end Sample

end UnitDma

end VirtioScsi
