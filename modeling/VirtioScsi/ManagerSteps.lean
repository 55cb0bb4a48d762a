import VirtioScsi.ManagerLife

/-!
# What the operations of the manager do

The operations of `_manager_Init` and `_manager_Expunge` run on what is held, with
the queues the device knows.  Every register access needs the device, and one by
port BAR0.  From what one function takes and gives back follows what the next one
finds.
-/

namespace VirtioScsi

open ResourceNeeds VirtioTransport

/-- What is held; the queues whose rings are lent and the one that is selected. -/
structure Holdings where
  held : Multiset Resource
  lent : List ℕ
  queueSel : ℕ

namespace Holdings

variable {base : TransportBase} {s s' s'' : Holdings} {op : ManagerOp}
  {ops ops' : List ManagerOp} {acts : List (Action Resource)} {held : Multiset Resource}

def nothing : Holdings := ⟨0, [], 0⟩

/-- An address that a device learns lends it the ring, a reset takes all back. -/
def accessActions (s : Holdings) : Access → List (Action Resource)
  | .enable _ | .setPage _ => [.acquire (.lent s.queueSel)]
  | .setStatus v => if v = 0 then s.lent.map fun q => .release (.lent q) else []
  | _ => []

def access (s : Holdings) (held : Multiset Resource) : Access → Holdings
  | .selectQueue q => { s with held := held, queueSel := q.toNat }
  | .enable _ | .setPage _ => { s with held := held, lent := s.queueSel :: s.lent }
  | .setStatus v => { s with held := held, lent := if v = 0 then [] else s.lent }
  | _ => { s with held := held }

def stepAccess (base : TransportBase) (s : Holdings) (x : Access) : Option Holdings :=
  (ResourceNeeds.run (Resource.needs base) s.held (s.accessActions x)).map
    fun held => s.access held x

def Reaches (s : Holdings) (a : RegAccess) : Prop :=
  .pciDevice ∈ s.held ∧ (a.port?.isSome → .bar 0 ∈ s.held)

instance (s : Holdings) (a : RegAccess) : Decidable (s.Reaches a) :=
  inferInstanceAs (Decidable (_ ∧ _))

def step (base : TransportBase) (s : Holdings) : ManagerOp → Option Holdings
  | .exec a =>
      (ResourceNeeds.step (Resource.needs base) s.held a).map fun held => { s with held := held }
  | .writeConfigLong _ _ => if .pciDevice ∈ s.held then some s else none
  | .reg a => if s.Reaches a then s.stepAccess base (decode base a) else none

abbrev run (base : TransportBase) : Holdings → List ManagerOp → Option Holdings :=
  GuardedRun.run (step base)

/-! ## Support -/

def Supported (base : TransportBase) (s : Holdings) : Prop :=
  ResourceNeeds.Supported (Resource.needs base) s.held

@[simp] theorem access_held (s : Holdings) (held : Multiset Resource) (x : Access) :
    (s.access held x).held = held := by
  cases x <;> rfl

theorem Supported.step (hs : s.Supported base) (hstep : step base s op = some s') :
    s'.Supported base := by
  cases op with
  | exec a =>
      obtain ⟨held, hheld, rfl⟩ := Option.map_eq_some_iff.mp hstep
      exact ResourceNeeds.Supported.step hs hheld
  | writeConfigLong reg value =>
      rw [Holdings.step, Option.ite_none_right_eq_some] at hstep
      rwa [← Option.some.inj hstep.2]
  | reg a =>
      rw [Holdings.step, Option.ite_none_right_eq_some] at hstep
      obtain ⟨held, hheld, rfl⟩ := Option.map_eq_some_iff.mp hstep.2
      have hsupported := ResourceNeeds.Supported.run hs hheld
      rwa [Supported, access_held]

/-- At every moment of a run nothing has outlived what it needs. -/
theorem Supported.run (hs : s.Supported base) (hrun : run base s ops = some s') :
    s'.Supported base := by
  apply GuardedRun.invariant_of_step (P := Supported base) _ hs hrun
  intro s op s' hs hstep
  exact hs.step hstep

/-! ## Operations of Exec -/

theorem run_exec (hrun : ResourceNeeds.run (Resource.needs base) s.held acts = some held) :
    run base s (acts.map .exec) = some { s with held := held } := by
  induction acts generalizing s with
  | nil =>
      rw [ResourceNeeds.run_nil, Option.some.injEq] at hrun
      rw [← hrun]
      rfl
  | cons a acts ih =>
      rw [ResourceNeeds.run_cons] at hrun
      obtain ⟨held₁, hstep, hrest⟩ := Option.bind_eq_some_iff.mp hrun
      have hfirst : step base s (.exec a) = some { s with held := held₁ } := by
        rw [step, hstep, Option.map_some]
      rw [List.map_cons, run, GuardedRun.run_cons, hfirst, Option.bind_some]
      exact ih hrest

theorem run_exec_one {a : Action Resource}
    (hrun : ResourceNeeds.run (Resource.needs base) s.held [a] = some held) :
    run base s [.exec a] = some { s with held := held } :=
  @run_exec base s [a] held hrun

/-- The device can be reached, and by its ports if it has BAR0. -/
structure Attached (base : TransportBase) (held : Multiset Resource) : Prop where
  device : .pciDevice ∈ held
  port : base.bar0.isSome → .bar 0 ∈ held

theorem Attached.mono {held' : Multiset Resource} (hheld : Attached base held)
    (hle : held ≤ held') : Attached base held' :=
  ⟨Multiset.mem_of_le hle hheld.device, fun h => Multiset.mem_of_le hle (hheld.port h)⟩

/-- Only a device with BAR0 is accessed by port. -/
def PortsFit (base : TransportBase) (trace : List RegAccess) : Prop :=
  ∀ a ∈ trace, a.port?.isSome → base.bar0.isSome

/-- Registers nothing and selects nothing; a reset takes nothing back. -/
def Quiet (lent : List ℕ) : Access → Prop
  | .enable _ | .setPage _ | .selectQueue _ => False
  | .setStatus v => v = 0 → lent = []
  | _ => True

theorem run_reg {a : RegAccess} {trace : List RegAccess} (hs : Attached base s.held)
    (ha : a.port?.isSome → base.bar0.isSome)
    (hstep : s.stepAccess base (decode base a) = some s') :
    run base s ((a :: trace).map .reg) = run base s' (trace.map .reg) := by
  have hreaches : s.Reaches a := ⟨hs.device, fun h => hs.port (ha h)⟩
  rw [List.map_cons, run, GuardedRun.run_cons, step, if_pos hreaches, hstep, Option.bind_some]

theorem Quiet.step {x : Access} (hx : Quiet s.lent x) : s.stepAccess base x = some s := by
  cases x with
  | enable v => exact hx.elim
  | setPage v => exact hx.elim
  | selectQueue q => exact hx.elim
  | setStatus v =>
      have hnone : s.accessActions (.setStatus v) = [] := by
        by_cases hv : v = 0
        · rw [accessActions, if_pos hv, hx hv, List.map_nil]
        · rw [accessActions, if_neg hv]
      have hlent : (if v = 0 then [] else s.lent) = s.lent := by
        by_cases hv : v = 0
        · rw [if_pos hv, hx hv]
        · rw [if_neg hv]
      rw [stepAccess, hnone, ResourceNeeds.run_nil, Option.map_some, access, hlent]
  | config | status | isr | selectOffered | offered | selectAccepted | accept | queueSize
  | setLow | setHigh | notifyOff | unknown => rfl

theorem run_quiet {trace : List RegAccess} (hs : Attached base s.held)
    (hports : PortsFit base trace) (htrace : ∀ x ∈ trace.map (decode base), Quiet s.lent x) :
    run base s (trace.map .reg) = some s := by
  induction trace with
  | nil => rfl
  | cons a trace ih =>
      rw [List.map_cons, List.forall_mem_cons] at htrace
      rw [PortsFit, List.forall_mem_cons] at hports
      rw [run_reg hs hports.1 htrace.1.step]
      exact ih hports.2 htrace.2

theorem stacked_lent {lent : List ℕ} (hdevice : .pciDevice ∈ held)
    (hlent : ∀ q ∈ lent, .ringDma q ∈ held) :
    Stacked (Resource.needs base) held (lent.map Resource.lent) := by
  induction lent with
  | nil => trivial
  | cons q lent ih =>
      rw [List.forall_mem_cons] at hlent
      refine ⟨?_, ih hlent.2⟩
      simp [Resource.needs, hlent.1, hdevice]

/-- A reset takes back every ring. -/
theorem run_reset {a : RegAccess} (hs : Attached base held)
    (hheld : ResourceNeeds.Supported (Resource.needs base) held)
    (hlent : ∀ q ∈ s.lent, .ringDma q ∈ held)
    (hdecode : decode base a = .setStatus 0) (ha : a.port?.isSome → base.bar0.isSome)
    (hsheld : s.held = (s.lent.map Resource.lent : List Resource) + held) :
    run base s [.reg a] = some { s with held := held, lent := [] } := by
  have hrun := run_releases hheld (stacked_lent hs.device hlent)
  rw [← hsheld, List.map_map] at hrun
  have hstep : s.stepAccess base (.setStatus 0) = some { s with held := held, lent := [] } := by
    rw [stepAccess, accessActions, if_pos rfl]
    exact congrArg _ hrun
  have hattached : Attached base s.held := by
    rw [hsheld]
    exact hs.mono (Multiset.le_add_left _ _)
  rw [← hdecode] at hstep
  exact @run_reg base s _ a [] hattached ha hstep

/-! ## The memory of a queue -/

/-- What `VirtQueue_Allocate` leaves, in the order in which `VirtQueue_Free`
releases it. -/
def memoryList (q : ℕ) : List Resource :=
  [.indirectTables q, .cookies q, .ring q, .virtqueue q]

def queueList (q : ℕ) : List Resource := .ringDma q :: memoryList q

theorem stacked_queueList (q : ℕ) (held : Multiset Resource) :
    Stacked (Resource.needs base) held (queueList q) := by
  simp [queueList, memoryList, Stacked, Resource.needs]

theorem virtQueueFree_eq {q dmaEntries : ℕ} (hmapped : 0 < dmaEntries) :
    virtQueueFree q dmaEntries = (queueList q).map .release := by
  rw [virtQueueFree, if_pos hmapped]
  rfl

/-- A queue without a mapping. -/
theorem run_virtQueueFree {q : ℕ} (hheld : ResourceNeeds.Supported (Resource.needs base) held) :
    ResourceNeeds.run (Resource.needs base)
        ((memoryList q : Multiset Resource) + held) (virtQueueFree q 0) = some held := by
  rw [virtQueueFree, if_neg (Nat.lt_irrefl 0)]
  exact run_releases hheld (stacked_queueList q held).2

theorem run_allocated {q : ℕ} {env : VringEnv} {size : BitVec 32} {p : VringPlacement}
    (halloc : virtQueueAllocate size env = some p) :
    ResourceNeeds.run (Resource.needs base) held (virtQueueAllocateOps q env) =
      some ((memoryList q : Multiset Resource) + held) := by
  unfold virtQueueAllocate at halloc
  split at halloc
  · next hraw hvq hcookies htables =>
    unfold virtQueueAllocateOps
    rw [hraw, hvq, hcookies, htables]
    have hacquired : ResourceNeeds.run (Resource.needs base) held
        [.acquire (.ring q), .acquire (.virtqueue q), .acquire (.cookies q),
          .acquire (.indirectTables q)] =
        some (([.indirectTables q, .cookies q, .virtqueue q, .ring q] : List Resource) + held) :=
      @run_acquires Resource _ (Resource.needs base) held
        [.indirectTables q, .cookies q, .virtqueue q, .ring q] (by simp [Stacked, Resource.needs])
    have hswap : (([.indirectTables q, .cookies q, .virtqueue q, .ring q] : List Resource) :
        Multiset Resource) = memoryList q := by
      rw [Multiset.coe_eq_coe, memoryList, List.perm_cons, List.perm_cons]
      exact List.Perm.swap _ _ []
    rw [hswap] at hacquired
    exact hacquired
  · cases halloc

theorem run_notAllocated {q : ℕ} {env : VringEnv} {size : BitVec 32}
    (hheld : ResourceNeeds.Supported (Resource.needs base) held)
    (halloc : virtQueueAllocate size env = none) :
    ResourceNeeds.run (Resource.needs base) held (virtQueueAllocateOps q env) = some held := by
  have hvq : ResourceNeeds.Supported (Resource.needs base) (.virtqueue q ::ₘ held) :=
    hheld.cons (by simp [Resource.needs])
  -- The ring is given back before the structure that was allocated after it.
  have hfree : ResourceNeeds.run (Resource.needs base) (.virtqueue q ::ₘ .ring q ::ₘ held)
      [.release (.ring q), .release (.virtqueue q)] = some held := by
    rw [Multiset.cons_swap, run_release hvq, run_release hheld, ResourceNeeds.run_nil]
  unfold virtQueueAllocateOps
  cases hraw : env.raw with
  | none => rfl
  | some raw =>
  cases hvq : env.vq with
  | none => exact run_bracket hheld (by simp [Resource.needs])
  | some vq =>
  cases hcookies : env.cookies with
  | none =>
      dsimp only
      rw [run_acquire (by simp [Resource.needs]), run_acquire (by simp [Resource.needs])]
      exact hfree
  | some cookies =>
  cases htables : env.indirectTables with
  | none =>
      dsimp only
      rw [run_acquire (by simp [Resource.needs]), run_acquire (by simp [Resource.needs]),
        run_bracket ((hheld.cons (by simp [Resource.needs])).cons (by simp [Resource.needs]))
          (by simp [Resource.needs])]
      exact hfree
  | some tables =>
      unfold virtQueueAllocate at halloc
      rw [hraw, hvq, hcookies, htables] at halloc
      cases halloc

/-- A queue that is mapped has entries. -/
theorem run_mapVring {q : ℕ} {env : MapEnv}
    (hheld : ResourceNeeds.Supported (Resource.needs base) held) :
    ResourceNeeds.run (Resource.needs base) ((memoryList q : Multiset Resource) + held)
        (mapVringOps q env) =
      some (match mapVring env with
        | none => held
        | some _ => ((queueList q : Multiset Resource) + held)) := by
  have hstack := @stacked_queueList base q held
  have htail := hheld.stack hstack.2
  unfold mapVringOps mapVring
  cases env.dma with
  | nil => exact run_virtQueueFree hheld
  | cons first rest =>
  cases env.list with
  | none =>
      dsimp only
      rw [run_bracket htail hstack.1]
      exact run_virtQueueFree hheld
  | some list =>
      dsimp only
      rw [run_acquire hstack.1, run_bracket (htail.cons hstack.1) (by simp [Resource.needs]),
        ResourceNeeds.run_nil, queueList, ← Multiset.cons_coe, Multiset.cons_add]

theorem run_queueMemory {q : ℕ} {env : QueueEnv}
    (hheld : ResourceNeeds.Supported (Resource.needs base) held) :
    ResourceNeeds.run (Resource.needs base) held (queueMemoryOps q env) =
      some (if env.qMax ≠ 0 ∧ (virtQueueAllocate (env.qMax.setWidth 32) env.vring).isSome ∧
          (mapVring env.dma).isSome then (queueList q : Multiset Resource) + held
        else held) := by
  unfold queueMemoryOps
  by_cases hmax : env.qMax = 0
  · rw [if_pos hmax, if_neg fun h => h.1 hmax]
    rfl
  rw [if_neg hmax]
  cases halloc : virtQueueAllocate (env.qMax.setWidth 32) env.vring with
  | none =>
      rw [if_neg fun h => Bool.false_ne_true h.2.1]
      exact run_notAllocated hheld halloc
  | some p =>
      dsimp only
      rw [ResourceNeeds.run_trans (run_allocated halloc) (run_mapVring hheld)]
      cases mapVring env.dma with
      | none => rw [if_neg fun h => Bool.false_ne_true h.2.2]
      | some m => rw [if_pos ⟨hmax, rfl, rfl⟩]

/-! ## A queue -/

/-- The registers that a turn reaches: a queue is selected first, and only a
queue with memory is registered, by one access. -/
structure TurnFits (base : TransportBase) (q : ℕ) (env : QueueEnv) (t : QueueTurn) : Prop where
  ports : PortsFit base t.trace
  select : (t.trace.take 2).map (decode base) =
    [.selectQueue (BitVec.ofNat 16 q), .queueSize env.qMax]
  missed : (∀ vq, t.outcome ≠ .configured vq) → t.trace.drop 2 = [] ∧
    ¬ (env.qMax ≠ 0 ∧ (virtQueueAllocate (env.qMax.setWidth 32) env.vring).isSome ∧
      (mapVring env.dma).isSome)
  configured : ∀ vq, t.outcome = .configured vq → 0 < vq.dmaEntries ∧
    (env.qMax ≠ 0 ∧ (virtQueueAllocate (env.qMax.setWidth 32) env.vring).isSome ∧
      (mapVring env.dma).isSome) ∧
    ∃ before x after, (t.trace.drop 2).map (decode base) = before ++ x :: after ∧
      (∀ y ∈ before ++ after, ∀ lent, Quiet lent y) ∧ (x = .enable 1 ∨ ∃ v, x = .setPage v)

theorem run_select {trace : List RegAccess} {q : ℕ} {qMax : BitVec 16} (hq : q < 65536)
    (hs : Attached base s.held) (hports : PortsFit base trace)
    (hselect : trace.map (decode base) = [.selectQueue (BitVec.ofNat 16 q), .queueSize qMax]) :
    run base s (trace.map .reg) = some { s with queueSel := q } := by
  have htoNat : (BitVec.ofNat 16 q).toNat = q := by
    rw [BitVec.toNat_ofNat, Nat.mod_eq_of_lt hq]
  match trace with
  | [] => cases hselect
  | a :: trace =>
  rw [List.map_cons, List.cons.injEq] at hselect
  rw [PortsFit, List.forall_mem_cons] at hports
  have hstep : s.stepAccess base (decode base a) = some { s with queueSel := q } := by
    rw [hselect.1]
    have haccess : s.access s.held (.selectQueue (BitVec.ofNat 16 q)) =
        { s with queueSel := q } := by
      rw [access, htoNat]
    exact congrArg some haccess
  rw [run_reg hs hports.1 hstep]
  apply run_quiet (s := { s with queueSel := q }) hs hports.2
  rw [hselect.2]
  intro x hx
  rw [List.mem_singleton] at hx
  rw [hx]
  trivial

theorem run_register {trace : List RegAccess} {before after : List Access} {x : Access}
    (hs : Attached base s.held) (hports : PortsFit base trace)
    (hdma : .ringDma s.queueSel ∈ s.held)
    (htrace : trace.map (decode base) = before ++ x :: after)
    (hquiet : ∀ y ∈ before ++ after, ∀ lent, Quiet lent y)
    (hx : x = .enable 1 ∨ ∃ v, x = .setPage v) :
    run base s (trace.map .reg) =
      some { s with held := .lent s.queueSel ::ₘ s.held, lent := s.queueSel :: s.lent } := by
  induction trace generalizing before with
  | nil => exact absurd htrace (by simp)
  | cons a trace ih =>
  rw [PortsFit, List.forall_mem_cons] at hports
  cases before with
  | nil =>
      rw [List.nil_append, List.map_cons, List.cons.injEq] at htrace
      have hacquired : ResourceNeeds.run (Resource.needs base) s.held
          [.acquire (.lent s.queueSel)] = some (.lent s.queueSel ::ₘ s.held) :=
        run_acquire (by simp [Resource.needs, hdma, hs.device])
      have hstep : s.stepAccess base (decode base a) =
          some { s with held := .lent s.queueSel ::ₘ s.held, lent := s.queueSel :: s.lent } := by
        rw [htrace.1, stepAccess]
        rcases hx with rfl | ⟨v, rfl⟩
        · rw [accessActions, hacquired]
          rfl
        · rw [accessActions, hacquired]
          rfl
      rw [run_reg hs hports.1 hstep]
      apply run_quiet (hs.mono (Multiset.le_cons_self _ _)) hports.2
      intro y hy
      rw [htrace.2] at hy
      exact hquiet y (List.mem_append_right _ hy) _
  | cons y before =>
      rw [List.cons_append, List.map_cons, List.cons.injEq] at htrace
      rw [List.cons_append, List.forall_mem_cons] at hquiet
      have hstep : s.stepAccess base (decode base a) = some s := by
        rw [htrace.1]
        exact (hquiet.1 s.lent).step
      rw [run_reg hs hports.1 hstep]
      exact ih hports.2 htrace.2 hquiet.2

/-- A queue that is configured is held and lent, any other leaves nothing. -/
theorem TurnFits.run {q : ℕ} {env : QueueEnv} {t : QueueTurn} (ht : TurnFits base q env t)
    (hq : q < 65536) (hs : Attached base s.held) (hsupported : s.Supported base) :
    run base s (queueOps q env t) = some (match t.outcome with
      | .configured _ =>
          { held := .lent q ::ₘ ((queueList q : Multiset Resource) + s.held)
            lent := q :: s.lent
            queueSel := q }
      | _ => { s with queueSel := q }) := by
  have htake : PortsFit base (t.trace.take 2) := fun a ha => ht.ports a (List.mem_of_mem_take ha)
  have hdrop : PortsFit base (t.trace.drop 2) := fun a ha => ht.ports a (List.mem_of_mem_drop ha)
  have hselect := run_select hq hs htake ht.select
  have hmemory := @run_queueMemory base s.held q env hsupported
  unfold queueOps
  have hnone (hmissed : ∀ vq, t.outcome ≠ .configured vq) :
      Holdings.run base s ((t.trace.take 2).map .reg ++
        ((queueMemoryOps q env).map .exec ++ (t.trace.drop 2).map .reg)) =
      some { s with queueSel := q } := by
    obtain ⟨hrest, hfree⟩ := ht.missed hmissed
    rw [if_neg hfree] at hmemory
    apply GuardedRun.run_trans hselect
    rw [hrest, List.map_nil, List.append_nil]
    exact run_exec (s := { s with queueSel := q }) hmemory
  cases houtcome : t.outcome with
  | unavailable => exact hnone fun vq h => by rw [houtcome] at h; cases h
  | failed => exact hnone fun vq h => by rw [houtcome] at h; cases h
  | configured vq =>
      obtain ⟨_, hfull, before, x, after, hregisters, hquiet, hx⟩ := ht.configured vq houtcome
      rw [if_pos hfull] at hmemory
      apply GuardedRun.run_trans hselect
      apply GuardedRun.run_trans (run_exec (s := { s with queueSel := q }) hmemory)
      have hattached := hs.mono (Multiset.le_add_left s.held (queueList q : Multiset Resource))
      have hdma : .ringDma q ∈ (queueList q : Multiset Resource) + s.held :=
        Multiset.mem_add.mpr (Or.inl (by simp [queueList]))
      exact run_register (s := { s with
        held := (queueList q : Multiset Resource) + s.held, queueSel := q })
        hattached hdrop hdma hregisters hquiet hx

end Holdings

end VirtioScsi
