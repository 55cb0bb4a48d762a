import VirtioScsi.ManagerSteps

/-!
# The books of the manager

Every exit of `_manager_Init` that reports a failure has given back all that it
took, and what a success leaves is what `_manager_Expunge` gives back.  The
queues are held from their turn to `CleanupVirtIOSCSI`, which resets the device
first.
-/

namespace VirtioScsi

open ResourceNeeds VirtioTransport Holdings

/-! ## The registers -/

section Registers

variable {turn : ℕ → QueueTurn} {env : ℕ → QueueEnv}

end Registers

/-! ## The turns -/

section Turns

variable {base : TransportBase} {bar0 : PCIResourceRange} {env : InitEnv} {q : ℕ}

theorem portsFit_of_bar0 (hbar0 : base.bar0.isSome) (trace : List RegAccess) :
    PortsFit base trace :=
  fun _ _ _ => hbar0

end Turns

/-! ## The queues -/

section Queues

variable {base : TransportBase} {under : Multiset Resource} {s : Holdings}
  {vqs : ℕ → Option QueueRecord} {turn : ℕ → QueueTurn} {env : ℕ → QueueEnv} {run : InitRun}

def queueHeld (vqs : ℕ → Option QueueRecord) (q : ℕ) : Multiset Resource :=
  if (vqs q).isSome then queueList q else 0

def queuesHeld (vqs : ℕ → Option QueueRecord) : Multiset Resource :=
  queueHeld vqs 0 + (queueHeld vqs 1 + (queueHeld vqs 2 + 0))

theorem queueHeld_update (q : ℕ) (vq : QueueRecord) (hnone : vqs q = none) (q' : ℕ) :
    queueHeld (Function.update vqs q (some vq)) q' =
      (if q' = q then (queueList q : Multiset Resource) else 0) + queueHeld vqs q' := by
  unfold queueHeld
  by_cases hq : q' = q
  · subst hq
    simp [hnone]
  · rw [Function.update_of_ne hq, if_neg hq, zero_add]

theorem queuesHeld_update {q : ℕ} (vq : QueueRecord) (hq : q < 3) (hnone : vqs q = none) :
    queuesHeld (Function.update vqs q (some vq)) = queueList q + queuesHeld vqs := by
  simp only [queuesHeld, queueHeld_update q vq hnone]
  interval_cases q
  · simp [add_assoc]
  · simp [add_assoc, add_left_comm]
  · simp [add_left_comm]

theorem supported_queueHeld (q : ℕ)
    (hunder : ResourceNeeds.Supported (Resource.needs base) under) :
    ResourceNeeds.Supported (Resource.needs base) (queueHeld vqs q + under) := by
  unfold queueHeld
  by_cases hq : (vqs q).isSome
  · rw [if_pos hq]
    exact hunder.stack (stacked_queueList q under)
  · rw [if_neg hq, zero_add]
    exact hunder

/-- The configured queues are held on top of `under`, those the device knows on
top of them. -/
structure Loaded (under : Multiset Resource) (vqs : ℕ → Option QueueRecord) (s : Holdings) :
    Prop where
  held : s.held = (s.lent.map Resource.lent : List Resource) + (queuesHeld vqs + under)
  lent : ∀ q ∈ s.lent, q < 3 ∧ (vqs q).isSome
  mapped : ∀ q vq, vqs q = some vq → 0 < vq.dmaEntries

theorem Loaded.ringDma_mem (hs : Loaded under vqs s) :
    ∀ q ∈ s.lent, .ringDma q ∈ queuesHeld vqs + under := by
  intro q hq
  obtain ⟨hlt, hsome⟩ := hs.lent q hq
  have hmem : .ringDma q ∈ queueHeld vqs q := by
    rw [queueHeld, if_pos hsome]
    simp [queueList]
  unfold queuesHeld
  interval_cases q
  · simp [hmem]
  · simp [hmem]
  · simp [hmem]

theorem supported_queuesHeld (vqs : ℕ → Option QueueRecord)
    (hunder : ResourceNeeds.Supported (Resource.needs base) under) :
    ResourceNeeds.Supported (Resource.needs base) (queuesHeld vqs + under) := by
  rw [queuesHeld, add_zero, add_assoc, add_assoc]
  exact supported_queueHeld 0 (supported_queueHeld 1 (supported_queueHeld 2 hunder))

theorem Loaded.step {q : ℕ} (hs : Loaded under run.vqs s) (hq : q < 3)
    (hnone : run.vqs q = none) (hattached : Attached base under)
    (hsupported : s.Supported base) (ht : TurnFits base q (env q) (turn q)) :
    ∃ s', Holdings.run base s (queueOps q (env q) (turn q)) = some s' ∧
      Loaded under (run.turn q (turn q)).vqs s' := by
  have hattached' : Attached base s.held := by
    rw [hs.held, ← add_assoc]
    exact hattached.mono (Multiset.le_add_left _ _)
  refine ⟨_, ht.run (by omega) hattached' hsupported, ?_⟩
  unfold InitRun.turn
  cases houtcome : (turn q).outcome with
  | unavailable => exact ⟨hs.held, hs.lent, hs.mapped⟩
  | failed => exact ⟨hs.held, hs.lent, hs.mapped⟩
  | configured vq =>
      dsimp only
      constructor
      · rw [hs.held, queuesHeld_update vq hq hnone, List.map_cons, ← Multiset.cons_coe,
          Multiset.cons_add, add_assoc, add_left_comm]
      · intro q' hq'
        rw [List.mem_cons] at hq'
        rcases hq' with rfl | hq'
        · rw [Function.update_self]
          exact ⟨hq, rfl⟩
        · have hlent := hs.lent q' hq'
          refine ⟨hlent.1, ?_⟩
          by_cases heq : q' = q
          · rw [heq, hnone] at hlent
            exact absurd hlent.2 Bool.false_ne_true
          · rw [Function.update_of_ne heq]
            exact hlent.2
      · intro q' vq' hvq'
        by_cases heq : q' = q
        · subst heq
          rw [Function.update_self, Option.some.injEq] at hvq'
          exact hvq' ▸ (ht.configured vq houtcome).1
        · rw [Function.update_of_ne heq] at hvq'
          exact hs.mapped q' vq' hvq'

/-- The induction is on the queues that are left; a failed one ends the loop. -/
theorem Loaded.setUpQueues {qs : List ℕ} (hs : Loaded under run.vqs s) (hnodup : qs.Nodup)
    (hqs : ∀ q ∈ qs, q < 3 ∧ run.vqs q = none) (hattached : Attached base under)
    (hsupported : s.Supported base) (ht : ∀ q, TurnFits base q (env q) (turn q)) :
    ∃ s', Holdings.run base s (setUpQueuesOps turn env qs) = some s' ∧
      Loaded under (VirtioScsi.setUpQueues turn qs run).vqs s' := by
  induction qs generalizing run s with
  | nil => exact ⟨s, rfl, hs⟩
  | cons q qs ih =>
      rw [List.forall_mem_cons] at hqs
      obtain ⟨s₁, hfirst, hs₁⟩ := hs.step hqs.1.1 hqs.1.2 hattached hsupported (ht q)
      unfold setUpQueuesOps VirtioScsi.setUpQueues
      dsimp only
      by_cases hfailed : (turn q).outcome = .failed
      · have hok : (run.turn q (turn q)).ok = false := by simp [InitRun.turn, hfailed]
        rw [if_neg (not_not.mpr hfailed), hok, if_neg Bool.false_ne_true, List.append_nil]
        exact ⟨s₁, hfirst, hs₁⟩
      · have hok : (run.turn q (turn q)).ok = true := by simp [InitRun.turn, hfailed]
        rw [if_pos hfailed, hok, if_pos rfl]
        have hfresh : ∀ q' ∈ qs, q' < 3 ∧ (run.turn q (turn q)).vqs q' = none := by
          intro q' hq'
          have hne : q' ≠ q := fun h => (List.nodup_cons.mp hnodup).1 (h ▸ hq')
          rw [turn_vqs_of_ne hne]
          exact hqs.2 q' hq'
        obtain ⟨s₂, hrest, hs₂⟩ := ih hs₁ (List.nodup_cons.mp hnodup).2 hfresh
          (hsupported.run hfirst)
        exact ⟨s₂, GuardedRun.run_trans hfirst hrest, hs₂⟩

end Queues

/-! ## The sequences -/

section Sequences

variable {base : TransportBase} {bar0 : PCIResourceRange} {under : Multiset Resource} {sel : ℕ}
  {env : InitEnv} {dev : PCIDevice}

end Sequences

/-! ## The clean-up -/

section Cleanup

variable {b : VirtIOSCSIBase} {under : Multiset Resource} {s : Holdings} {dev : PCIDevice}

/-- The reset of `CleanupVirtIOSCSI` reaches a device that was set up: detection
has found a common configuration behind an address, and without the modern mode
only a device with BAR0 is set up. -/
structure Resettable (b : VirtIOSCSIBase) : Prop where
  modern : b.transport.modernMode = true → b.transport.commonCfgBase ≠ 0
  legacy : b.transport.modernMode = false → b.transport.bar0 = none → ∀ q, b.vqs q = none

theorem cleanupReset_ports (pciDev : Option PCIDevice) (base : TransportBase) :
    PortsFit base (cleanupReset pciDev base) := by
  unfold cleanupReset
  cases pciDev with
  | none => exact fun a ha => absurd ha List.not_mem_nil
  | some dev =>
      dsimp only
      split_ifs
      · simp [PortsFit, RegAccess.port?]
      · cases hbar0 : base.bar0 with
        | none => exact fun a ha => absurd ha List.not_mem_nil
        | some bar0 => exact portsFit_of_bar0 (by rw [hbar0]; rfl) _

theorem Loaded.reset (hs : Loaded under b.vqs s) (hb : Resettable b)
    (hdev : b.pciDevice = some dev) (hattached : Attached b.transport under)
    (hunder : ResourceNeeds.Supported (Resource.needs b.transport) under) :
    Holdings.run b.transport s ((cleanupReset b.pciDevice b.transport).map .reg) =
      some { s with held := queuesHeld b.vqs + under, lent := [] } := by
  by_cases hbase : b.transport.modernMode = true ∧ b.transport.commonCfgBase ≠ 0 ∨
      b.transport.modernMode = false ∧ b.transport.bar0.isSome
  · have hports := cleanupReset_ports b.pciDevice b.transport
    have hdecode := @cleanupReset_decoded b.transport dev hbase
    rw [← hdev, List.map_eq_singleton_iff] at hdecode
    obtain ⟨a, htrace, ha⟩ := hdecode
    rw [htrace] at hports ⊢
    exact run_reset (hattached.mono (Multiset.le_add_left _ _))
      (supported_queuesHeld b.vqs hunder) hs.ringDma_mem ha
      (hports a (List.mem_singleton_self a)) hs.held
  · -- Without a way to the device no queue was set up.
    rw [not_or] at hbase
    have hmode : b.transport.modernMode = false := by
      rw [← Bool.not_eq_true]
      exact fun h => hbase.1 ⟨h, hb.modern h⟩
    have hbar0 : b.transport.bar0 = none := by
      rw [← Option.not_isSome_iff_eq_none]
      exact fun h => hbase.2 ⟨hmode, h⟩
    have hnone := hb.legacy hmode hbar0
    have hlent : s.lent = [] := by
      apply List.eq_nil_iff_forall_not_mem.mpr
      intro q hq
      have hsome := (hs.lent q hq).2
      rw [hnone q] at hsome
      exact Bool.false_ne_true hsome
    have htrace : cleanupReset b.pciDevice b.transport = [] := by
      simp [cleanupReset, hdev, hmode, hbar0]
    have hheld := hs.held
    rw [hlent, List.map_nil, Multiset.coe_nil, zero_add] at hheld
    rw [htrace, ← hheld, ← hlent]
    rfl

/-- `VirtQueue_Free` gives back the memory of a queue, its mapping first. -/
theorem run_freeQueue {base : TransportBase} {q : ℕ}
    (hmapped : ∀ vq, b.vqs q = some vq → 0 < vq.dmaEntries)
    (hunder : ResourceNeeds.Supported (Resource.needs base) under)
    (hheld : s.held = queueHeld b.vqs q + under) :
    Holdings.run base s (match b.vqs q with
      | none => []
      | some vq => (virtQueueFree q vq.dmaEntries).map .exec) =
      some { s with held := under } := by
  unfold queueHeld at hheld
  cases hvq : b.vqs q with
  | none =>
      rw [hvq, Option.isSome_none, if_neg Bool.false_ne_true, zero_add] at hheld
      rw [← hheld]
      rfl
  | some vq =>
      rw [hvq, Option.isSome_some, if_pos rfl] at hheld
      dsimp only
      rw [virtQueueFree_eq (hmapped vq hvq)]
      apply run_exec
      rw [hheld]
      exact run_releases hunder (stacked_queueList q under)

/-- `CleanupVirtIOSCSI` resets the device before it gives the rings back. -/
theorem Loaded.cleanup (hs : Loaded under b.vqs s) (hb : Resettable b)
    (hdev : b.pciDevice = some dev) (hattached : Attached b.transport under)
    (hunder : ResourceNeeds.Supported (Resource.needs b.transport) under) :
    Holdings.run b.transport s b.cleanupVirtIOSCSI.2 = some ⟨under, [], s.queueSel⟩ := by
  have h₂ := @supported_queueHeld _ _ b.vqs 2 hunder
  have h₁ := @supported_queueHeld _ _ b.vqs 1 h₂
  have hheld : queuesHeld b.vqs + under =
      queueHeld b.vqs 0 + (queueHeld b.vqs 1 + (queueHeld b.vqs 2 + under)) := by
    simp only [queuesHeld, add_assoc, zero_add]
  have hreset := hs.reset hb hdev hattached hunder
  rw [hheld] at hreset
  unfold VirtIOSCSIBase.cleanupVirtIOSCSI
  apply GuardedRun.run_trans hreset
  rw [List.flatMap_cons, List.flatMap_cons, List.flatMap_cons, List.flatMap_nil, List.append_nil]
  apply GuardedRun.run_trans (run_freeQueue (hs.mapped 0) h₁ rfl)
  apply GuardedRun.run_trans (run_freeQueue (hs.mapped 1) h₂ rfl)
  exact run_freeQueue (hs.mapped 2) hunder rfl

end Cleanup

end VirtioScsi
