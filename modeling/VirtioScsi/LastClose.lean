import VirtioScsi.LifetimeMoves
import VirtioScsi.Notifications

/-!
# The last close of a unit

The shutdown drain replies the requests in the slots of a unit and clears the
slots, and `free_unit_dma` frees the buffers.  Nothing on the way takes a chain
back from the device, or a completion from another task.  So the close is safe
exactly when neither has one with a buffer of the unit at the moment the unit's
task leaves its event loop.
-/

namespace VirtioScsi

def Phase.answered : Phase → Slot → Bool
  | .running, _ => false
  | .drainSlots n, sl => decide (sl.val < n)
  | .clearSlot sl', sl => decide (sl ≤ sl')
  | .drainPort, _ => true
  | .leaving, _ => true
  | .closed, _ => true

def Phase.cleared : Phase → Slot → Bool
  | .running, _ => false
  | .drainSlots n, sl => decide (sl.val < n)
  | .clearSlot sl', sl => decide (sl < sl')
  | .drainPort, _ => true
  | .leaving, _ => true
  | .closed, _ => true

namespace Phase

variable {sl sl' : Slot}

theorem cleared_clearSlot : (clearSlot sl').cleared sl = (drainSlots sl').cleared sl :=
  rfl

theorem answered_next :
    (drainSlots (sl'.val + 1)).answered sl = (clearSlot sl').answered sl := by
  simp only [answered, decide_eq_decide, Fin.le_def]
  omega

theorem cleared_next_of_ne (h : sl ≠ sl') :
    (drainSlots (sl'.val + 1)).cleared sl = (drainSlots sl').cleared sl := by
  have hval : sl.val ≠ sl'.val := Fin.val_ne_of_ne h
  simp only [cleared, decide_eq_decide]
  omega

theorem answered_clearSlot_of_ne (h : sl ≠ sl') :
    (clearSlot sl').answered sl = (drainSlots sl').answered sl := by
  rw [← answered_next]
  exact cleared_next_of_ne h

end Phase

namespace Lifetime

variable {s s' t : Lifetime} {u v : UnitNum} {e : LifetimeEvent} {sl : Slot}
  {r : IORequest} {k n : ℕ}

/-! ## A safe close -/

/-- No chain with a buffer of unit `u` is outstanding, none of its completions
is in the hands of a task, and none is stashed. -/
def Clear (s : Lifetime) (u : UnitNum) : Prop :=
  s.config.custody.Only u fun _ => False

/-- From the moment the task of unit `u` leaves its event loop to some moment
after the return of `UnitTask_Shutdown`, and before the unit is opened again. -/
structure Closes (u : UnitNum) (s : Lifetime) (rest : List LifetimeEvent)
    (t : Lifetime) : Prop where
  run : GuardedRun.run Lifetime.step s (.unitTaskShutdown u :: rest) = some t
  closed : t.phase u = .closed
  once : .unitTaskStart u ∉ rest

/-- A request that was in a slot of the unit, and nowhere else, is replied once
and then nowhere, unless its client sends it again.  No chain with a buffer of
the unit is left, and those that are around later were all added later. -/
structure SafeClose (u : UnitNum) (s : Lifetime) (rest : List LifetimeEvent)
    (t : Lifetime) : Prop where
  replied : ∀ sl r, ((s.config.unit u).inflight sl).ioreq = some r →
    s.config.OnlyIn u sl r → (∀ v, .driver (.putMsg v r) ∉ rest) →
    t.config.replies r = s.config.replies r + 1 ∧ t.config.OnlyIn u sl r ∧
      ((t.config.unit u).inflight sl).ioreq = none
  clear : t.Clear u
  late : ∀ later t', GuardedRun.run Lifetime.step t later = some t' →
    t'.config.custody.Only u fun i => t.config.queue.hist.added.length ≤ i

/-! ## While the unit is not running -/

/-- Unit `u` is on its way out, with no chain left. -/
structure Stopped (u : UnitNum) (s : Lifetime) : Prop where
  steady : s.Steady
  stopped : s.phase u ≠ .running
  clear : s.Clear u

theorem drain_phase_ne_running (hm : s.Move (.drain u) s') : s'.phase u ≠ .running := by
  cases hm with
  | abortMsg _ r rest hphase hport => simp [hphase]
  | _ => simp [enter]

theorem Stopped.move (h : Stopped u s) (hm : s.Move e s') (hstart : e ≠ .unitTaskStart u) :
    Stopped u s' where
  steady := h.steady.move hm
  stopped := by
    by_cases hdrain : e = .drain u
    · subst hdrain
      exact drain_phase_ne_running hm
    · by_cases hshutdown : e = .unitTaskShutdown u
      · subst hshutdown
        cases hm with
        | shutdown _ hphase hpc => exact absurd hphase h.stopped
      · rw [hm.phase_of_ne hstart hshutdown hdrain]
        exact h.stopped
  clear := h.steady.only_move hm h.clear fun hrunning => h.stopped hrunning

theorem Stopped.not_lookup (h : Stopped u s) {x : UnitNum} {caller : Option SyncCall}
    {c : Completion} {cs : Slot} (hpc : s.config.pc x = .handle caller c .route) :
    s.config.lookup c.cookie ≠ some (u, cs, r) := by
  intro hlookup
  have hof := h.steady.ofUnit_of_lookup hlookup
  exact h.clear.inHand x .routing c (congrArg Standing.held (Config.standing_of hpc))
    (.inl (by simp)) hof

theorem Stopped.not_release (h : Stopped u s) {x : UnitNum} {caller : Option SyncCall}
    {c : Completion} {cs : Slot} {err : Int} {actual : BitVec 32} :
    s.config.pc x ≠ .handle caller c (.release u cs r err actual) := by
  intro hpc
  exact h.clear.inHand x (.releasing u cs) c
    (congrArg Standing.held (Config.standing_of hpc)) (.inl (by simp))
    (h.steady.ofUnit_of_release hpc)

theorem Stopped.slot_driver (h : Stopped u s) {e : Event} {c : Config}
    (henabled : s.enabled e = true) (hm : s.config.Move e c) :
    (c.unit u).inflight sl = (s.config.unit u).inflight sl := by
  have hnot : ∀ ch, e ≠ .task u ch := by
    rintro ch rfl
    exact h.stopped (of_decide_eq_true henabled)
  have hslot := hm.slot u sl
  generalize (c.unit u).inflight sl = b at hslot
  cases hslot with
  | keep => rfl
  | marked ch r sg he => exact absurd he (hnot ch)
  | unmarked ch r sg he => exact absurd he (hnot ch)
  | numbered ch r sg he => exact absurd he (hnot ch)
  | released x ch caller c' r err actual he hpc => exact absurd hpc h.not_release

/-! ## The request in a slot -/

/-- Request `r`, in slot `sl` when the drain began, and replied `n` times
before. -/
structure Aborting (u : UnitNum) (sl : Slot) (r : IORequest) (n : ℕ)
    (s : Lifetime) : Prop where
  stopped : Stopped u s
  alone : s.config.OnlyIn u sl r
  slot : ((s.config.unit u).inflight sl).ioreq =
    if (s.phase u).cleared sl then none else some r
  count : s.config.replies r = n + if (s.phase u).answered sl then 1 else 0

theorem Aborting.keep (h : Aborting u sl r n s) (hstopped : Stopped u s')
    (halone : s'.config.OnlyIn u sl r)
    (hslot : ((s'.config.unit u).inflight sl).ioreq =
      ((s.config.unit u).inflight sl).ioreq)
    (hcount : s'.config.replies r = s.config.replies r)
    (hcleared : (s'.phase u).cleared sl = (s.phase u).cleared sl)
    (hanswered : (s'.phase u).answered sl = (s.phase u).answered sl) :
    Aborting u sl r n s' where
  stopped := hstopped
  alone := halone
  slot := by rw [hslot, hcleared, h.slot]
  count := by rw [hcount, hanswered, h.count]

theorem Aborting.driver (h : Aborting u sl r n s) {e : Event} {c : Config}
    (hput : ∀ v, e ≠ .putMsg v r) (henabled : s.enabled e = true)
    (hm : s.config.Move e c) : Aborting u sl r n { s with config := s.shield c } := by
  have halone := h.alone.move hm
    (fun x caller c' cs hpc => h.stopped.not_lookup hpc) hput
  have hcount := h.alone.replies_move hm
  refine h.keep (h.stopped.move (.driver e c henabled hm) (by simp)) ?_ ?_ hcount rfl rfl
  · exact ⟨halone.ports, halone.tasks, halone.completing,
      fun v sl' hr => halone.slots v sl' (by rwa [← shield_inflight])⟩
  · dsimp only
    rw [shield_inflight, h.stopped.slot_driver henabled hm]

theorem onlyIn_clearConfig (h : s.config.OnlyIn u sl r) {sl' : Slot} :
    (s.clearConfig v sl').OnlyIn u sl r where
  ports := h.ports
  tasks := h.tasks
  completing := h.completing
  slots := by
    intro w sl'' hr
    rw [inflight_clearConfig] at hr
    split at hr
    · cases hr
    · exact h.slots w sl'' hr

theorem Aborting.abortMsg (h : Aborting u sl r n s) {r' : IORequest}
    {rest : List IORequest} {c : Config} (hport : s.config.port v = r' :: rest)
    (hc : c = { s.config.reply none r' ioerrAborted 0 with
      port := Function.update s.config.port v rest })
    (hstopped : Stopped u { s with config := c }) :
    Aborting u sl r n { s with config := c } := by
  have hr' : r' ≠ r := by
    rintro rfl
    exact h.alone.ports v (by simp [hport])
  subst hc
  refine h.keep hstopped ?_ rfl ?_ rfl rfl
  · refine ⟨?_, h.alone.tasks, h.alone.completing, h.alone.slots⟩
    intro w hr
    by_cases hw : w = v
    · subst hw
      have hrest : r ∈ rest := by simpa using hr
      exact h.alone.ports w (by simp [hport, hrest])
    · exact h.alone.ports w (by simpa [hw] using hr)
  · change (s.config.reply none r' ioerrAborted 0).replies r = _
    rw [Config.replies_reply, if_neg hr', Nat.add_zero]

/-- Steps of the other parties neither reply to nor move the slots being drained. -/
theorem Aborting.other (h : Aborting u sl r n s) (hm : s.Move e s')
    (hown : e ≠ .unitTaskStart u ∧ e ≠ .unitTaskShutdown u ∧ e ≠ .drain u)
    (hput : ∀ v, e ≠ .driver (.putMsg v r)) : Aborting u sl r n s' := by
  have hstopped := h.stopped.move hm hown.1
  have hphase := hm.phase_of_ne hown.1 hown.2.1 hown.2.2
  -- What another unit answers is not this request.
  have hother : ∀ v sl' r', v ≠ u → ((s.config.unit v).inflight sl').ioreq = some r' →
      r' ≠ r := by
    rintro v sl' r' hv hr rfl
    exact hv (h.alone.slots v sl' hr).1
  have hne : ∀ v, e = .unitTaskStart v ∨ e = .drain v → u ≠ v := by
    rintro v (rfl | rfl) rfl
    · exact hown.1 rfl
    · exact hown.2.2 rfl
  cases hm with
  | driver e c henabled hm => exact h.driver (fun v hv => hput v (by rw [hv])) henabled hm
  | start v hrun hclosed =>
      have hinflight : ∀ w, ((s.startConfig v).unit w).inflight =
          (s.config.unit w).inflight :=
        fun w => Config.inflight_setUnit (s := s.config) (by rfl)
      refine h.keep hstopped ?_ (by dsimp only; rw [hinflight]) rfl (by rw [hphase])
        (by rw [hphase])
      refine ⟨?_, h.alone.tasks, h.alone.completing, ?_⟩
      · intro w
        by_cases hw : w = v
        · subst hw
          simp [startConfig]
        · simpa [startConfig, Config.setUnit, hw] using h.alone.ports w
      · intro w sl' hr
        dsimp only at hr
        rw [hinflight] at hr
        exact h.alone.slots w sl' hr
  | abort v sl' r' hv hr =>
      refine h.keep hstopped
        ⟨h.alone.ports, h.alone.tasks, h.alone.completing, h.alone.slots⟩ rfl ?_
        (by rw [hphase]) (by rw [hphase])
      dsimp only
      rw [Config.replies_reply, if_neg (hother v sl' r' (hne v (.inr rfl)).symm hr),
        Nat.add_zero]
  | clear v sl' hv =>
      refine h.keep hstopped (onlyIn_clearConfig h.alone) ?_ rfl (by rw [hphase]) (by rw [hphase])
      dsimp only
      rw [inflight_clearConfig, if_neg fun hsame => hne v (.inr rfl) hsame.1]
  | abortMsg v r' rest hv hport => exact h.abortMsg hport rfl hstopped
  | _ =>
      exact h.keep hstopped h.alone rfl rfl (by rw [hphase]) (by rw [hphase])

theorem Aborting.ne_of_empty (h : Aborting u sl r n s) {sl' : Slot}
    (hphase : s.phase u = .drainSlots sl')
    (hnone : ((s.config.unit u).inflight sl').ioreq = none) : sl ≠ sl' := by
  rintro rfl
  have hslot := h.slot
  rw [hphase, hnone] at hslot
  simp [Phase.cleared] at hslot

theorem Aborting.abort (h : Aborting u sl r n s) {sl' : Slot} {r' : IORequest}
    (hphase : s.phase u = .drainSlots sl')
    (hr : ((s.config.unit u).inflight sl').ioreq = some r') :
    n + (if (Phase.clearSlot sl').answered sl then 1 else 0) =
      s.config.replies r + if r' = r then 1 else 0 := by
  have hslot := h.slot
  have hcount := h.count
  rw [hphase] at hslot hcount
  rw [hcount]
  by_cases hsl : sl = sl'
  · subst hsl
    have hrr : r' = r := by
      rw [hr] at hslot
      simpa [Phase.cleared] using hslot
    simp [Phase.answered, hrr]
  · have hrr : r' ≠ r := by
      rintro rfl
      exact hsl (h.alone.slots u sl' hr).2.symm
    rw [Phase.answered_clearSlot_of_ne hsl, if_neg hrr, Nat.add_zero]

/-- A drain step replies to the request when it comes to its slot, and only then. -/
theorem Aborting.drain (h : Aborting u sl r n s) (hm : s.Move (.drain u) s') :
    Aborting u sl r n s' := by
  have hstopped := h.stopped.move hm (by simp)
  have hslot := h.slot
  have hcount := h.count
  cases hm with
  | abort _ sl' r' hphase hr =>
      refine ⟨hstopped, ⟨h.alone.ports, h.alone.tasks, h.alone.completing, h.alone.slots⟩,
        ?_, ?_⟩
      · rw [enter_phase_self, Phase.cleared_clearSlot, ← hphase]
        exact hslot
      · rw [enter_phase_self, Config.replies_reply]
        exact (h.abort hphase hr).symm
  | skip _ sl' hphase hnone =>
      have hnext := Phase.cleared_next_of_ne (h.ne_of_empty hphase hnone)
      refine h.keep hstopped h.alone rfl rfl ?_ ?_
      · rw [enter_phase_self, hphase]
        exact hnext
      · rw [enter_phase_self, hphase]
        exact hnext
  | slotsDone _ m hphase hpast =>
      have hpassed : (Phase.drainSlots m).cleared sl = true :=
        decide_eq_true (sl.isLt.trans_le hpast)
      refine h.keep hstopped h.alone rfl rfl ?_ ?_
      · rw [enter_phase_self, hphase]
        exact hpassed.symm
      · rw [enter_phase_self, hphase]
        exact hpassed.symm
  | clear _ sl' hphase =>
      rw [hphase] at hslot hcount
      refine ⟨hstopped, (onlyIn_clearConfig h.alone), ?_, ?_⟩
      · rw [enter_phase_self]
        dsimp only
        rw [inflight_clearConfig]
        by_cases hsl : sl = sl'
        · simp [hsl, Phase.cleared]
        · rw [if_neg fun hsame => hsl hsame.2, Phase.cleared_next_of_ne hsl]
          exact hslot
      · rw [enter_phase_self, Phase.answered_next]
        exact hcount
  | abortMsg _ r' rest hphase hport => exact h.abortMsg hport rfl hstopped
  | portDone _ hphase hport =>
      refine h.keep hstopped h.alone rfl rfl ?_ ?_ <;> rw [enter_phase_self, hphase] <;> rfl
  | left _ hphase =>
      refine h.keep hstopped h.alone rfl rfl ?_ ?_ <;> rw [enter_phase_self, hphase] <;> rfl

/-! ## The drain comes to its end -/

/-- A bound on the steps left until the return of `UnitTask_Shutdown`. -/
def remaining (s : Lifetime) (u : UnitNum) : ℕ :=
  match s.phase u with
  | .running => 0
  | .drainSlots n => 2 * (16 - n) + (s.config.port u).length + 3
  | .clearSlot sl => 2 * (16 - sl) + (s.config.port u).length + 2
  | .drainPort => (s.config.port u).length + 2
  | .leaving => 1
  | .closed => 0

/-- Each step of the drain brings it closer to its end. -/
theorem remaining_drain (hm : s.Move (.drain u) s') : s'.remaining u < s.remaining u := by
  cases hm with
  | abort _ sl r hphase hr =>
      simp only [remaining, enter_phase_self, hphase]
      exact Nat.lt_succ_self _
  | skip _ sl hphase hnone =>
      have hsl := sl.isLt
      simp only [remaining, enter_phase_self, hphase]
      change 2 * (16 - (sl.val + 1)) + (s.config.port u).length + 3 < _
      omega
  | slotsDone _ n hphase hn =>
      simp only [remaining, enter_phase_self, hphase]
      change (s.config.port u).length + 2 < _
      omega
  | clear _ sl hphase =>
      have hsl := sl.isLt
      simp only [remaining, enter_phase_self, hphase]
      change 2 * (16 - (sl.val + 1)) + (s.config.port u).length + 3 < _
      omega
  | abortMsg _ r rest hphase hport => simp [remaining, hphase, hport]
  | portDone _ hphase hport => simp [remaining, enter_phase_self, hphase]
  | left _ hphase => simp [remaining, enter_phase_self, hphase]

theorem drain_enabled (hrunning : s.phase u ≠ .running) (hclosed : s.phase u ≠ .closed) :
    ∃ s', s.drain u = some s' := by
  unfold drain
  cases hphase : s.phase u with
  | running => exact absurd hphase hrunning
  | drainSlots m =>
      dsimp only
      split
      · split <;> exact ⟨_, rfl⟩
      · exact ⟨_, rfl⟩
  | drainPort =>
      dsimp only
      split <;> exact ⟨_, rfl⟩
  | closed => exact absurd hphase hclosed
  | _ => exact ⟨_, rfl⟩

/-- The drain loop ends. -/
theorem exists_drained (hrunning : s.phase u ≠ .running) :
    ∃ rest t, (∀ e ∈ rest, e = .drain u) ∧
      GuardedRun.run Lifetime.step s rest = some t ∧ t.phase u = .closed := by
  induction hn : s.remaining u using Nat.strong_induction_on generalizing s with
  | h n ih =>
      by_cases hclosed : s.phase u = .closed
      · exact ⟨[], s, by simp, rfl, hclosed⟩
      · obtain ⟨s₁, hstep⟩ := drain_enabled hrunning hclosed
        have hm := drain_move hstep
        obtain ⟨rest, t, honly, hrun, ht⟩ :=
          ih (s₁.remaining u) (hn ▸ remaining_drain hm) (drain_phase_ne_running hm) rfl
        refine ⟨.drain u :: rest, t, by simpa using honly, ?_, ht⟩
        rw [GuardedRun.run_cons]
        change (s.drain u).bind _ = _
        rw [hstep]
        exact hrun

/-- The drain does not clear a unit: one that is clear after it was so before. -/
theorem clear_of_drained {rest : List LifetimeEvent} (honly : ∀ e ∈ rest, e = .drain u)
    (hrun : GuardedRun.run Lifetime.step s rest = some t) (ht : t.Clear u) : s.Clear u := by
  have hobeys : GuardedRun.Obeys Lifetime.step (fun _ e => e = .drain u) s rest :=
    .of_forall honly
  refine GuardedRun.invariant (P := fun s₁ : Lifetime => s₁.Clear u → s.Clear u) ?_
    hobeys id hrun ht
  rintro s₁ e s₂ h rfl hstep hclear
  exact h (((drain_move hstep).only_iff (by simp)).mp hclear)

/-! ## The whole close -/

theorem Stopped.of_shutdown (hsteady : s.Steady) (hclear : s.Clear u)
    (hstep : s.step (.unitTaskShutdown u) = some s') : Stopped u s' := by
  cases step_move hsteady.fit hstep with
  | shutdown _ hphase hpc =>
      exact ⟨hsteady.enter rfl rfl (fun _ _ _ hb => hb) fun _ => hpc,
        by simp [enter_phase_self], hclear⟩

theorem Aborting.of_shutdown (hstopped : Stopped u s')
    (hstep : s.step (.unitTaskShutdown u) = some s')
    (hr : ((s.config.unit u).inflight sl).ioreq = some r) (halone : s.config.OnlyIn u sl r) :
    Aborting u sl r (s.config.replies r) s' := by
  simp only [step, unitTaskShutdown] at hstep
  split at hstep
  · obtain rfl := Option.some.inj hstep
    exact ⟨hstopped, halone, by simpa [enter, Phase.cleared] using hr,
      by simp [enter, Phase.answered]⟩
  · cases hstep

theorem Stopped.run (h : Stopped u s) {rest : List LifetimeEvent}
    (hrun : GuardedRun.run Lifetime.step s rest = some t) (honce : .unitTaskStart u ∉ rest) :
    Stopped u t := by
  have hobeys : GuardedRun.Obeys Lifetime.step (fun _ e => e ≠ .unitTaskStart u) s rest :=
    .of_forall fun e he => ne_of_mem_of_not_mem he honce
  refine GuardedRun.invariant ?_ hobeys h hrun
  intro s₁ e s₂ h hstart hstep
  exact h.move (step_move h.steady.fit hstep) hstart

theorem Aborting.step (h : Aborting u sl r n s) (hstart : e ≠ .unitTaskStart u)
    (hput : ∀ v, e ≠ .driver (.putMsg v r)) (hstep : s.step e = some s') :
    Aborting u sl r n s' := by
  have hm := step_move h.stopped.steady.fit hstep
  by_cases hdrain : e = .drain u
  · subst hdrain
    exact h.drain hm
  · refine h.other hm ⟨hstart, ?_, hdrain⟩ hput
    rintro rfl
    cases hm with
    | shutdown _ hphase hpc => exact h.stopped.stopped hphase

theorem Aborting.run (h : Aborting u sl r n s) {rest : List LifetimeEvent}
    (hrun : GuardedRun.run Lifetime.step s rest = some t) (honce : .unitTaskStart u ∉ rest)
    (hput : ∀ v, .driver (.putMsg v r) ∉ rest) : Aborting u sl r n t := by
  have hobeys : GuardedRun.Obeys Lifetime.step
      (fun _ e => e ≠ .unitTaskStart u ∧ ∀ v, e ≠ .driver (.putMsg v r)) s rest :=
    .of_forall fun e he => ⟨ne_of_mem_of_not_mem he honce,
      fun v => ne_of_mem_of_not_mem he (hput v)⟩
  refine GuardedRun.invariant ?_ hobeys h hrun
  intro s₁ e s₂ h hguard hstep
  exact h.step hguard.1 hguard.2 hstep

theorem Steady.added_le (h : s.Steady) (hm : s.Move e s') :
    s.config.queue.hist.added.length ≤ s'.config.queue.hist.added.length := by
  cases hm with
  | driver e c henabled hm =>
      have hle := h.fit.added_le hm
      exact hle
  | _ => exact le_rfl

/-- Whatever runs after the drain, a chain held for the unit was added after it too. -/
theorem Stopped.late (h : Stopped u t) {later : List LifetimeEvent}
    (hrun : GuardedRun.run Lifetime.step t later = some s) :
    s.config.custody.Only u fun i => t.config.queue.hist.added.length ≤ i := by
  have hinv := GuardedRun.invariant_of_step
    (P := fun s => s.Steady ∧
      t.config.queue.hist.added.length ≤ s.config.queue.hist.added.length ∧
      s.config.custody.Only u fun i => t.config.queue.hist.added.length ≤ i) ?_
    ⟨h.steady, le_rfl, h.clear.mono fun _ => False.elim⟩ hrun
  · exact hinv.2.2
  · rintro s₁ e s₂ ⟨hsteady, hle, honly⟩ hstep
    have hm := step_move hsteady.fit hstep
    exact ⟨hsteady.move hm, hle.trans (hsteady.added_le hm),
      hsteady.only_move hm honly fun _ => hle⟩

/-- A unit without chains in flight closes safely. -/
theorem Closes.safe {rest : List LifetimeEvent} (h : Closes u s rest t)
    (hsteady : s.Steady) (hclear : s.Clear u) : SafeClose u s rest t := by
  obtain ⟨s₁, hshutdown, hrest⟩ :=
    Option.bind_eq_some_iff.mp (GuardedRun.run_cons.symm.trans h.run)
  have hstopped := Stopped.of_shutdown hsteady hclear hshutdown
  have hend := hstopped.run hrest h.once
  refine { replied := ?_, clear := hend.clear, late := fun later t' => hend.late }
  intro sl r hr halone hput
  have haborted := (Aborting.of_shutdown hstopped hshutdown hr halone).run hrest h.once hput
  have hslot := haborted.slot
  have hcount := haborted.count
  rw [h.closed] at hslot hcount
  exact ⟨hcount, haborted.alone, hslot⟩

/-- The last close of a unit is safe, whatever the device and the other units
do meanwhile, if and only if the driver had no chain of the unit left to deal
with when its task left the event loop. -/
theorem safeClose_iff_clear (setup : Setup) (events : List LifetimeEvent) (s : Lifetime)
    (hrun : GuardedRun.run Lifetime.step (initial setup) events = some s) (u : UnitNum)
    (hphase : s.phase u = .running) (hpc : s.config.pc u = .wait) :
    (∀ rest t, Closes u s rest t → SafeClose u s rest t) ↔ s.Clear u := by
  constructor
  · intro hsafe
    have hshutdown : s.step (.unitTaskShutdown u) = some (s.enter u (.drainSlots 0)) :=
      if_pos ⟨hphase, hpc⟩
    obtain ⟨rest, t, honly, hrest, hclosed⟩ :=
      exists_drained (s := s.enter u (.drainSlots 0)) (u := u) (by simp [enter_phase_self])
    have hcloses : Closes u s rest t := by
      refine ⟨?_, hclosed, fun hstart => ?_⟩
      · rw [GuardedRun.run_cons, hshutdown]
        exact hrest
      · cases honly _ hstart
    have hclear : (s.enter u (.drainSlots 0)).Clear u :=
      clear_of_drained honly hrest (hsafe rest t hcloses).clear
    exact hclear
  · intro hclear rest t hcloses
    exact hcloses.safe (steady_run hrun) hclear

theorem Clear.of_idle (hlive : s.config.queue.hist.live = [])
    (hheld : ∀ v, (s.config.pc v).standing.held = none)
    (hpending : (s.config.unit u).doioPending = none) : s.Clear u where
  outstanding := by
    intro i b hi
    have hmem : i ∈ s.config.queue.hist.live := hi
    simp [hlive] at hmem
  inHand := by
    intro v st c hc
    have hnone : (s.config.custody).held v = none := hheld v
    simp [hnone] at hc
  stashed := by
    intro c hc
    have hnone : (s.config.custody).pending u = none := hpending
    simp [hnone] at hc

/-- A unit is closed after its read was answered. -/
theorem safeClose_iff_clear_sampleAnswered :
    ∃ s, GuardedRun.run Lifetime.step (initial (sampleSetup false true))
        sampleAnswered = some s ∧ s.phase 0 = .running ∧
      ∀ rest t, Closes 0 s rest t → SafeClose 0 s rest t := by
  have hend : (GuardedRun.run Lifetime.step (initial (sampleSetup false true))
      sampleAnswered).map (fun s => decide ((s.phase 0 = .running ∧
        s.config.pc 0 = .wait) ∧ s.config.queue.hist.live = [] ∧
        (∀ v, (s.config.pc v).standing.held = none) ∧
        (s.config.unit 0).doioPending = none)) = some true := by
    decide +kernel
  obtain ⟨s, hrun, hs⟩ := Option.map_eq_some_iff.mp hend
  obtain ⟨⟨hphase, hpc⟩, hlive, hheld, hpending⟩ := of_decide_eq_true hs
  exact ⟨s, hrun, hphase, (safeClose_iff_clear _ _ s hrun 0 hphase hpc).mpr
    (.of_idle hlive hheld hpending)⟩

/-- A unit is closed with its read in flight: the chain is still the device's
when `UnitTask_Shutdown` returns. -/
theorem sampleOpenRead_not_safeClose :
    ∃ s t, GuardedRun.run Lifetime.step (initial (sampleSetup false true))
        sampleOpenRead = some s ∧ Closes 0 s (List.replicate 20 (.drain 0)) t ∧
      t.config.custody.live 0 ∧ t.config.custody.cookie 0 = some (.slot 0 0) ∧
      ¬ SafeClose 0 s (List.replicate 20 (.drain 0)) t := by
  have hend : (GuardedRun.run Lifetime.step (initial (sampleSetup false true))
      sampleOpenRead).bind (fun s => (GuardedRun.run Lifetime.step s
        (.unitTaskShutdown 0 :: List.replicate 20 (.drain 0))).map fun t =>
          decide (t.phase 0 = .closed ∧ 0 ∈ t.config.queue.hist.live ∧
            (t.config.queue.hist.added[0]?).map Prod.snd = some (.slot 0 0))) =
      some true := by
    decide +kernel
  obtain ⟨s, hrun, hclose⟩ := Option.bind_eq_some_iff.mp hend
  obtain ⟨t, ht, hdecide⟩ := Option.map_eq_some_iff.mp hclose
  obtain ⟨hclosed, hlive, hcookie⟩ := of_decide_eq_true hdecide
  refine ⟨s, t, hrun, ⟨ht, hclosed, by simp⟩, hlive, hcookie, fun hsafe => ?_⟩
  exact hsafe.clear.outstanding 0 (.slot 0 0) hlive hcookie (by decide)

end Lifetime
end VirtioScsi
