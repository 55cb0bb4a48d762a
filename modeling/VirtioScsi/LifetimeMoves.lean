import VirtioScsi.Lifetime
import VirtioScsi.UnitChains

/-!
# What a step in the lives of the units can do

`Move` lists the branches of the step function.  Whatever the steps, a unit
whose task left its event loop stays at the `Wait`, and slots and completions
stay routed as without shutdowns.
-/

namespace VirtioScsi
namespace Lifetime

variable {s s' : Lifetime} {u v : UnitNum} {e : LifetimeEvent} {p : Phase}
  {P : ℕ → Prop}

/-- The configuration with the free list of unit `u` linked anew, a new port
and new signals. -/
def startConfig (s : Lifetime) (u : UnitNum) : Config :=
  { s.config.setUnit u { s.config.unit u with
      freeHead := Config.freshUnit.freeHead
      inflightNext := Config.freshUnit.inflightNext } with
    port := Function.update s.config.port u []
    portSig := Function.update s.config.portSig u false
    ioSig := Function.update s.config.ioSig u false }

/-- The configuration after slot `sl` of unit `u` was cleared by the drain. -/
def clearConfig (s : Lifetime) (u : UnitNum) (sl : Slot) : Config :=
  s.config.setInflight u sl
    { (s.config.unit u).inflight sl with ioreq := none, cookie := none }

theorem inflight_clearConfig {w : UnitNum} {sl sl' : Slot} :
    ((s.clearConfig u sl').unit w).inflight sl =
      if w = u ∧ sl = sl' then { (s.config.unit u).inflight sl' with
        ioreq := none, cookie := none } else (s.config.unit w).inflight sl :=
  Config.inflight_setInflight

inductive Move (s : Lifetime) : LifetimeEvent → Lifetime → Prop
  | driver (e : Event) (c : Config) (henabled : s.enabled e = true)
      (hm : s.config.Move e c) : Move s (.driver e) { s with config := s.shield c }
  | start (u : UnitNum) (hrun : s.config.running = true) (hphase : s.phase u = .closed) :
      Move s (.unitTaskStart u) { s.enter u .running with config := s.startConfig u }
  | shutdown (u : UnitNum) (hphase : s.phase u = .running) (hpc : s.config.pc u = .wait) :
      Move s (.unitTaskShutdown u) (s.enter u (.drainSlots 0))
  | abort (u : UnitNum) (sl : Slot) (r : IORequest) (hphase : s.phase u = .drainSlots sl)
      (hr : ((s.config.unit u).inflight sl).ioreq = some r) :
      Move s (.drain u) { s.enter u (.clearSlot sl) with
        config := s.config.reply (some ((s.config.unit u).inflight sl).serial) r
          ioerrAborted 0 }
  | skip (u : UnitNum) (sl : Slot) (hphase : s.phase u = .drainSlots sl)
      (hnone : ((s.config.unit u).inflight sl).ioreq = none) :
      Move s (.drain u) (s.enter u (.drainSlots (sl + 1)))
  | slotsDone (u : UnitNum) (n : ℕ) (hphase : s.phase u = .drainSlots n) (hn : 16 ≤ n) :
      Move s (.drain u) (s.enter u .drainPort)
  | clear (u : UnitNum) (sl : Slot) (hphase : s.phase u = .clearSlot sl) :
      Move s (.drain u) { s.enter u (.drainSlots (sl + 1)) with
        config := s.clearConfig u sl }
  | abortMsg (u : UnitNum) (r : IORequest) (rest : List IORequest)
      (hphase : s.phase u = .drainPort) (hport : s.config.port u = r :: rest) :
      Move s (.drain u) { s with
        config := { s.config.reply none r ioerrAborted 0 with
          port := Function.update s.config.port u rest } }
  | portDone (u : UnitNum) (hphase : s.phase u = .drainPort) (hport : s.config.port u = []) :
      Move s (.drain u) (s.enter u .leaving)
  | left (u : UnitNum) (hphase : s.phase u = .leaving) :
      Move s (.drain u) (s.enter u .closed)

theorem drain_move (hstep : s.drain u = some s') : s.Move (.drain u) s' := by
  unfold Lifetime.drain at hstep
  split at hstep
  · cases hstep
  · next n hphase =>
    split at hstep
    · next hn =>
      dsimp only at hstep
      split at hstep
      · next r hr =>
        obtain rfl := Option.some.inj hstep
        exact .abort u ⟨n, hn⟩ r hphase hr
      · next hnone =>
        obtain rfl := Option.some.inj hstep
        exact .skip u ⟨n, hn⟩ hphase hnone
    · next hn =>
      obtain rfl := Option.some.inj hstep
      exact .slotsDone u n hphase (Nat.le_of_not_lt hn)
  · next sl hphase =>
    obtain rfl := Option.some.inj hstep
    exact .clear u sl hphase
  · next hphase =>
    split at hstep
    · next r rest hport =>
      obtain rfl := Option.some.inj hstep
      exact .abortMsg u r rest hphase hport
    · next hport =>
      obtain rfl := Option.some.inj hstep
      exact .portDone u hphase hport
  · next hphase =>
    obtain rfl := Option.some.inj hstep
    exact .left u hphase
  · cases hstep

theorem step_move (hfit : s.config.Fit) (hstep : s.step e = some s') : s.Move e s' := by
  cases e with
  | driver e =>
      obtain ⟨henabled, c, hc, rfl⟩ := driverStep_eq_some hstep
      exact .driver e c henabled (hfit.move_of_step hc)
  | unitTaskStart u =>
      simp only [step, unitTaskStart] at hstep
      split at hstep
      · next h =>
        obtain rfl := Option.some.inj hstep
        exact .start u h.1 h.2
      · cases hstep
  | unitTaskShutdown u =>
      simp only [step, unitTaskShutdown] at hstep
      split at hstep
      · next h =>
        obtain rfl := Option.some.inj hstep
        exact .shutdown u h.1 h.2
      · cases hstep
  | drain u => exact drain_move hstep

/-! ## Phases -/

theorem enter_phase_self : (s.enter u p).phase u = p := by
  simp [enter]

theorem enter_phase_of_ne (hv : v ≠ u) : (s.enter u p).phase v = s.phase v := by
  simp [enter, hv]

/-- Only start, shutdown and drain of a unit change its phase. -/
theorem Move.phase_of_ne (hm : s.Move e s') (hstart : e ≠ .unitTaskStart v)
    (hshutdown : e ≠ .unitTaskShutdown v) (hdrain : e ≠ .drain v) :
    s'.phase v = s.phase v := by
  have hne : ∀ u, e = .unitTaskStart u ∨ e = .unitTaskShutdown u ∨ e = .drain u →
      v ≠ u := by
    rintro u (rfl | rfl | rfl) rfl
    · exact hstart rfl
    · exact hshutdown rfl
    · exact hdrain rfl
  cases hm with
  | driver => rfl
  | start u => exact enter_phase_of_ne (hne u (.inl rfl))
  | shutdown u => exact enter_phase_of_ne (hne u (.inr (.inl rfl)))
  | abortMsg => rfl
  | abort u => exact enter_phase_of_ne (hne u (.inr (.inr rfl)))
  | skip u => exact enter_phase_of_ne (hne u (.inr (.inr rfl)))
  | slotsDone u => exact enter_phase_of_ne (hne u (.inr (.inr rfl)))
  | clear u => exact enter_phase_of_ne (hne u (.inr (.inr rfl)))
  | portDone u => exact enter_phase_of_ne (hne u (.inr (.inr rfl)))
  | left u => exact enter_phase_of_ne (hne u (.inr (.inr rfl)))

/-! ## Invariants of all runs -/

structure Steady (s : Lifetime) : Prop where
  fit : s.config.Fit
  routed : s.config.Routed
  halted : ∀ u, s.phase u ≠ .running → s.config.pc u = .wait

theorem halted_enter {c : Config} (h : ∀ v, s.phase v ≠ .running → s.config.pc v = .wait)
    (hpc : c.pc = s.config.pc) (hu : p ≠ .running → s.config.pc u = .wait) :
    ∀ v, (s.enter u p).phase v ≠ .running → c.pc v = .wait := by
  intro v hv
  rw [hpc]
  by_cases hvu : v = u
  · subst hvu
    rw [enter_phase_self] at hv
    exact hu hv
  · rw [enter_phase_of_ne hvu] at hv
    exact h v hv

theorem Steady.enter (h : s.Steady) {c : Config} (hpc : c.pc = s.config.pc)
    (hqueue : c.queue = s.config.queue)
    (hcookie : ∀ v sl b, ((c.unit v).inflight sl).cookie = some b →
      ((s.config.unit v).inflight sl).cookie = some b)
    (hu : p ≠ .running → s.config.pc u = .wait) :
    Steady { s.enter u p with config := c } where
  fit := ⟨hqueue ▸ h.fit.queue, hpc ▸ h.fit.filled⟩
  routed :=
    { cookie := fun v sl b hb => h.routed.cookie v sl b (hcookie v sl b hb)
      release := by
        dsimp only
        rw [hpc]
        exact h.routed.release }
  halted := halted_enter h.halted hpc hu

/-- Every move keeps the driver state fit, the completions routed and the tasks of stopped
units waiting. -/
theorem Steady.move (h : s.Steady) (hm : s.Move e s') : s'.Steady := by
  cases hm with
  | driver e c henabled hm =>
      have hfit := h.fit.move hm
      refine { fit := ⟨hfit.queue, hfit.filled⟩, routed := ?_, halted := ?_ }
      · have hrouted := h.routed.move hm
        exact ⟨fun u sl b => shield_inflight s c u ▸ hrouted.cookie u sl b, hrouted.release⟩
      · intro u hu
        refine (hm.pc ?_).trans (h.halted u hu)
        rintro ch rfl
        exact hu (of_decide_eq_true henabled)
  | start u hrun hphase =>
      refine h.enter rfl rfl (fun v sl b hb => ?_) (by simp)
      have hsame : ((s.startConfig u).unit v).inflight = (s.config.unit v).inflight :=
        Config.inflight_setUnit (s := s.config) (by rfl)
      rwa [hsame] at hb
  | shutdown u hphase hpc =>
      exact h.enter rfl rfl (fun _ _ _ hb => hb) fun _ => hpc
  | abort u sl r hphase hr =>
      exact h.enter rfl rfl (fun _ _ _ hb => hb) fun _ => h.halted u (by simp [hphase])
  | skip u sl hphase hnone =>
      exact h.enter rfl rfl (fun _ _ _ hb => hb) fun _ => h.halted u (by simp [hphase])
  | slotsDone u n hphase hn =>
      exact h.enter rfl rfl (fun _ _ _ hb => hb) fun _ => h.halted u (by simp [hphase])
  | clear u sl hphase =>
      refine h.enter rfl rfl (fun v sl' b hb => ?_) fun _ => h.halted u (by simp [hphase])
      rw [inflight_clearConfig] at hb
      split at hb
      · cases hb
      · exact hb
  | abortMsg u r rest hphase hport =>
      exact ⟨⟨h.fit.queue, h.fit.filled⟩, ⟨h.routed.cookie, h.routed.release⟩, h.halted⟩
  | portDone u hphase hport =>
      exact h.enter rfl rfl (fun _ _ _ hb => hb) fun _ => h.halted u (by simp [hphase])
  | left u hphase =>
      exact h.enter rfl rfl (fun _ _ _ hb => hb) fun _ => h.halted u (by simp [hphase])

theorem Steady.step (h : s.Steady) (hstep : s.step e = some s') : s'.Steady :=
  h.move (step_move h.fit hstep)

theorem steady_initial (setup : Setup) : (initial setup).Steady where
  fit := Config.fit_initial setup
  routed := Config.routed_initial setup
  halted := fun _ _ => rfl

/-- These hold in every state reached. -/
theorem steady_run {setup : Setup} {events : List LifetimeEvent}
    (hrun : GuardedRun.run Lifetime.step (initial setup) events = some s) : s.Steady :=
  GuardedRun.invariant_of_step (fun _ _ _ h hstep => h.step hstep) (steady_initial setup) hrun

/-! ## Chains of a unit -/

theorem Steady.ofUnit_of_release (h : s.Steady) {t : UnitNum} {caller : Option SyncCall}
    {c : Completion} {cs : Slot} {r : IORequest} {err : Int} {actual : BitVec 32}
    (hpc : s.config.pc t = .handle caller c (.release u cs r err actual)) :
    c.cookie.ofUnit u = true := by
  rw [h.routed.release t caller c u cs r err actual hpc]
  simp [ReqBuf.ofUnit]

theorem Steady.ofUnit_of_lookup (h : s.Steady) {b : ReqBuf} {cs : Slot} {r : IORequest}
    (hlookup : s.config.lookup b = some (u, cs, r)) : b.ofUnit u = true := by
  rw [h.routed.cookie u cs b (Config.lookup_eq_some hlookup).1]
  simp [ReqBuf.ofUnit]

theorem only_driver {c : Config} (h : c.custody.Only u P)
    (hclosed : s.config.custody.Only u P) : (s.shield c).custody.Only u P := by
  refine ⟨h.outstanding, h.inHand, ?_⟩
  intro x hx
  simp only [Config.custody, shield] at hx
  split at hx
  · exact hclosed.stashed x hx
  · exact h.stashed x hx

theorem Move.only_iff (hm : s.Move e s') (hdriver : ∀ e', e ≠ .driver e') :
    s'.config.custody.Only u P ↔ s.config.custody.Only u P := by
  have hsame : s'.config.queue.hist = s.config.queue.hist ∧
      s'.config.standing = s.config.standing ∧
      ∀ v, (s'.config.unit v).doioPending = (s.config.unit v).doioPending := by
    cases hm with
    | driver e => exact absurd rfl (hdriver e)
    | start w =>
        exact ⟨rfl, rfl, fun v => Config.pending_setUnit (s := s.config) (by rfl)⟩
    | clear w sl =>
        exact ⟨rfl, rfl, fun v => Config.pending_setUnit (s := s.config) (by rfl)⟩
    | _ => exact ⟨rfl, rfl, fun _ => rfl⟩
  obtain ⟨hhist, hstanding, hpending⟩ := hsame
  constructor
  · intro h
    exact Config.only_same h hhist.symm hstanding.symm fun v => (hpending v).symm
  · intro h
    exact Config.only_same h hhist hstanding hpending

theorem Steady.only_move (h : s.Steady) (hm : s.Move e s') (honly : s.config.custody.Only u P)
    (hnew : s.phase u = .running → P s.config.queue.hist.added.length) :
    s'.config.custody.Only u P := by
  by_cases hdriver : ∃ e', e = .driver e'
  · obtain ⟨e', rfl⟩ := hdriver
    cases hm with
    | driver _ c henabled hmove =>
        refine only_driver (Config.only_move h.fit.queue honly hmove ?_) honly
        rintro ch rfl
        exact hnew (of_decide_eq_true henabled)
  · exact (hm.only_iff (not_exists.mp hdriver)).mpr honly

end Lifetime
end VirtioScsi
