import VirtioScsi.Answers

/-!
# When `VirtIOSCSI_DoIO` returns

The wait of `DoIO` ends with the completion of its chain or after 50 wake-ups,
whatever they were for.  After the wake-ups it gives the chain up and leaves it
with the device.
-/

namespace VirtioScsi

def SyncCall.Waiting (call : SyncCall) : Prop :=
  0 < call.retries ∧ call.retries + call.wakes = 50

/-- How many wake-ups a call has seen, with the interrupt handler installed
or not. -/
def Pc.Timed (irq : Bool) : Pc → Prop
  | .drain (some call) => call.Waiting
  | .handle (some call) _ _ => call.Waiting
  | .sync call (.add _) => call.Waiting
  | .sync call .mark => call.Waiting
  | .sync call .enter => call.Waiting
  | .sync call .wait => call.Waiting
  | .sync _ (.poll _) => irq = false
  | .sync call (.clear none) => irq = true → call.wakes = 50
  | .sync call (.check none) => irq = true → call.wakes = 50
  | _ => True

theorem commandPc_timed (irq : Bool) (r : IORequest) : (commandPc r).Timed irq := by
  unfold commandPc
  cases r.command <;> trivial

theorem returnPc_timed (irq : Bool) (call : SyncCall) (result : Int) :
    (returnPc call result).Timed irq := by
  unfold returnPc
  split_ifs <;> trivial

namespace Config

variable {s s' : Config} {u v : UnitNum} {e : Event} {ch : Choice} {call : SyncCall}
  {result : Int}

def Timed (s : Config) : Prop :=
  ∀ u, (s.pc u).Timed s.setup.irqInstalled

theorem doioOutcome_timed (irq : Bool) (modern : Bool) (call : SyncCall) (r : Response) :
    (Pc.sync (doioOutcome modern call r).1 (doioOutcome modern call r).2).Timed irq := by
  unfold doioOutcome
  dsimp only
  split_ifs <;> trivial

theorem Timed.waiting (h : s.Timed) (hpc : s.Draining u (some call)) : call.Waiting := by
  have hu := h u
  rcases hpc with hpc | ⟨_, hcall, hpc⟩
  · rwa [hpc] at hu
  · rw [hpc] at hu
    rw [Option.some.inj hcall]
    exact hu

theorem Timed.quiet (h : s.Timed) (hq : s.Quiet u s') :
    (s'.pc u).Timed s.setup.irqInstalled := by
  have hu := h u
  cases hq with
  | wakeUp hpc hsig =>
      rw [goto_pc_self]
      split <;> trivial
  | drained call hpc hlock hempty =>
      rw [goto_pc_self]
      exact h.waiting hpc
  | noMessage hpc hport =>
      rw [goto_pc_self]
      split <;> trivial
  | message r rest hpc hport =>
      rw [goto_pc_self]
      exact commandPc_timed _ r
  | noSlot r hpc hlock hfree =>
      rw [goto_pc_self]
      trivial
  | handler r p hpc hp =>
      rw [goto_pc_self]
      rcases hp with ⟨_, _, rfl⟩ | ⟨_, _, rfl⟩ <;> trivial
  | woken call at_ hpc hsig hat =>
      rw [hpc] at hu
      obtain ⟨hpos, hsum⟩ : call.Waiting := hu
      rw [goto_pc_self, hat]
      split
      · intro _
        dsimp only
        omega
      · refine ⟨?_, ?_⟩ <;> dsimp only <;> omega
  | polled call left hpc hempty =>
      rw [hpc] at hu
      have hirq : s.setup.irqInstalled = false := hu
      rw [goto_pc_self]
      split
      · intro htrue
        rw [hirq] at htrue
        cases htrue
      · exact hirq
  | clear call taken hpc =>
      rw [hpc] at hu
      rw [goto_pc_self]
      cases taken with
      | none => exact hu
      | some c => trivial
  | finish r err actual hpc =>
      rw [goto_pc_self]
      trivial

/-- A waiting call has wakes left; it polls only where no interrupt is installed, and with one
it goes unanswered only after all its wakes. -/
theorem Timed.move (h : s.Timed) (hm : s.Move e s') : s'.Timed := by
  intro v
  rw [hm.setup]
  by_cases hother : ∃ ch, e = .task v ch
  case neg =>
    rw [hm.pc (not_exists.mp hother)]
    exact h v
  obtain ⟨ch, rfl⟩ := hother
  have hv := h v
  cases hm with
  | quiet _ _ _ hq => exact h.quiet hq
  | take _ _ caller serial x len q' hpc =>
      rw [goto_pc_self]
      cases caller with
      | none => trivial
      | some call => exact h.waiting hpc
  | found _ _ caller c cu cs r hpc =>
      rw [hpc] at hv
      rw [goto_pc_self]
      cases caller <;> exact hv
  | foreign _ _ call c hpc =>
      rw [hpc] at hv
      rw [goto_pc_self]
      exact hv
  | stash _ _ caller c hpc =>
      rw [goto_pc_self]
      rcases hpc with ⟨rfl, hpc, -⟩ | hpc
      · trivial
      · rw [hpc] at hv
        cases caller <;> exact hv
  | release _ _ caller c cu cs r err actual hpc =>
      rw [hpc] at hv
      rw [goto_pc_self]
      cases caller <;> exact hv
  | reply _ _ caller c r err actual hpc =>
      rw [hpc] at hv
      rw [goto_pc_self]
      cases caller <;> exact hv
  | coalesce _ _ hpc =>
      rw [Config.coalesce, goto_pc_self]
      split <;> trivial
  | prepare _ _ call sg hpc =>
      rw [goto_pc_self]
      exact ⟨by simp, rfl⟩
  | sync _ _ call sg q' hpc =>
      rw [hpc] at hv
      rw [goto_pc_self]
      exact hv
  | mark _ _ call hpc =>
      rw [hpc] at hv
      rw [doioMark, goto_pc_self]
      split
      · exact hv
      · next hirq => exact Bool.eq_false_iff.mpr hirq
  | accept _ _ call c hpc =>
      rw [doioCheck, goto_pc_self]
      exact doioOutcome_timed _ _ _ _
  | leave _ _ call result hpc =>
      rw [goto_pc_self]
      exact returnPc_timed _ _ _
  | account _ _ r sl hpc =>
      rw [submitAccount, goto_pc_self]
      trivial
  | giveUp _ _ call hpc =>
      rw [doioCheck, goto_pc_self]
      trivial
  | _ =>
      rw [goto_pc_self]
      trivial

/-! ## The return -/

/-- A call comes to its return from a failed submission, an answer taken or a timeout. -/
theorem Move.leaving_of (hm : s.Move e s') (h : s'.pc u = .sync call (.leave result)) :
    s.pc u = .sync call (.leave result) ∨
      (∃ ch, e = .task u ch ∧ s.pc u = .sync call .fill) ∨
      (∃ sg, s.pc u = .sync call (.add sg)) ∨
      (∃ call' c, s.pc u = .sync call' (.check (some c))) ∨
      s.pc u = .sync call (.check none) ∧ result = ioerrSelfTest := by
  by_cases hother : ∃ ch, e = .task u ch
  case neg => exact .inl (hm.pc (not_exists.mp hother) ▸ h)
  obtain ⟨ch, rfl⟩ := hother
  cases hm with
  | prepareFailed _ _ call' hpc =>
      rw [goto_pc_self] at h
      cases h
      exact .inr (.inl ⟨ch, rfl, hpc⟩)
  | syncFailed _ _ call' sg hpc =>
      rw [goto_pc_self] at h
      cases h
      exact .inr (.inr (.inl ⟨sg, hpc⟩))
  | accept _ _ call' c hpc => exact .inr (.inr (.inr (.inl ⟨call', c, hpc⟩)))
  | giveUp _ _ call' hpc =>
      rw [doioCheck, goto_pc_self] at h
      cases h
      exact .inr (.inr (.inr (.inr ⟨hpc, rfl⟩)))
  | quiet _ _ _ hq =>
      cases hq with
      | message r rest hpc hport =>
          rw [goto_pc_self] at h
          unfold commandPc at h
          split at h <;> cases h
      | handler r p hpc hp =>
          rw [goto_pc_self] at h
          rcases hp with ⟨_, _, rfl⟩ | ⟨_, _, rfl⟩ <;> cases h
      | woken call at_ hpc hsig hat =>
          rw [goto_pc_self, hat] at h
          split at h <;> cases h
      | wakeUp hpc hsig =>
          rw [goto_pc_self] at h
          split at h <;> cases h
      | noMessage hpc hport =>
          rw [goto_pc_self] at h
          split at h <;> cases h
      | polled call left hpc hempty =>
          rw [goto_pc_self] at h
          split at h <;> cases h
      | _ =>
          rw [goto_pc_self] at h
          cases h
  | coalesce _ _ hpc =>
      rw [Config.coalesce, goto_pc_self] at h
      split at h <;> cases h
  | mark _ _ call hpc =>
      rw [doioMark, goto_pc_self] at h
      split at h <;> cases h
  | leave _ _ call' result hpc =>
      rw [goto_pc_self] at h
      unfold returnPc at h
      split_ifs at h
  | account _ _ r sl hpc =>
      rw [submitAccount, goto_pc_self] at h
      cases h
  | _ =>
      rw [goto_pc_self] at h
      cases h

theorem Move.gaveUp_of (hm : s.Move e s') (h : s.journal.gaveUp u = none) :
    s'.journal.gaveUp u = none ∨ ∃ call, s.pc u = .sync call (.check none) := by
  cases hm with
  | quiet v ch s' hq => cases hq <;> exact .inl h
  | stash v ch caller c hpc =>
      left
      unfold stashCookie
      split <;> exact h
  | release v ch caller c cu cs r err actual hpc hlock =>
      left
      unfold releaseSlot
      dsimp only
      split <;> exact h
  | leave v ch call result hpc hlock =>
      left
      split <;> exact h
  | giveUp v ch call hpc =>
      by_cases huv : u = v
      · subst huv
        exact .inr ⟨call, hpc⟩
      · simpa [doioCheck, goto, huv] using Or.inl h
  | _ => exact .inl h

theorem Move.cookie_none (hm : s.Move e s') {sl : Slot}
    (h : ((s.unit u).inflight sl).cookie = none)
    (hpc : ∀ r, s.pc u ≠ .submit (.fill r sl)) :
    ((s'.unit u).inflight sl).cookie = none := by
  have hslot := hm.slot u sl
  generalize (s'.unit u).inflight sl = b at hslot
  cases hslot with
  | keep => exact h
  | marked ch r sg he hfill => exact absurd hfill (hpc r)
  | unmarked => rfl
  | numbered => exact h
  | released => rfl

/-- Slot 0 is not in flight, and the call gave its chain up after the timeout or
not at all. -/
structure Returns (s : Config) (u : UnitNum) (call : SyncCall) (result : Int) : Prop where
  slot : ((s.unit u).inflight 0).cookie = none
  chain : s.journal.gaveUp u = none ∨
    result = ioerrSelfTest ∧ (s.setup.irqInstalled = true → call.wakes = 50)

structure SyncReturns (s : Config) : Prop where
  core : s.Core
  timed : s.Timed
  returns : ∀ u call result, s.pc u = .sync call (.leave result) →
    s.Returns u call result

theorem SyncReturns.returns_move (h : s.SyncReturns) (hguard : s.SyncExclusive e)
    (hm : s.Move e s') (hpc : s'.pc u = .sync call (.leave result)) :
    s'.Returns u call result := by
  have hkeep : ((s.unit u).inflight 0).cookie = none ∧ s.journal.gaveUp u = none →
      (∀ r, s.pc u ≠ .submit (.fill r 0)) → (∀ call, s.pc u ≠ .sync call (.check none)) →
      s'.Returns u call result := by
    rintro ⟨hslot, hgave⟩ hfill hcheck
    refine ⟨hm.cookie_none hslot hfill, .inl ?_⟩
    exact (hm.gaveUp_of hgave).resolve_right fun ⟨call, hpc⟩ => hcheck call hpc
  rcases hm.leaving_of hpc with
    hold | ⟨ch, rfl, hold⟩ | ⟨sg, hold⟩ | ⟨call', c, hold⟩ | ⟨hold, rfl⟩
  · obtain ⟨hslot, hchain⟩ := h.returns u call result hold
    refine ⟨hm.cookie_none hslot (by simp [hold]), ?_⟩
    rcases hchain with hgave | htimeout
    · exact .inl ((hm.gaveUp_of hgave).resolve_right (by simp [hold]))
    · exact .inr (hm.setup ▸ htimeout)
  · have hexclusive : ((s.unit u).inflight 0).cookie = none ∧ s.journal.gaveUp u = none := by
      simpa [SyncExclusive, PcExclusive, hold] using hguard
    exact hkeep hexclusive (by simp [hold]) (by simp [hold])
  · exact hkeep (h.core.exclusive_of_standing (.inl (by rw [standing_of hold]; rfl)))
      (by simp [hold]) (by simp [hold])
  · exact hkeep (h.core.exclusive_of_standing (.inl (by rw [standing_of hold]; rfl)))
      (by simp [hold]) (by simp [hold])
  · have hslot := (h.core.exclusive_of_standing (u := u)
      (.inr (by rw [standing_of hold]; simp [Pc.standing]))).1
    refine ⟨hm.cookie_none hslot (by simp [hold]), .inr ⟨rfl, ?_⟩⟩
    have htimed := h.timed u
    rw [hold] at htimed
    rw [hm.setup]
    exact htimed

theorem SyncReturns.step (h : s.SyncReturns) (hguard : s.SyncExclusive e)
    (hstep : s.step e = some s') : s'.SyncReturns where
  core := h.core.step hguard hstep
  timed := h.timed.move (h.core.move_of_step hstep)
  returns := fun _ _ _ => h.returns_move hguard (h.core.move_of_step hstep)

theorem syncReturns_initial (setup : Setup) : (initial setup).SyncReturns where
  core := core_initial setup
  timed := fun _ => trivial
  returns := by simp [initial]

theorem SyncReturns.not_live (h : s.SyncReturns) (hpc : s.pc u = .sync call (.leave result))
    (hgave : s.journal.gaveUp u = none) {i : ℕ} (hlive : s.custody.live i) :
    s.custody.cookie i ≠ some (reqBuf u) := by
  intro hcookie
  obtain ⟨x, hx⟩ := h.core.custody.live_owned i hlive
  have hbuffer := h.core.custody.chain_cookie x i hx
  rw [hcookie, Option.some.injEq] at hbuffer
  have hst : s.standing u = {} := standing_of hpc
  cases x with
  | slot v sl =>
      cases hbuffer
      have hnone : s.custody.chain (.slot u 0) = none :=
        if_pos (.inl (h.returns u call result hpc).slot)
      rw [hnone] at hx
      cases hx
  | sync v =>
      cases hbuffer
      simp [Config.custody, chainOf, UnitView.syncChain, view, hst, hgave] at hx
  | probe n => cases hbuffer

/-- When `VirtIOSCSI_DoIO` returns, no chain with its buffer is outstanding, or
it gave up: it returns IOERR_SELFTEST and, on the interrupt path, was woken 50
times. -/
theorem returned_or_timed_out (setup : Setup) (events : List Event) (s : Config)
    (hrun : GuardedRun.run Config.step (initial setup) events = some s)
    (hobeys : GuardedRun.Obeys Config.step SyncExclusive (initial setup) events)
    (u : UnitNum) (call : SyncCall) (result : Int)
    (hpc : s.pc u = .sync call (.leave result)) :
    (∀ i, s.custody.live i → s.custody.cookie i ≠ some (reqBuf u)) ∨
      result = ioerrSelfTest ∧ (setup.irqInstalled = true → call.wakes = 50) := by
  have hreturns : s.SyncReturns :=
    GuardedRun.invariant (fun _ _ _ h hguard hstep => h.step hguard hstep)
      hobeys (syncReturns_initial setup) hrun
  have hsetup : s.setup = setup := (fit_initial setup).setup_run hrun
  rcases (hreturns.returns u call result hpc).chain with hgave | htimeout
  · exact .inl fun i hlive => hreturns.not_live hpc hgave hlive
  · exact .inr (hsetup ▸ htimeout)

/-- A geometry command after a read: its call returns the answer of the device. -/
theorem returned_or_timed_out_readThenGeometry :
    ∃ s call, GuardedRun.run Config.step (initial (sampleSetup false true))
        (readThenGeometry ++ taskSteps 0 4 ++ deviceAnswers ++ taskSteps 0 4) = some s ∧
      s.pc 0 = .sync call (.leave 0) ∧ call.mine = 1 ∧
      ∀ i, s.custody.live i → s.custody.cookie i ≠ some (reqBuf 0) := by
  have hend : (GuardedRun.run Config.step (initial (sampleSetup false true))
      (readThenGeometry ++ taskSteps 0 4 ++ deviceAnswers ++ taskSteps 0 4)).map
        (fun s => decide (s.pc 0 = .sync { newCall (sampleGeometryRequest 2) false false 8 with
          retries := 49, wakes := 1, mine := 1 } (.leave 0))) = some true := by
    decide +kernel
  have hobeys : GuardedRun.Obeys Config.step SyncExclusive
      (initial (sampleSetup false true))
      (readThenGeometry ++ taskSteps 0 4 ++ deviceAnswers ++ taskSteps 0 4) := by
    decide +kernel
  obtain ⟨s, hrun, hs⟩ := Option.map_eq_some_iff.mp hend
  have hpc := of_decide_eq_true hs
  refine ⟨s, _, hrun, hpc, rfl, ?_⟩
  exact (returned_or_timed_out _ _ s hrun hobeys 0 _ 0 hpc).resolve_right (by decide)

/-! ## A timeout -/

theorem goto_goto (s : Config) (u : UnitNum) (p p' : Pc) :
    (s.goto u p).goto u p' = s.goto u p' := by
  simp [goto]

theorem poll_step {left : ℕ} (hrunning : s.running = true)
    (hpc : s.pc u = .sync call (.poll left))
    (hempty : s.queue.getBuf = some (none, s.queue)) :
    s.step (.task u {}) =
      some (s.goto u (.sync call (if left ≤ 1 then .check none else .poll (left - 1)))) := by
  have hget : s.getBuf = some (none, s) := by
    simp [getBuf, hempty]
  simp [step, taskStep, hrunning, hpc, doioStep, doioPoll, hget]

/-- Polling an empty ring uses the polls up and changes nothing else. -/
theorem polls_empty {n : ℕ} (hrunning : s.running = true)
    (hpc : s.pc u = .sync call (.poll (n + 1)))
    (hempty : s.queue.getBuf = some (none, s.queue)) :
    GuardedRun.run Config.step s (taskSteps u (n + 1)) =
      some (s.goto u (.sync call (.check none))) := by
  induction n generalizing s with
  | zero =>
      rw [taskSteps, List.replicate_one, GuardedRun.run_cons,
        poll_step hrunning hpc hempty]
      rfl
  | succ n ih =>
      rw [taskSteps, List.replicate_succ, GuardedRun.run_cons,
        poll_step hrunning hpc hempty, Option.bind_some, if_neg (by omega)]
      have hrest := @ih (s.goto u (.sync call (.poll (n + 1)))) hrunning goto_pc_self hempty
      rw [goto_goto] at hrest
      exact hrest

theorem giveUp_step (hrunning : s.running = true) (hpc : s.pc u = .sync call (.check none)) :
    s.step (.task u {}) = some (s.doioCheck u call none) := by
  simp [step, taskStep, hrunning, hpc, doioStep]

/-- Without the interrupt handler a geometry request polls. -/
def polledGeometry : List Event :=
  [Event.start, .putMsg 0 (sampleGeometryRequest 1)] ++ taskSteps 0 2 ++
    [Event.task 0 { call := some (false, 8) }] ++ taskSteps 0 3

/-- The device takes longer than all polls: `DoIO` returns while its chain, the
only one, is still the device's. -/
theorem polledGeometry_not_returned :
    ∃ s call, GuardedRun.run Config.step (initial (sampleSetup false false))
        (polledGeometry ++ (taskSteps 0 pollTimeout ++ [.task 0 {}])) = some s ∧
      s.pc 0 = .sync call (.leave ioerrSelfTest) ∧ call.mine = 0 ∧
      s.custody.live 0 ∧ s.custody.cookie 0 = some (reqBuf 0) := by
  have hend : (GuardedRun.run Config.step (initial (sampleSetup false false))
      polledGeometry).map (fun s => decide (s.running = true ∧
        s.pc 0 = .sync (newCall (sampleGeometryRequest 1) false false 8)
          (.poll (499999 + 1)) ∧
        s.queue.hist.returned.length = s.queue.hist.published.length ∧
        0 ∈ s.queue.hist.live ∧
        (s.queue.hist.added[0]?).map Prod.snd = some (reqBuf 0))) = some true := by
    decide +kernel
  obtain ⟨s, hrun, hs⟩ := Option.map_eq_some_iff.mp hend
  obtain ⟨hrunning, hpc, hlength, hlive, hcookie⟩ := of_decide_eq_true hs
  obtain ⟨free, chain, hi⟩ :=
    (GuardedRun.invariant_of_step (fun _ _ _ h hstep => Fit.step h hstep)
      (fit_initial _) hrun).queue
  have hmine : (newCall (sampleGeometryRequest 1) false false 8).mine = 0 := rfl
  generalize newCall (sampleGeometryRequest 1) false false 8 = call at hpc hmine
  have hpolls := polls_empty hrunning hpc (hi.getBuf_empty hlength)
  have hgaveUp : (s.goto 0 (.sync call (.check none))).step (.task 0 {}) =
      some ((s.goto 0 (.sync call (.check none))).doioCheck 0 call none) :=
    giveUp_step hrunning goto_pc_self
  refine ⟨(s.goto 0 (.sync call (.check none))).doioCheck 0 call none, call, ?_,
    goto_pc_self, hmine, hlive, hcookie⟩
  rw [GuardedRun.run_append, hrun, Option.bind_some, GuardedRun.run_append]
  change ((GuardedRun.run Config.step s (taskSteps 0 (499999 + 1))).bind _) = _
  rw [hpolls, Option.bind_some, GuardedRun.run_cons, hgaveUp]
  rfl

end Config
end VirtioScsi
