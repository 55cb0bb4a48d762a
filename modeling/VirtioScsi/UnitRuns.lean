import VirtioScsi.UnitMoves

/-!
# Runs of the system

What holds of every run, whatever its steps: the queue stays in a reachable
state, a task moves no program counter but its own, and a request that was
handed in is at every later moment waiting at a port, in the hands of a task,
replied or submitted.
-/

namespace VirtioScsi

def Pc.request : Pc → Option IORequest
  | .drain caller => caller.map SyncCall.ioreq
  | .handle caller _ _ => caller.map SyncCall.ioreq
  | .submit (.pop r) => some r
  | .submit (.fill r _) => some r
  | .submit (.add r _ _) => some r
  | .submit (.giveBack r _ _) => some r
  | .handler r => some r
  | .sync call _ => some call.ioreq
  | .finish r _ _ => some r
  | _ => none

@[simp] theorem commandPc_request (r : IORequest) :
    (commandPc r).request = some r := by
  unfold commandPc
  cases r.command <;> rfl

theorem returnPc_request (call : SyncCall) (result : Int) :
    (returnPc call result).request = some call.ioreq := by
  unfold returnPc
  split_ifs <;> rfl

namespace Config

open RequestQueue

variable {s s₁ s' : Config} {u v : UnitNum} {ch : Choice} {e : Event} {p : Pc}
  {r : IORequest}

/-! ## The queue and the lists -/

theorem Quiet.queue (h : s.Quiet u s') : s'.queue = s.queue := by
  cases h <;> rfl

theorem queue_move (h : s.queue.Ok) (hm : s.Move e s') : s'.queue.Ok := by
  obtain ⟨free, chain, hi⟩ := h
  cases hm with
  | quiet u ch s' hq =>
      rw [hq.queue]
      exact ⟨free, chain, hi⟩
  | take u ch caller serial x len q' hpc hlock htake hq hforeign => exact hq
  | takeOwn u ch call serial x len q' hpc hlock htake hq hown => exact hq
  | stash u ch caller c hpc =>
      have hsame : (s.stashCookie c).queue = s.queue := by
        unfold stashCookie
        split <;> rfl
      exact hsame ▸ ⟨free, chain, hi⟩
  | release u ch caller c cu cs r err actual hpc hlock =>
      have hsame : (s.releaseSlot cu cs).queue = s.queue := by
        unfold releaseSlot
        dsimp only
        split <;> rfl
      exact hsame ▸ ⟨free, chain, hi⟩
  | coalesce u ch hpc =>
      unfold RequestQueue.Ok
      dsimp only [Config.coalesce, goto]
      split
      · exact ⟨free, chain, hi.setUsedEvent _⟩
      · exact ⟨free, chain, hi⟩
  | add u ch r sl sg q' hpc hlock hadd hq => exact hq
  | sync u ch call sg q' hpc hlock hadd hq => exact hq
  | mark u ch call hpc => exact ⟨free, chain, hi.kick⟩
  | pollTake u ch call left serial x len q' hpc htake hq => exact hq
  | kick u ch hpc hlock => exact ⟨free, chain, hi.kick⟩
  | probeAdd ch n tries q' hrun hprobe hadd hq =>
      obtain ⟨free', chain', hi'⟩ := hq
      exact ⟨free', chain', hi'.kick⟩
  | probeTake ch call serial x len q' p hrun hprobe htake hq hp => exact hq
  | interrupt hirq hisr => exact ⟨free, chain, hi.of_notification _ _ _ _⟩
  | fetch q' hfetch =>
      obtain ⟨head, -, -, hi'⟩ := hi.fetch hfetch
      exact ⟨free, chain, hi'⟩
  | complete i len r serial x q' hpending hcomplete hadded =>
      obtain ⟨_, _, -, -, -, -, -, hi'⟩ := hi.complete hcomplete
      exact ⟨free, chain, hi'⟩
  | signal q' hsignal => exact ⟨free, chain, hi.signal hsignal⟩
  | rest q' hrest => exact ⟨free, chain, (hi.rest hrest).1⟩
  | leave u ch call result hpc hlock =>
      have hsame : (if (s.unit u).inflightCount = 0 then s.clearActive u else s).queue =
          s.queue := by
        split <;> rfl
      exact hsame ▸ ⟨free, chain, hi⟩
  | _ => exact ⟨free, chain, hi⟩

theorem filled_goto (h : ∀ v, PcFilled (s.pc v)) (hpc : s₁.pc = s.pc)
    (hp : PcFilled p) : ∀ v, PcFilled ((s₁.goto u p).pc v) := by
  intro v
  simp only [goto, Function.update_apply]
  split
  · exact hp
  · exact hpc ▸ h v

theorem Quiet.filled (h : s.Quiet u s') (hf : ∀ v, PcFilled (s.pc v)) :
    ∀ v, PcFilled (s'.pc v) := by
  cases h with
  | wakeUp hpc hsig =>
      refine filled_goto hf rfl ?_
      split <;> trivial
  | drained call hpc hlock hempty => exact filled_goto hf rfl trivial
  | noMessage hpc hport =>
      refine filled_goto hf rfl ?_
      split <;> trivial
  | message r rest hpc hport =>
      refine filled_goto hf rfl ?_
      unfold commandPc
      split <;> trivial
  | noSlot r hpc hlock hfree => exact filled_goto hf rfl trivial
  | handler r p hpc hp =>
      refine filled_goto hf rfl ?_
      rcases hp with ⟨_, _, rfl⟩ | ⟨_, _, rfl⟩ <;> trivial
  | woken call at_ hpc hsig hat =>
      refine filled_goto hf rfl ?_
      rw [hat]
      split <;> trivial
  | polled call left hpc hempty =>
      refine filled_goto hf rfl ?_
      split <;> trivial
  | clear call taken hpc => exact filled_goto hf rfl trivial
  | finish r err actual hpc => exact filled_goto hf rfl trivial

theorem filled_move (h : ∀ v, PcFilled (s.pc v)) (hm : s.Move e s') :
    ∀ v, PcFilled (s'.pc v) := by
  cases hm with
  | quiet u ch s' hq => exact hq.filled h
  | stash u ch caller c hpc =>
      refine filled_goto h ?_ trivial
      unfold stashCookie
      split <;> rfl
  | release u ch caller c cu cs r err actual hpc hlock =>
      refine filled_goto h ?_ trivial
      unfold releaseSlot
      dsimp only
      split <;> rfl
  | coalesce u ch hpc =>
      refine filled_goto h rfl ?_
      split <;> trivial
  | fill u ch r sl sg hpc hsg => exact filled_goto h rfl hsg
  | prepare u ch call sg hpc hsg => exact filled_goto h rfl hsg
  | mark u ch call hpc =>
      refine filled_goto h rfl ?_
      split <;> trivial
  | accept u ch call c hpc =>
      refine filled_goto h rfl ?_
      unfold doioOutcome
      dsimp only
      split_ifs <;> trivial
  | leave u ch call result hpc hlock =>
      refine filled_goto h ?_ ?_
      · split <;> rfl
      · unfold returnPc
        split_ifs <;> trivial
  | _ =>
      first
        | exact h
        | exact filled_goto h rfl trivial

/-- What every step needs to be a move. -/
structure Fit (s : Config) : Prop where
  queue : s.queue.Ok
  filled : ∀ u, PcFilled (s.pc u)

theorem Fit.move_of_step (h : s.Fit) (hstep : s.step e = some s') :
    s.Move e s' :=
  step_move h.queue h.filled hstep

theorem Fit.move (h : s.Fit) (hm : s.Move e s') : s'.Fit :=
  ⟨queue_move h.queue hm, filled_move h.filled hm⟩

/-- Fitness is kept by every step, whatever the guard. -/
theorem Fit.step (h : s.Fit) (hstep : s.step e = some s') : s'.Fit :=
  h.move (h.move_of_step hstep)

theorem fit_initial (setup : Setup) : (initial setup).Fit :=
  ⟨⟨_, _, inv_initial _ _ _ setup.queueLog_pos setup.queueLog_le⟩,
    fun _ => trivial⟩

/-! ## Program counters -/

theorem goto_pc_of_ne (hv : v ≠ u) : (s.goto u p).pc v = s.pc v := by
  simp [goto, hv]

@[simp] theorem goto_pc_self : (s.goto u p).pc u = p := by
  simp [goto]

theorem stashCookie_pc (s : Config) (c : Completion) :
    (s.stashCookie c).pc = s.pc := by
  unfold stashCookie
  split <;> rfl

theorem releaseSlot_pc (s : Config) (cu : UnitNum) (cs : Slot) :
    (s.releaseSlot cu cs).pc = s.pc := by
  unfold releaseSlot
  dsimp only
  split <;> rfl

theorem Quiet.pc_of_ne (h : s.Quiet u s') (hv : v ≠ u) : s'.pc v = s.pc v := by
  cases h <;> exact goto_pc_of_ne hv

theorem Move.pc (hm : s.Move e s') (hother : ∀ ch, e ≠ .task v ch) :
    s'.pc v = s.pc v := by
  have hne : ∀ u ch, e = .task u ch → v ≠ u := by
    rintro u ch rfl rfl
    exact hother ch rfl
  cases hm with
  | quiet u ch s' hq => exact hq.pc_of_ne (hne _ _ rfl)
  | stash u ch caller c hpc =>
      rw [goto_pc_of_ne (hne _ _ rfl), stashCookie_pc]
  | release u ch caller c cu cs r err actual hpc hlock =>
      rw [goto_pc_of_ne (hne _ _ rfl), releaseSlot_pc]
  | leave u ch call result hpc hlock =>
      rw [goto_pc_of_ne (hne _ _ rfl)]
      split <;> rfl
  | _ =>
      first
        | rfl
        | exact goto_pc_of_ne (hne _ _ rfl)

theorem Move.setup (hm : s.Move e s') : s'.setup = s.setup := by
  cases hm with
  | quiet u ch s' hq => cases hq <;> rfl
  | stash u ch caller c hpc =>
      unfold stashCookie
      split <;> rfl
  | release u ch caller c cu cs r err actual hpc hlock =>
      unfold releaseSlot
      dsimp only
      split <;> rfl
  | leave u ch call result hpc hlock =>
      split <;> rfl
  | _ => rfl

/-! ## Requests -/

def Replied (s : Config) (r : IORequest) : Prop :=
  ∃ m ∈ s.journal.replied, m.ioreq = r

def Submitted (s : Config) (r : IORequest) : Prop :=
  ∃ m ∈ s.journal.submitted, m.ioreq = r

def Known (s : Config) (r : IORequest) : Prop :=
  (∃ u, r ∈ s.port u) ∨ (∃ u, (s.pc u).request = some r) ∨ s.Replied r ∨
    s.Submitted r

theorem Quiet.replied (h : s.Quiet u s') :
    s.journal.replied <+: s'.journal.replied := by
  cases h with
  | finish r err actual hpc => exact List.prefix_append _ _
  | _ => exact List.prefix_refl _

/-- Replies are never taken back. -/
theorem Move.replied (hm : s.Move e s') :
    s.journal.replied <+: s'.journal.replied := by
  cases hm with
  | quiet u ch s' hq => exact hq.replied
  | reply u ch caller c r err actual hpc => exact List.prefix_append _ _
  | stash u ch caller c hpc =>
      unfold stashCookie
      split <;> exact List.prefix_refl _
  | release u ch caller c cu cs r err actual hpc hlock =>
      unfold releaseSlot
      dsimp only
      split <;> exact List.prefix_refl _
  | leave u ch call result hpc hlock =>
      split <;> exact List.prefix_refl _
  | _ => exact List.prefix_refl _

/-- Submissions are never taken back. -/
theorem Move.submitted (hm : s.Move e s') :
    s.journal.submitted <+: s'.journal.submitted := by
  cases hm with
  | quiet u ch s' hq => cases hq <;> exact List.prefix_refl _
  | add u ch r sl sg q' hpc hlock hadd hq => exact List.prefix_append _ _
  | stash u ch caller c hpc =>
      unfold stashCookie
      split <;> exact List.prefix_refl _
  | release u ch caller c cu cs r err actual hpc hlock =>
      unfold releaseSlot
      dsimp only
      split <;> exact List.prefix_refl _
  | leave u ch call result hpc hlock =>
      split <;> exact List.prefix_refl _
  | _ => exact List.prefix_refl _

theorem Replied.move (h : s.Replied r) (hm : s.Move e s') : s'.Replied r := by
  obtain ⟨m, hmem, hr⟩ := h
  exact ⟨m, hm.replied.subset hmem, hr⟩

theorem Submitted.move (h : s.Submitted r) (hm : s.Move e s') :
    s'.Submitted r := by
  obtain ⟨m, hmem, hr⟩ := h
  exact ⟨m, hm.submitted.subset hmem, hr⟩

theorem Move.port (hm : s.Move e s') (hr : r ∈ s.port v) :
    r ∈ s'.port v ∨ (s'.pc v).request = some r := by
  cases hm with
  | quiet u ch s' hq =>
      cases hq with
      | message r' rest hpc hport =>
          by_cases hv : v = u
          · subst hv
            rw [hport, List.mem_cons] at hr
            rcases hr with rfl | hrest
            · exact .inr (by simp)
            · exact .inl (by simpa [goto] using hrest)
          · exact .inl (by simpa [goto, hv] using hr)
      | _ => exact .inl hr
  | stash u ch caller c hpc =>
      refine .inl ?_
      unfold stashCookie
      split <;> exact hr
  | release u ch caller c cu cs r err actual hpc hlock =>
      refine .inl ?_
      unfold releaseSlot
      dsimp only
      split <;> exact hr
  | leave u ch call result hpc hlock =>
      refine .inl ?_
      split <;> exact hr
  | putMsg u r' hrun =>
      refine .inl ?_
      by_cases hv : v = u
      · subst hv
        simp [hr]
      · simpa [hv] using hr
  | _ => exact .inl hr

theorem Quiet.request (h : s.Quiet u s') (hr : (s.pc u).request = some r) :
    (s'.pc u).request = some r ∨ s'.Replied r := by
  cases h with
  | wakeUp hpc hsig => simp [hpc, Pc.request] at hr
  | drained call hpc hlock hempty =>
      rcases hpc with hpc | ⟨_, hcall, hpc⟩
      · rw [hpc] at hr
        exact .inl (by simpa [Pc.request] using hr)
      · obtain rfl := Option.some.inj hcall
        rw [hpc] at hr
        exact .inl (by simpa [Pc.request] using hr)
  | noMessage hpc hport => simp [hpc, Pc.request] at hr
  | message r' rest hpc hport => simp [hpc, Pc.request] at hr
  | noSlot r' hpc hlock hfree =>
      rw [hpc] at hr
      exact .inl (by simpa [Pc.request, newCall] using hr)
  | handler r' p hpc hp =>
      rw [hpc] at hr
      left
      rcases hp with ⟨_, _, rfl⟩ | ⟨_, _, rfl⟩
      · simpa [Pc.request, newCall] using hr
      · simpa [Pc.request] using hr
  | woken call at_ hpc hsig hat =>
      rw [hpc] at hr
      exact .inl (by simpa [Pc.request] using hr)
  | polled call left hpc hempty =>
      rw [hpc] at hr
      exact .inl (by simpa [Pc.request] using hr)
  | clear call taken hpc =>
      rw [hpc] at hr
      exact .inl (by simpa [Pc.request] using hr)
  | finish r' err actual hpc =>
      rw [hpc] at hr
      right
      refine ⟨⟨none, r', err, actual⟩, ?_, by simpa [Pc.request] using hr⟩
      simp [reply, goto]

theorem doioOutcome_request (modern : Bool) (call : SyncCall) (a : Response) :
    (doioOutcome modern call a).1.ioreq = call.ioreq := by
  unfold doioOutcome
  dsimp only
  split_ifs <;> rfl

/-- A request a task works on stays with it until it is replied to or submitted. -/
theorem Move.request (hm : s.Move e s') (hr : (s.pc v).request = some r) :
    (s'.pc v).request = some r ∨ s'.Replied r ∨ s'.Submitted r := by
  by_cases hother : ∃ ch, e = .task v ch
  case neg => exact .inl (by rwa [hm.pc (not_exists.mp hother)])
  obtain ⟨ch, rfl⟩ := hother
  cases hm with
  | quiet _ _ _ hq =>
      rcases hq.request hr with hkept | hreplied
      · exact .inl hkept
      · exact .inr (.inl hreplied)
  | take _ _ caller serial x len q' hpc =>
      rcases hpc with hpc | ⟨_, rfl, hpc⟩ <;> rw [hpc] at hr <;>
        exact .inl (by simpa [Pc.request] using hr)
  | takeOwn _ _ call serial x len q' hpc =>
      rcases hpc with hpc | ⟨_, hcall, hpc⟩
      · rw [hpc] at hr
        exact .inl (by simpa [Pc.request] using hr)
      · obtain rfl := Option.some.inj hcall
        rw [hpc] at hr
        exact .inl (by simpa [Pc.request] using hr)
  | stash _ _ caller c hpc =>
      rcases hpc with ⟨rfl, hpc, -⟩ | hpc
      · simp [hpc, Pc.request] at hr
      · rw [hpc] at hr
        exact .inl (by simpa [Pc.request] using hr)
  | add _ _ r' sl sg q' hpc hlock hadd hq =>
      rw [hpc] at hr
      right
      right
      refine ⟨⟨s.queue.hist.added.length, v, sl, r'⟩, ?_,
        by simpa [Pc.request] using hr⟩
      simp [goto]
  | accept _ _ call c hpc =>
      rw [hpc] at hr
      left
      simpa [doioCheck, Pc.request, doioOutcome_request] using hr
  | leave _ _ call result hpc hlock =>
      rw [hpc] at hr
      left
      rw [goto_pc_self, returnPc_request]
      exact hr
  | harvested _ _ hpc => simp [hpc, Pc.request] at hr
  | coalesce _ _ hpc => simp [hpc, Pc.request] at hr
  | account _ _ r' sl hpc => simp [hpc, Pc.request] at hr
  | kick _ _ hpc => simp [hpc, Pc.request] at hr
  | pick _ _ call c hpc => exact .inl (by simpa [hpc, Pc.request] using hr)
  | found _ _ caller c cu cs r' hpc =>
      exact .inl (by simpa [hpc, Pc.request] using hr)
  | foreign _ _ call c hpc => exact .inl (by simpa [hpc, Pc.request] using hr)
  | release _ _ caller c cu cs r' err actual hpc =>
      exact .inl (by simpa [hpc, Pc.request] using hr)
  | reply _ _ caller c r' err actual hpc =>
      exact .inl (by simpa [hpc, Pc.request] using hr)
  | pop _ _ r' sl hpc => exact .inl (by simpa [hpc, Pc.request] using hr)
  | fillFailed _ _ r' sl hpc => exact .inl (by simpa [hpc, Pc.request] using hr)
  | fill _ _ r' sl sg hpc => exact .inl (by simpa [hpc, Pc.request] using hr)
  | addFailed _ _ r' sl sg hpc =>
      exact .inl (by simpa [hpc, Pc.request] using hr)
  | giveBack _ _ r' sl err hpc =>
      exact .inl (by simpa [hpc, Pc.request] using hr)
  | prepareFailed _ _ call hpc =>
      exact .inl (by simpa [hpc, Pc.request] using hr)
  | prepare _ _ call sg hpc => exact .inl (by simpa [hpc, Pc.request] using hr)
  | syncFailed _ _ call sg hpc =>
      exact .inl (by simpa [hpc, Pc.request] using hr)
  | sync _ _ call sg q' hpc => exact .inl (by simpa [hpc, Pc.request] using hr)
  | mark _ _ call hpc =>
      exact .inl (by simpa [doioMark, hpc, Pc.request] using hr)
  | pollTake _ _ call left serial x len q' hpc =>
      exact .inl (by simpa [hpc, Pc.request] using hr)
  | giveUp _ _ call hpc =>
      exact .inl (by simpa [doioCheck, hpc, Pc.request] using hr)

/-! ## Where requests come from -/

theorem Quiet.request_of (h : s.Quiet u s') :
    (s'.pc u).request = (s.pc u).request ∨ (s'.pc u).request = none ∨
      ∃ r ∈ s.port u, (s'.pc u).request = some r := by
  cases h with
  | wakeUp hpc hsig =>
      right
      left
      rw [goto_pc_self]
      split <;> rfl
  | drained call hpc hlock hempty =>
      left
      rcases hpc with hpc | ⟨_, hcall, hpc⟩
      · rw [goto_pc_self, hpc]
        rfl
      · rw [goto_pc_self, hpc, Option.some.inj hcall]
        rfl
  | noMessage hpc hport =>
      right
      left
      rw [goto_pc_self]
      split <;> rfl
  | message r rest hpc hport =>
      exact .inr (.inr ⟨r, by simp [hport], by simp⟩)
  | noSlot r hpc hlock hfree => exact .inl (by rw [goto_pc_self, hpc]; rfl)
  | handler r p hpc hp =>
      left
      rcases hp with ⟨_, _, rfl⟩ | ⟨_, _, rfl⟩ <;> rw [goto_pc_self, hpc] <;> rfl
  | woken call at_ hpc hsig hat => exact .inl (by rw [goto_pc_self, hpc]; rfl)
  | polled call left hpc hempty => exact .inl (by rw [goto_pc_self, hpc]; rfl)
  | clear call taken hpc => exact .inl (by rw [goto_pc_self, hpc]; rfl)
  | finish r err actual hpc => exact .inr (.inl (by rw [goto_pc_self]; rfl))

/-- A task works on a new request only after taking it off its own port. -/
theorem Move.request_of (hm : s.Move e s') :
    (s'.pc v).request = (s.pc v).request ∨ (s'.pc v).request = none ∨
      ∃ r ∈ s.port v, (s'.pc v).request = some r := by
  by_cases hother : ∃ ch, e = .task v ch
  case neg => exact .inl (by rw [hm.pc (not_exists.mp hother)])
  obtain ⟨ch, rfl⟩ := hother
  cases hm with
  | quiet _ _ _ hq => exact hq.request_of
  | take _ _ caller serial x len q' hpc =>
      left
      rcases hpc with hpc | ⟨_, rfl, hpc⟩ <;> rw [goto_pc_self, hpc] <;> rfl
  | takeOwn _ _ call serial x len q' hpc =>
      left
      rcases hpc with hpc | ⟨_, hcall, hpc⟩
      · rw [goto_pc_self, hpc]
        rfl
      · rw [goto_pc_self, hpc, Option.some.inj hcall]
        rfl
  | stash _ _ caller c hpc =>
      left
      rcases hpc with ⟨rfl, hpc, -⟩ | hpc <;> rw [goto_pc_self, hpc] <;> rfl
  | coalesce _ _ hpc =>
      right
      left
      rw [Config.coalesce, goto_pc_self]
      split <;> rfl
  | accept _ _ call c hpc =>
      left
      rw [hpc]
      simp [doioCheck, Pc.request, doioOutcome_request]
  | leave _ _ call result hpc hlock =>
      left
      rw [goto_pc_self, returnPc_request, hpc]
      rfl
  | harvested _ _ hpc => exact .inr (.inl (by rw [goto_pc_self]; rfl))
  | account _ _ r' sl hpc =>
      exact .inr (.inl (by rw [submitAccount, goto_pc_self]; rfl))
  | add _ _ r' sl sg q' hpc =>
      exact .inr (.inl (by rw [goto_pc_self]; rfl))
  | kick _ _ hpc => exact .inr (.inl (by rw [goto_pc_self]; rfl))
  | mark _ _ call hpc =>
      exact .inl (by rw [doioMark, goto_pc_self, hpc]; rfl)
  | giveUp _ _ call hpc =>
      exact .inl (by rw [doioCheck, goto_pc_self, hpc]; rfl)
  | _ => exact .inl (by rw [goto_pc_self, ‹s.pc v = _›]; rfl)

theorem Move.port_of (hm : s.Move e s') (hr : r ∈ s'.port v) :
    r ∈ s.port v ∨ e = .putMsg v r := by
  cases hm with
  | quiet u ch s' hq =>
      left
      cases hq with
      | message r' rest hpc hport =>
          by_cases hv : v = u
          · subst hv
            rw [hport]
            exact List.mem_cons_of_mem _ (by simpa [goto] using hr)
          · simpa [goto, hv] using hr
      | _ => exact hr
  | stash u ch caller c hpc =>
      left
      unfold stashCookie at hr
      split at hr <;> exact hr
  | release u ch caller c cu cs r err actual hpc hlock =>
      left
      unfold releaseSlot at hr
      dsimp only at hr
      split at hr <;> exact hr
  | leave u ch call result hpc hlock =>
      left
      split at hr <;> exact hr
  | putMsg u r' hrun =>
      by_cases hv : v = u
      · subst hv
        have hmem : r ∈ s.port v ∨ r = r' := by simpa using hr
        exact hmem.imp_right fun hnew => by rw [hnew]
      · exact .inl (by simpa [hv] using hr)
  | _ => exact .inl hr

/-- How a step changes the entry of a slot: marked, unmarked and numbered by
its own unit's `Submit`, released by the task that completes it. -/
inductive SlotChange (s : Config) (e : Event) (s' : Config) (v : UnitNum) (sl : Slot)
    (a : Inflight) : Inflight → Prop
  | keep : SlotChange s e s' v sl a a
  | marked (ch : Choice) (r : IORequest) (sg : SgList) (he : e = .task v ch)
      (hpc : s.pc v = .submit (.fill r sl)) (hadd : s'.pc v = .submit (.add r sl sg)) :
      SlotChange s e s' v sl a { a with ioreq := some r, cookie := some (.slot v sl) }
  | unmarked (ch : Choice) (r : IORequest) (sg : SgList) (he : e = .task v ch)
      (hpc : s.pc v = .submit (.add r sl sg)) :
      SlotChange s e s' v sl a { a with ioreq := none, cookie := none }
  | numbered (ch : Choice) (r : IORequest) (sg : SgList) (he : e = .task v ch)
      (hpc : s.pc v = .submit (.add r sl sg)) :
      SlotChange s e s' v sl a { a with serial := s.queue.hist.added.length }
  | released (t : UnitNum) (ch : Choice) (caller : Option SyncCall) (c : Completion)
      (r : IORequest) (err : Int) (actual : BitVec 32) (he : e = .task t ch)
      (hpc : s.pc t = .handle caller c (.release v sl r err actual)) :
      SlotChange s e s' v sl a { a with ioreq := none, cookie := none }

theorem inflight_setUnit {d : DevUnit} (hd : d.inflight = (s.unit u).inflight) :
    ((s.setUnit u d).unit v).inflight = (s.unit v).inflight := by
  by_cases hv : v = u
  · subst hv
    simpa [setUnit] using hd
  · simp [setUnit, hv]

theorem inflight_setInflight {a : Inflight} {sl sl' : Slot} :
    ((s.setInflight u sl' a).unit v).inflight sl =
      if v = u ∧ sl = sl' then a else (s.unit v).inflight sl := by
  by_cases hv : v = u
  · subst hv
    by_cases hsl : sl = sl'
    · subst hsl
      simp [setInflight, setUnit]
    · simp [setInflight, setUnit, hsl]
  · simp [setInflight, setUnit, hv]

theorem inflight_releaseSlot {cu : UnitNum} {cs sl : Slot} :
    ((s.releaseSlot cu cs).unit v).inflight sl =
      if v = cu ∧ sl = cs then { (s.unit cu).inflight cs with
        ioreq := none, cookie := none } else (s.unit v).inflight sl := by
  unfold releaseSlot
  dsimp only
  by_cases hv : v = cu
  · by_cases hsl : sl = cs <;> split <;> simp [clearActive, setUnit, hv, hsl]
  · split <;> simp [clearActive, setUnit, hv]

theorem SlotChange.of_eq {sl : Slot} {a b : Inflight} (h : b = a) :
    SlotChange s e s' v sl a b := by
  rw [h]
  exact .keep

theorem Move.slot (hm : s.Move e s') (v : UnitNum) (sl : Slot) :
    SlotChange s e s' v sl ((s.unit v).inflight sl) ((s'.unit v).inflight sl) := by
  cases hm with
  | quiet u ch s' hq => cases hq <;> exact .keep
  | stash u ch caller c hpc =>
      have hsame : ((s.stashCookie c).unit v).inflight = (s.unit v).inflight := by
        unfold stashCookie
        split
        · rfl
        · exact inflight_setUnit rfl
      exact .of_eq (congrFun hsame sl)
  | release u ch caller c cu cs r err actual hpc hlock =>
      change SlotChange _ _ _ _ _ _ (((s.releaseSlot cu cs).unit v).inflight sl)
      rw [inflight_releaseSlot]
      split
      · next hslot =>
        obtain ⟨rfl, rfl⟩ := hslot
        exact .released u ch caller c r err actual rfl hpc
      · exact .keep
  | leave u ch call result hpc hlock => split <;> exact .keep
  | pick u ch call c hpc hlock hpending hown =>
      exact .of_eq (congrFun (inflight_setUnit (s := s) (by rfl)) sl)
  | pop u ch r sl' hpc hlock hfree =>
      exact .of_eq (congrFun (inflight_setUnit (s := s) (by rfl)) sl)
  | giveBack u ch r sl' err hpc hlock =>
      exact .of_eq (congrFun (inflight_setUnit (s := s) (by rfl)) sl)
  | account u ch r sl' hpc =>
      exact .of_eq (congrFun (inflight_setUnit (s := s) (by rfl)) sl)
  | fill u ch r sl' sg hpc hsg =>
      change SlotChange _ _ _ _ _ _ ((((s.prepare _ _).setInflight u sl' _).unit v).inflight sl)
      rw [inflight_setInflight]
      split
      · next hslot =>
        obtain ⟨rfl, rfl⟩ := hslot
        exact .marked ch r sg rfl hpc (by simp [goto])
      · exact .keep
  | addFailed u ch r sl' sg hpc hlock =>
      change SlotChange _ _ _ _ _ _ (((s.setInflight u sl' _).unit v).inflight sl)
      rw [inflight_setInflight]
      split
      · next hslot =>
        obtain ⟨rfl, rfl⟩ := hslot
        exact .unmarked ch r sg rfl hpc
      · exact .keep
  | add u ch r sl' sg q' hpc hlock hadd hq =>
      change SlotChange _ _ _ _ _ _ (((Config.setInflight _ u sl' _).unit v).inflight sl)
      rw [inflight_setInflight]
      split
      · next hslot =>
        obtain ⟨rfl, rfl⟩ := hslot
        exact .numbered ch r sg rfl hpc
      · exact .keep
  | _ => exact .keep

theorem Move.ioreq_of {sl : Slot} (hm : s.Move e s')
    (hr : ((s'.unit v).inflight sl).ioreq = some r) :
    ((s.unit v).inflight sl).ioreq = some r ∨
      ∃ sg, s.pc v = .submit (.fill r sl) ∧ s'.pc v = .submit (.add r sl sg) := by
  have hslot := hm.slot v sl
  generalize (s'.unit v).inflight sl = b at hslot hr
  cases hslot with
  | keep => exact .inl hr
  | marked ch r' sg he hpc hadd =>
      obtain rfl : r' = r := Option.some.inj hr
      exact .inr ⟨sg, hpc, hadd⟩
  | unmarked ch r' sg he hpc => cases hr
  | numbered ch r' sg he hpc => exact .inl hr
  | released t ch caller c r' err actual he hpc => cases hr

theorem Known.move (h : s.Known r) (hm : s.Move e s') : s'.Known r := by
  rcases h with ⟨u, hport⟩ | ⟨u, hpc⟩ | hreplied | hsubmitted
  · rcases hm.port hport with hkept | htaken
    · exact .inl ⟨u, hkept⟩
    · exact .inr (.inl ⟨u, htaken⟩)
  · rcases hm.request hpc with hkept | hreplied | hsubmitted
    · exact .inr (.inl ⟨u, hkept⟩)
    · exact .inr (.inr (.inl hreplied))
    · exact .inr (.inr (.inr hsubmitted))
  · exact .inr (.inr (.inl (hreplied.move hm)))
  · exact .inr (.inr (.inr (hsubmitted.move hm)))

theorem Fit.setup_run {events : List Event} (h : s.Fit)
    (hrun : GuardedRun.run Config.step s events = some s') : s'.setup = s.setup := by
  have hinv := GuardedRun.invariant_of_step
    (P := fun s₁ : Config => s₁.Fit ∧ s₁.setup = s.setup) ?_ ⟨h, rfl⟩ hrun
  · exact hinv.2
  · rintro s₁ e s₂ ⟨hfit, hsetup⟩ hstep
    exact ⟨hfit.step hstep, (hfit.move_of_step hstep).setup.trans hsetup⟩

/-- A message once put on a port is on it, in hand, in a slot or replied to ever after. -/
theorem Fit.known {events : List Event} (h : s.Fit)
    (hrun : GuardedRun.run Config.step s events = some s')
    (hput : .putMsg u r ∈ events) : s'.Known r := by
  induction events generalizing s with
  | nil => exact absurd hput (List.not_mem_nil)
  | cons e events ih =>
      obtain ⟨s₁, hstep, hrest⟩ :=
        Option.bind_eq_some_iff.mp (GuardedRun.run_cons.symm.trans hrun)
      have hfit := h.step hstep
      rcases List.mem_cons.mp hput with rfl | hlater
      · have hknown : s₁.Known r := by
          cases h.move_of_step hstep with
          | putMsg _ _ hrunning => exact .inl ⟨u, by simp⟩
        exact (GuardedRun.invariant_of_step
          (P := fun s => s.Fit ∧ s.Known r)
          (fun _ _ _ hs hstep =>
            ⟨hs.1.step hstep, hs.2.move (hs.1.move_of_step hstep)⟩)
          ⟨hfit, hknown⟩ hrest).2
      · exact ih hfit hrest hlater

end Config
end VirtioScsi
