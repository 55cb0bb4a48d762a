import VirtioScsi.RequestAccounts
import VirtioScsi.UnitChains
import VirtioScsi.WakeUps

/-!
# The driver at rest

When no task can step, no interrupt is pending and the device has nothing to do,
no task is in the middle of anything: every task waits for its first signal, its
port is empty, and every request that was put to a unit was replied.
-/

namespace VirtioScsi

namespace Custody

variable {k k' : Custody} {t u v : UnitNum} {i : ℕ} {c : Completion} {st : Hold} {x : User}

/-- The device has the chain, or its completion is on the way to the unit's
`DoIO`, or stashed for it. -/
def Underway (k : Custody) (u : UnitNum) (i : ℕ) : Prop :=
  k.live i ∨ (∃ t st c, k.held t = some (st, c) ∧ c.serial = i ∧ st ≠ .done) ∨
    ∃ c, k.pending u = some c ∧ c.serial = i

/-- The chain of a synchronous request does not get lost. -/
def Traced (k : Custody) : Prop :=
  ∀ u i, k.chain (.sync u) = some i → k.Underway u i

/-- Who has the completion of a synchronous request keeps it, or stashes it for
its unit. -/
def Forwards (k k' : Custody) : Prop :=
  ∀ t st c u, k.held t = some (st, c) → st ≠ .done → k.chain (.sync u) = some c.serial →
    (∃ st', k'.held t = some (st', c) ∧ st' ≠ .done) ∨ k'.pending u = some c

theorem Step.chain_cases (hs : k.Step k') (hx : k'.chain x = some i) :
    k.chain x = some i ∨ k'.live i := by
  cases hs with
  | issue y n hfresh hfree =>
      simp only [Custody.issue, Function.update_apply] at hx
      split at hx
      · cases hx
        exact .inr (.inl rfl)
      · exact .inl hx
  | settle t st c y hheld hchain => exact .inl (finish_chain hx)
  | own t u i hidle hlive hsync => exact .inl (finish_chain hx)
  | pick t u c hidle hpending => exact .inl (finish_chain hx)
  | probeTake i n hlive hchain => exact .inl (finish_chain hx)
  | _ => exact .inl hx

theorem finish_chain_ne (h : (k.finish x).chain x = some i) : False := by
  simp only [Custody.finish, Function.update_self] at h
  cases h

/-- A chain that the device gives back is taken by a task. -/
theorem Sound.live_cases (h : k.Sound) (hs : k.Step k') (hlive : k.live i)
    (hchain : k.chain (.sync u) = some i) (hkept : k'.chain (.sync u) = some i) :
    k'.Underway u i := by
  cases hs with
  | issue y n hfresh hfree => exact .inl (.inr hlive)
  | take t j b hidle hlive' hcookie =>
      by_cases hj : i = j
      · refine .inr (.inl ⟨t, .routing, ⟨b, j⟩, Function.update_self _ _ _, hj.symm, ?_⟩)
        exact Hold.noConfusion
      · exact .inl ⟨hj, hlive⟩
  | own t v j hidle hlive' hsync =>
      by_cases hj : i = j
      · rw [hj] at hchain
        cases h.chain_inj hchain hsync
        exact (finish_chain_ne hkept).elim
      · exact .inl ⟨hj, hlive⟩
  | probeTake j n hlive' hprobe =>
      by_cases hj : i = j
      · rw [hj] at hchain
        cases h.chain_inj hchain hprobe
      · exact .inl ⟨hj, hlive⟩
  | _ => exact .inl hlive

/-- A completion that is stashed stays there until its unit picks it. -/
theorem Sound.pending_cases (h : k.Sound) (hs : k.Step k') (hpending : k.pending u = some c)
    (hkept : k'.chain (.sync u) = some c.serial) : ∃ c', k'.pending u = some c' ∧
      c'.serial = c.serial := by
  cases hs with
  | stash t v st c' hheld hsync =>
      by_cases hv : u = v
      · refine ⟨c', ?_, ?_⟩
        · rw [hv]
          exact Function.update_self _ _ _
        · have howned := h.pending_owned u c hpending
          rw [hv, hsync, Option.some.injEq] at howned
          exact howned
      · exact ⟨c, (Function.update_of_ne hv _ _).trans hpending, rfl⟩
  | pick t v c' hidle hpicked =>
      by_cases hv : u = v
      · rw [hv] at hkept
        exact (finish_chain_ne hkept).elim
      · exact ⟨c, (Function.update_of_ne hv _ _).trans hpending, rfl⟩
  | _ => exact ⟨c, hpending, rfl⟩

theorem Traced.step (ht : k.Traced) (h : k.Sound) (hs : k.Step k') (hforwards : k.Forwards k') :
    k'.Traced := by
  intro u i hchain'
  rcases hs.chain_cases hchain' with hchain | hlive'
  · rcases ht u i hchain with hlive | ⟨t, st, c, hheld, hserial, hst⟩ | ⟨c, hpending, hserial⟩
    · exact h.live_cases hs hlive hchain hchain'
    · rw [← hserial] at hchain
      rcases hforwards t st c u hheld hst hchain with ⟨st', hheld', hst'⟩ | hpending
      · exact .inr (.inl ⟨t, st', c, hheld', hserial, hst'⟩)
      · exact .inr (.inr ⟨c, hpending, hserial⟩)
    · rw [← hserial] at hchain'
      obtain ⟨c', hpending', hserial'⟩ := h.pending_cases hs hpending hchain'
      exact .inr (.inr ⟨c', hpending', hserial'.trans hserial⟩)
  · exact .inl hlive'

end Custody

namespace Config

variable {s s₁ s' : Config} {t u v : UnitNum} {e : Event} {ch : Choice} {p : Pc}

/-! ## Synchronous requests -/

theorem stashCookie_sync (s : Config) (c : Completion) (hcookie : c.cookie = reqBuf u) :
    ((s.stashCookie c).unit u).doioPending = some c := by
  unfold stashCookie
  rw [hcookie, reqBufOwner_reqBuf]
  dsimp only [setUnit]
  rw [Function.update_self]

theorem task_step (hstep : s.step (.task u ch) = some s') : s.taskStep u ch = some s' := by
  unfold step at hstep
  dsimp only at hstep
  split_ifs at hstep
  exact hstep

theorem handle_step {caller : Option SyncCall} {c : Completion} {what : Handling}
    (hpc : s.pc u = .handle caller c what) (hstep : s.step (.task u ch) = some s') :
    s.handleTaken u caller c what = some s' := by
  have htask := task_step hstep
  unfold taskStep at htask
  rwa [hpc] at htask

theorem held_goto_self : (s.goto u p).custody.held u = p.standing.held :=
  congrArg Standing.held (standing_of goto_pc_self)

/-- A step passes every completion in hand on towards its caller. -/
theorem Core.forwards (h : s.Core) (hstep : s.step e = some s') :
    s.custody.Forwards s'.custody := by
  intro t st c u hheld hst hchain
  by_cases hother : ∃ ch, e = .task t ch
  case neg =>
    have hpc := (h.move_of_step hstep).pc (not_exists.mp hother)
    exact .inl ⟨st, (congrArg (fun p => (Pc.standing p).held) hpc).trans hheld, hst⟩
  obtain ⟨ch, rfl⟩ := hother
  obtain ⟨caller, what, hpc, hhold⟩ := (handling_of_held hheld).resolve_left hst
  have hcookie : c.cookie = reqBuf u := (h.held_owner hheld hchain).symm
  have htaken := handle_step hpc hstep
  cases what with
  | route =>
      cases htaken
      unfold route
      split
      · exact .inl ⟨_, held_goto_self, Hold.noConfusion⟩
      · cases caller with
        | none => exact .inr (stashCookie_sync s c hcookie)
        | some call => exact .inl ⟨_, held_goto_self, Hold.noConfusion⟩
  | stash =>
      unfold handleTaken at htaken
      split_ifs at htaken
      cases htaken
      exact .inr (stashCookie_sync s c hcookie)
  | release cu cs r err actual =>
      rw [← hhold] at hheld
      cases h.custody.chain_inj hchain (h.custody.releasing_owned t cu cs c hheld)
  | reply r err actual => exact absurd hhold.symm hst

/-- The completion of a synchronous request that the device gave back, and that
nobody has in hand, is stashed for its unit. -/
theorem pending_of_awaiting {call : SyncCall} {at_ : SyncAt} (ht : s.custody.Traced)
    (hpc : s.pc u = .sync call at_) (hawaiting : (at_.standing call.mine).awaiting = some call.mine)
    (hlive : s.queue.hist.live = []) (hheld : ∀ t, s.custody.held t = none) :
    (s.unit u).doioPending ≠ none := by
  have hchain : s.custody.chain (.sync u) = some call.mine := by
    refine chain_awaiting ?_
    rw [standing_of hpc]
    exact hawaiting
  rcases ht u call.mine hchain with hdevice | ⟨t, st, c, hhand, -, -⟩ | ⟨c, hpending, -⟩
  · have hmem : call.mine ∈ s.queue.hist.live := hdevice
    rw [hlive] at hmem
    cases hmem
  · rw [hheld t] at hhand
    cases hhand
  · intro hnone
    have hsome : (s.unit u).doioPending = some c := hpending
    rw [hnone] at hsome
    cases hsome

/-! ## Stashed completions -/

/-- A `DoIO` that has looked for a stashed completion in this round. -/
def looked : Pc → Bool
  | .drain (some _) => true
  | .handle (some _) _ _ => true
  | .sync _ .wait => true
  | _ => false

/-- A completion stashed since then comes with a signal. -/
def StashSignalled (s : Config) : Prop :=
  ∀ u, (s.unit u).doioPending ≠ none → looked (s.pc u) = true → s.ioSig u = true

theorem pending_releaseSlot (s : Config) (cu : UnitNum) (cs : Slot) :
    ((s.releaseSlot cu cs).unit u).doioPending = (s.unit u).doioPending := by
  unfold releaseSlot
  dsimp only
  split <;> exact pending_setUnit rfl

theorem pending_stashCookie (s : Config) (c : Completion) :
    ((s.stashCookie c).unit u).doioPending = (s.unit u).doioPending ∨
      (s.stashCookie c).ioSig u = true := by
  unfold stashCookie
  split
  · exact .inl rfl
  · next v _ =>
    by_cases hu : u = v
    · right
      rw [hu]
      exact Function.update_self _ _ _
    · left
      exact congrArg DevUnit.doioPending (Function.update_of_ne hu _ _)

theorem Move.pending (hm : s.Move e s') (u : UnitNum) :
    (s'.unit u).doioPending = (s.unit u).doioPending ∨ (s'.unit u).doioPending = none ∨
      s'.ioSig u = true := by
  cases hm with
  | quiet v ch s' hq =>
      left
      rw [hq.same.1.unit]
  | pick v ch call c hpc hlock hpending hown =>
      by_cases hu : u = v
      · right
        left
        rw [hu]
        simp only [goto, setUnit, Function.update_self]
      · left
        exact congrArg DevUnit.doioPending (Function.update_of_ne hu _ _)
  | stash v ch caller c hpc => exact (pending_stashCookie s c).imp_right .inr
  | release v ch caller c cu cs r err actual hpc hlock => exact .inl (pending_releaseSlot s cu cs)
  | pop v ch r sl hpc hlock hfree => exact .inl (pending_setUnit (by rfl))
  | fill v ch r sl sg hpc hsg => exact .inl (pending_setUnit (by rfl))
  | addFailed v ch r sl sg hpc hlock => exact .inl (pending_setUnit (by rfl))
  | add v ch r sl sg q' hpc hlock hadd hq => exact .inl (pending_setUnit (by rfl))
  | account v ch r sl hpc => exact .inl (pending_setUnit (by rfl))
  | giveBack v ch r sl err hpc hlock => exact .inl (pending_setUnit (by rfl))
  | leave v ch call result hpc hlock =>
      left
      split <;> rfl
  | _ => exact .inl rfl

theorem looked_drain (caller : Option SyncCall) : looked (.drain caller) = caller.isSome := by
  cases caller <;> rfl

theorem looked_handle (caller : Option SyncCall) (c : Completion) (what : Handling) :
    looked (.handle caller c what) = caller.isSome := by
  cases caller <;> rfl

theorem looked_commandPc (r : IORequest) : looked (commandPc r) = false := by
  unfold commandPc
  cases r.command <;> rfl

theorem looked_returnPc (call : SyncCall) (result : Int) :
    looked (returnPc call result) = false := by
  unfold returnPc
  split_ifs <;> rfl

theorem looked_doioOutcome (modern : Bool) (call : SyncCall) (r : Response) :
    looked (.sync (doioOutcome modern call r).1 (doioOutcome modern call r).2) = false := by
  unfold doioOutcome
  dsimp only
  split_ifs <;> rfl

/-- A `DoIO` looks for a stashed completion at the top of the drain loop. -/
theorem Move.looked_of (hm : s.Move (.task u ch) s') (h : looked (s'.pc u) = true) :
    looked (s.pc u) = true ∨ ∃ call, s.pc u = .sync call .enter := by
  cases hm with
  | quiet _ _ _ hq =>
      cases hq with
      | drained call hpc hlock hempty =>
          rcases hpc with hpc | ⟨call, -, hpc⟩
          · left
            rw [hpc]
            rfl
          · exact .inr ⟨call, hpc⟩
      | wakeUp hpc hsig =>
          rw [goto_pc_self] at h
          split at h <;> cases h
      | noMessage hpc hport =>
          rw [goto_pc_self] at h
          split at h <;> cases h
      | message r rest hpc hport =>
          rw [goto_pc_self, looked_commandPc] at h
          cases h
      | handler r p hpc hp =>
          rw [goto_pc_self] at h
          rcases hp with ⟨_, _, rfl⟩ | ⟨_, _, rfl⟩ <;> cases h
      | woken call at_ hpc hsig hat =>
          left
          rw [hpc]
          rfl
      | polled call left hpc hempty =>
          rw [goto_pc_self] at h
          split at h <;> cases h
      | _ =>
          rw [goto_pc_self] at h
          cases h
  | take _ _ caller serial x len q' hpc =>
      rw [goto_pc_self, looked_handle] at h
      rcases hpc with hpc | ⟨call, -, hpc⟩
      · left
        rwa [hpc, looked_drain]
      · exact .inr ⟨call, hpc⟩
  | stash _ _ caller c hpc =>
      rw [goto_pc_self, looked_drain] at h
      left
      rcases hpc with ⟨rfl, -, -⟩ | hpc
      · cases h
      · rwa [hpc, looked_handle]
  | found _ _ caller c cu cs r hpc hlookup =>
      rw [goto_pc_self, looked_handle] at h
      left
      rwa [hpc, looked_handle]
  | foreign _ _ call c hpc hlookup =>
      left
      rw [hpc]
      rfl
  | release _ _ caller c cu cs r err actual hpc hlock =>
      rw [goto_pc_self, looked_handle] at h
      left
      rwa [hpc, looked_handle]
  | reply _ _ caller c r err actual hpc =>
      rw [goto_pc_self, looked_drain] at h
      left
      rwa [hpc, looked_handle]
  | coalesce _ _ hpc =>
      rw [Config.coalesce, goto_pc_self] at h
      split at h <;> cases h
  | account _ _ r sl hpc =>
      rw [submitAccount, goto_pc_self] at h
      cases h
  | mark _ _ call hpc =>
      rw [doioMark, goto_pc_self] at h
      split at h <;> cases h
  | giveUp _ _ call hpc =>
      rw [doioCheck, goto_pc_self] at h
      cases h
  | accept _ _ call c hpc =>
      rw [doioCheck, goto_pc_self] at h
      rw [looked_doioOutcome] at h
      cases h
  | leave _ _ call result hpc hlock =>
      rw [goto_pc_self, looked_returnPc] at h
      cases h
  | _ =>
      rw [goto_pc_self] at h
      cases h

theorem Move.ioSig_looked (hm : s.Move e s') (hlooked : looked (s'.pc u) = true)
    (h : s.ioSig u = true) : s'.ioSig u = true := by
  by_cases hother : ∃ ch, e = .task u ch
  case neg => exact hm.ioSig (not_exists.mp hother) h
  obtain ⟨ch, rfl⟩ := hother
  cases hm with
  | quiet _ _ _ hq =>
      cases hq with
      | wakeUp hpc hsig =>
          rw [goto_pc_self] at hlooked
          split at hlooked <;> cases hlooked
      | woken call at_ hpc hsig hat =>
          rw [goto_pc_self, hat] at hlooked
          split at hlooked <;> cases hlooked
      | clear call taken hpc =>
          rw [goto_pc_self] at hlooked
          cases hlooked
      | _ => exact h
  | stash _ _ caller c hpc => exact ioSig_stashCookie c h
  | release _ _ caller c cu cs r err actual hpc hlock =>
      exact (congrFun (ioSig_releaseSlot s cu cs) u).trans h
  | leave _ _ call result hpc hlock => split <;> exact h
  | _ => exact h

theorem Core.enter_picks (h : s.Core) {call : SyncCall} (hpc : s.pc u = .sync call .enter)
    (hpending : (s.unit u).doioPending ≠ none) (hstep : s.step (.task u ch) = some s') :
    looked (s'.pc u) = false := by
  obtain ⟨c, hc⟩ := Option.ne_none_iff_exists'.mp hpending
  have hcookie : c.cookie = reqBuf u := by
    have howned := h.custody.chain_cookie _ _ (h.custody.pending_owned u c hc)
    rw [(h.custody.pending_taken u c hc).1, Option.some.injEq] at howned
    exact howned
  have htask := task_step hstep
  unfold taskStep at htask
  rw [hpc] at htask
  dsimp only [doioStep, doioEnter] at htask
  rw [hc] at htask
  dsimp only at htask
  rw [if_pos hcookie] at htask
  split_ifs at htask
  cases htask
  rw [goto_pc_self]
  rfl

theorem StashSignalled.step (h : s.StashSignalled) (hcore : s.Core)
    (hstep : s.step e = some s') : s'.StashSignalled := by
  intro u hpending' hlooked'
  have hm := hcore.move_of_step hstep
  rcases hm.pending u with hsame | hnone | hsig
  · rw [hsame] at hpending'
    have hlooked : looked (s.pc u) = true := by
      by_cases hother : ∃ ch, e = .task u ch
      case neg => rwa [hm.pc (not_exists.mp hother)] at hlooked'
      obtain ⟨ch, rfl⟩ := hother
      rcases hm.looked_of hlooked' with hold | ⟨call, hpc⟩
      · exact hold
      · rw [hcore.enter_picks hpc hpending' hstep] at hlooked'
        cases hlooked'
    exact hm.ioSig_looked hlooked' (h u hpending' hlooked)
  · exact absurd hnone hpending'
  · exact hsig

/-! ## Ports -/

/-- A task that will look at its port before it waits again, where `sigsPort`
tells whether it was woken for the port. -/
def reads (sigsPort : Bool) : Pc → Bool
  | .wait => false
  | .drain none => sigsPort
  | .handle none _ _ => sigsPort
  | .coalesce => sigsPort
  | .kick => false
  | _ => true

def Watching (s : Config) (u : UnitNum) : Prop :=
  s.port u ≠ [] → s.portSig u = true ∨ reads (s.sigsPort u) (s.pc u) = true

/-- A message in a port is signalled, or will be read. -/
def PortWatched (s : Config) : Prop :=
  ∀ u, s.Watching u

theorem Watching.of_reads (h : reads (s.sigsPort u) (s.pc u) = true) : s.Watching u :=
  fun _ => .inr h

theorem Watching.keep (h : s.Watching u) (hport : s'.port u = s.port u)
    (hsig : s'.portSig u = s.portSig u)
    (hreads : reads (s.sigsPort u) (s.pc u) = true → reads (s'.sigsPort u) (s'.pc u) = true) :
    s'.Watching u := by
  intro hmessage
  rw [hport] at hmessage
  rw [hsig]
  exact (h hmessage).imp_right hreads

theorem Move.port_other (hm : s.Move e s') (hother : ∀ ch, e ≠ .task u ch) :
    (s'.port u = s.port u ∧ s'.portSig u = s.portSig u ∧ s'.sigsPort u = s.sigsPort u) ∨
      s'.portSig u = true := by
  have hne : ∀ v ch, e = .task v ch → u ≠ v := by
    rintro v ch rfl rfl
    exact hother ch rfl
  cases hm with
  | quiet v ch s' hq =>
      have hu := hne v ch rfl
      left
      cases hq with
      | wakeUp hpc hsig =>
          exact ⟨rfl, Function.update_of_ne hu _ _, Function.update_of_ne hu _ _⟩
      | message r rest hpc hport => exact ⟨Function.update_of_ne hu _ _, rfl, rfl⟩
      | _ => exact ⟨rfl, rfl, rfl⟩
  | stash v ch caller c hpc =>
      left
      unfold stashCookie
      split <;> exact ⟨rfl, rfl, rfl⟩
  | release v ch caller c cu cs r err actual hpc hlock =>
      left
      unfold releaseSlot
      dsimp only
      split <;> exact ⟨rfl, rfl, rfl⟩
  | leave v ch call result hpc hlock =>
      left
      split <;> exact ⟨rfl, rfl, rfl⟩
  | putMsg v r hrun =>
      by_cases hu : u = v
      · right
        rw [hu]
        exact Function.update_self _ _ _
      · exact .inl ⟨Function.update_of_ne hu _ _, Function.update_of_ne hu _ _, rfl⟩
  | _ => exact .inl ⟨rfl, rfl, rfl⟩

theorem reads_drain (b : Bool) (caller : Option SyncCall) :
    reads b (.drain caller) = (caller.isSome || b) := by
  cases caller <;> rfl

theorem reads_handle (b : Bool) (caller : Option SyncCall) (c : Completion) (what : Handling) :
    reads b (.handle caller c what) = (caller.isSome || b) := by
  cases caller <;> rfl

theorem Draining.reads {caller : Option SyncCall} (h : s.Draining u caller) (b : Bool) :
    Config.reads b (s.pc u) = (caller.isSome || b) := by
  rcases h with hpc | ⟨call, rfl, hpc⟩
  · rw [hpc, reads_drain]
  · rw [hpc]
    rfl

theorem reads_commandPc (b : Bool) (r : IORequest) : reads b (commandPc r) = true := by
  unfold commandPc
  cases r.command <;> rfl

theorem reads_returnPc (b : Bool) (call : SyncCall) (result : Int) :
    reads b (returnPc call result) = true := by
  unfold returnPc
  split_ifs <;> rfl

theorem Watching.quiet (h : s.Watching u) (hq : s.Quiet u s') : s'.Watching u := by
  cases hq with
  | wakeUp hpc hsig =>
      intro hmessage
      have hsignal : s.portSig u = true := by
        refine (h hmessage).resolve_right ?_
        rw [hpc]
        exact Bool.false_ne_true
      right
      rw [goto_pc_self]
      have hread : Function.update s.sigsPort u (s.portSig u) u = true := by
        rw [Function.update_self, hsignal]
      split
      · exact hread
      · rfl
  | noMessage hpc hport => exact fun hmessage => absurd hport hmessage
  | message r rest hpc hport =>
      refine .of_reads ?_
      rw [goto_pc_self]
      exact reads_commandPc _ r
  | handler r p hpc hp =>
      refine .of_reads ?_
      rw [goto_pc_self]
      rcases hp with ⟨_, _, rfl⟩ | ⟨_, _, rfl⟩ <;> rfl
  | _ =>
      refine .of_reads ?_
      rw [goto_pc_self]
      rfl

/-- A task that goes on inside a drain loop still watches its port. -/
theorem Watching.goto (h : s.Watching u) (hport : s₁.port = s.port)
    (hsig : s₁.portSig = s.portSig) (hsigs : s₁.sigsPort = s.sigsPort)
    (hreads : reads (s.sigsPort u) p = reads (s.sigsPort u) (s.pc u)) :
    (s₁.goto u p).Watching u := by
  refine h.keep (congrFun hport u) (congrFun hsig u) fun hread => ?_
  have hsigsPort : (s₁.goto u p).sigsPort = s.sigsPort := hsigs
  rw [goto_pc_self, hsigsPort, hreads]
  exact hread

theorem Watching.own (h : s.Watching u) (hm : s.Move (.task u ch) s') : s'.Watching u := by
  cases hm with
  | quiet _ _ _ hq => exact h.quiet hq
  | harvested _ _ hpc hlock hempty =>
      refine h.goto rfl rfl rfl ?_
      rw [hpc]
      rfl
  | take _ _ caller serial x len q' hpc =>
      refine h.goto rfl rfl rfl ?_
      rw [hpc.reads, reads_handle]
  | found _ _ caller c cu cs r hpc hlookup =>
      refine h.goto rfl rfl rfl ?_
      rw [hpc, reads_handle, reads_handle]
  | stash _ _ caller c hpc =>
      have hports : (s.stashCookie c).port = s.port ∧ (s.stashCookie c).portSig = s.portSig ∧
          (s.stashCookie c).sigsPort = s.sigsPort := by
        unfold stashCookie
        split <;> exact ⟨rfl, rfl, rfl⟩
      refine h.goto hports.1 hports.2.1 hports.2.2 ?_
      rcases hpc with ⟨rfl, hpc, -⟩ | hpc <;> rw [hpc, reads_handle, reads_drain]
  | release _ _ caller c cu cs r err actual hpc hlock =>
      have hports : (s.releaseSlot cu cs).port = s.port ∧
          (s.releaseSlot cu cs).portSig = s.portSig ∧
          (s.releaseSlot cu cs).sigsPort = s.sigsPort := by
        unfold releaseSlot
        dsimp only
        split <;> exact ⟨rfl, rfl, rfl⟩
      refine h.goto hports.1 hports.2.1 hports.2.2 ?_
      rw [hpc, reads_handle, reads_handle]
  | reply _ _ caller c r err actual hpc =>
      refine h.goto rfl rfl rfl ?_
      rw [hpc, reads_handle, reads_drain]
  | coalesce _ _ hpc =>
      intro hmessage
      have hwatch := h hmessage
      rw [hpc] at hwatch
      rcases hwatch with hsig | hread
      · exact .inl hsig
      · right
        have hgo : reads (s.sigsPort u) (if s.sigsPort u = true then Pc.dispatch else .wait) =
            true := by
          rw [show s.sigsPort u = true from hread]
          rfl
        rw [Config.coalesce, goto_pc_self]
        exact hgo
  | kick _ _ hpc hlock =>
      intro hmessage
      have hwatch := h hmessage
      rw [hpc] at hwatch
      exact .inl (hwatch.resolve_right Bool.false_ne_true)
  | leave _ _ call result hpc hlock =>
      refine .of_reads ?_
      rw [goto_pc_self]
      exact reads_returnPc _ call result
  | account _ _ r sl hpc =>
      refine .of_reads ?_
      rw [submitAccount, goto_pc_self]
      rfl
  | mark _ _ call hpc =>
      refine .of_reads ?_
      rw [doioMark, goto_pc_self]
      rfl
  | giveUp _ _ call hpc =>
      refine .of_reads ?_
      rw [doioCheck, goto_pc_self]
      rfl
  | accept _ _ call c hpc =>
      refine .of_reads ?_
      rw [doioCheck, goto_pc_self]
      rfl
  | _ =>
      refine .of_reads ?_
      rw [goto_pc_self]
      rfl

theorem PortWatched.move (h : s.PortWatched) (hm : s.Move e s') : s'.PortWatched := by
  intro u
  by_cases hother : ∃ ch, e = .task u ch
  case neg =>
    have hne := not_exists.mp hother
    rcases hm.port_other hne with ⟨hport, hsig, hsigs⟩ | hsig
    · refine (h u).keep hport hsig ?_
      rw [hsigs, hm.pc hne]
      exact id
    · exact fun _ => .inl hsig
  obtain ⟨ch, rfl⟩ := hother
  exact (h u).own hm

/-! ## Steps that are possible -/

/-- Where a task waits for a signal. -/
def waits : Pc → Bool
  | .wait => true
  | .sync _ .wait => true
  | _ => false

theorem drain_isSome (hq : s.queue.Ok) (hlock : s.ioLock = none) (caller : Option SyncCall) :
    (s.drain u caller).isSome := by
  unfold drain
  rw [if_pos hlock]
  rcases getBuf_cases hq with ⟨hget, -⟩ | ⟨serial, x, len, q', hget, -, -⟩
  · rw [hget]
    cases caller <;> rfl
  · rw [hget]
    cases caller with
    | none => rfl
    | some call =>
        dsimp only
        split <;> rfl

theorem handleTaken_isSome (hlock : s.ioLock = none) (caller : Option SyncCall) (c : Completion)
    (what : Handling) : (s.handleTaken u caller c what).isSome := by
  cases what with
  | stash =>
      unfold handleTaken
      dsimp only
      rw [if_pos hlock]
      rfl
  | release cu cs r err actual =>
      unfold handleTaken
      dsimp only
      rw [if_pos hlock]
      rfl
  | _ => rfl

theorem submitStep_isSome (hlock : s.ioLock = none) (at_ : SubmitAt) :
    (s.submitStep u ch at_).isSome := by
  cases at_ with
  | pop r =>
      show (s.submitPop u r).isSome
      unfold submitPop
      rw [if_pos hlock]
      split <;> rfl
  | add r sl sg =>
      show (s.submitAdd u r sl sg ch.env).isSome
      unfold submitAdd
      rw [if_pos hlock]
      dsimp only
      split <;> rfl
  | giveBack r sl err =>
      show (s.submitReleaseSlot u r sl err).isSome
      unfold submitReleaseSlot
      rw [if_pos hlock]
      rfl
  | _ => rfl

theorem doioStep_isSome (hq : s.queue.Ok) (hlock : s.ioLock = none) (call : SyncCall)
    (at_ : SyncAt) (hwaits : waits (.sync call at_) = false) :
    (s.doioStep u ch call at_).isSome := by
  cases at_ with
  | add sg =>
      show (s.doioAdd u call sg ch.env).isSome
      unfold doioAdd
      rw [if_pos hlock]
      dsimp only
      split <;> rfl
  | enter =>
      show (s.doioEnter u call).isSome
      unfold doioEnter
      rw [if_pos hlock]
      split
      · split
        · rfl
        · exact drain_isSome hq hlock _
      · exact drain_isSome hq hlock _
  | wait => cases hwaits
  | poll left =>
      show (s.doioPoll u call left).isSome
      unfold doioPoll
      rcases getBuf_cases hq with ⟨hget, -⟩ | ⟨serial, x, len, q', hget, -, -⟩ <;> rw [hget] <;> rfl
  | leave result =>
      show (s.doioLeave u call result).isSome
      unfold doioLeave
      dsimp only
      rw [if_pos hlock]
      split <;> rfl
  | _ => rfl

/-- With the lock free, a task that does not wait for a signal can step. -/
theorem taskStep_isSome (hq : s.queue.Ok) (hlock : s.ioLock = none)
    (hwaits : waits (s.pc u) = false) (ch : Choice) : (s.taskStep u ch).isSome := by
  unfold taskStep
  generalize s.pc u = p at hwaits
  cases p with
  | wait => cases hwaits
  | drain caller => exact drain_isSome hq hlock caller
  | handle caller c what => exact handleTaken_isSome hlock caller c what
  | submit at_ => exact submitStep_isSome hlock at_
  | sync call at_ => exact doioStep_isSome hq hlock call at_ hwaits
  | kick =>
      dsimp only
      unfold Config.kick
      rw [if_pos hlock]
      rfl
  | _ => rfl

/-- Who has the lock can step. -/
theorem taskStep_locked (hlocked : (s.standing u).locked = true) (ch : Choice) :
    (s.taskStep u ch).isSome := by
  unfold standing at hlocked
  unfold taskStep
  generalize s.pc u = p at hlocked
  cases p with
  | coalesce => rfl
  | submit at_ =>
      cases at_ with
      | account r sl => rfl
      | _ => cases hlocked
  | sync call at_ =>
      cases at_ with
      | mark => rfl
      | clear taken => cases taken <;> cases hlocked
      | check taken => cases taken <;> cases hlocked
      | _ => cases hlocked
  | _ => cases hlocked

/-- Nothing is left to do: no task can step, no interrupt is pending, and the
device, which looks at the available ring when it was notified, has nothing to
fetch, to complete or to signal. -/
structure AtRest (s : Config) : Prop where
  tasks : ∀ u ch, s.step (.task u ch) = none
  interrupt : s.step .interrupt = none
  fetch : s.queue.dev.notified = true → s.step .fetch = none
  complete : ∀ i len r, s.step (.complete i len r) = none
  signal : s.step .signal = none

theorem AtRest.taskStep (h : s.AtRest) (hrunning : s.running = true) (u : UnitNum) (ch : Choice) :
    s.taskStep u ch = none := by
  have hstep := h.tasks u ch
  unfold step at hstep
  dsimp only at hstep
  rwa [if_pos hrunning] at hstep

theorem AtRest.unlocked (h : s.AtRest) (hcore : s.Core) (hrunning : s.running = true) :
    s.ioLock = none := by
  by_contra hlock
  obtain ⟨u, hu⟩ := Option.ne_none_iff_exists'.mp hlock
  have hstep := taskStep_locked ((hcore.locks u).mpr hu) {}
  rw [h.taskStep hrunning u] at hstep
  cases hstep

/-- At rest every task waits for a signal that it does not have. -/
theorem AtRest.waiting (h : s.AtRest) (hcore : s.Core) (hrunning : s.running = true)
    (u : UnitNum) : (s.pc u = .wait ∧ s.ioSig u = false ∧ s.portSig u = false) ∨
      ∃ call, s.pc u = .sync call .wait ∧ s.ioSig u = false := by
  have hlock := h.unlocked hcore hrunning
  have hstuck := h.taskStep hrunning u {}
  have hwaits : waits (s.pc u) = true := by
    by_contra hno
    have hstep := taskStep_isSome hcore.queue hlock (Bool.eq_false_iff.mpr hno) {}
    rw [hstuck] at hstep
    cases hstep
  unfold Config.taskStep at hstuck
  cases hpc : s.pc u with
  | wait =>
      rw [hpc] at hstuck
      dsimp only [wakeUp] at hstuck
      split_ifs at hstuck with hsig
      rw [Bool.or_eq_true, not_or, Bool.not_eq_true, Bool.not_eq_true] at hsig
      exact .inl ⟨rfl, hsig⟩
  | sync call at_ =>
      rw [hpc] at hwaits hstuck
      cases at_ with
      | wait =>
          dsimp only [doioStep, doioWait] at hstuck
          split_ifs at hstuck with hsig
          exact .inr ⟨call, rfl, Bool.eq_false_iff.mpr hsig⟩
      | _ => cases hwaits
  | _ =>
      rw [hpc] at hwaits
      cases hwaits

theorem AtRest.isr (h : s.AtRest) (hirq : s.setup.irqInstalled = true) :
    s.queue.dev.isr = false := by
  have hstep : s.interruptHandler = none := h.interrupt
  unfold interruptHandler at hstep
  rw [hirq, Bool.true_and] at hstep
  split_ifs at hstep with hisr
  exact Bool.eq_false_iff.mpr hisr

theorem AtRest.asleep (h : s.AtRest) (hcore : s.Core) (hrunning : s.running = true)
    (hirq : s.setup.irqInstalled = true) : ¬ s.Awake := by
  rintro (hraised | ⟨v, hsig | hattends⟩)
  · rw [h.isr hirq] at hraised
    cases hraised
  · rcases h.waiting hcore hrunning v with ⟨-, hnone, -⟩ | ⟨call, -, hnone⟩ <;>
    · rw [hnone] at hsig
      cases hsig
  · rcases h.waiting hcore hrunning v with ⟨hpc, -, -⟩ | ⟨call, hpc, -⟩ <;>
    · rw [hpc] at hattends
      cases hattends

theorem AtRest.seen (h : s.AtRest) (hcore : s.Core) (hrunning : s.running = true)
    (hannounced : s.Announced) : s.queue.hist.seen.length = s.queue.hist.added.length := by
  have hnone : ¬ ∃ u, s.Owes u := by
    rintro ⟨u, howes⟩
    unfold Owes at howes
    rcases h.waiting hcore hrunning u with ⟨hpc, -, -⟩ | ⟨call, hpc, -⟩ <;>
    · rw [hpc] at howes
      exact howes
  rcases hannounced.resolve_right hnone with hnotified | hseen
  · have hfetch : s.queue.fetch = none := Option.map_eq_none_iff.mp (h.fetch hnotified)
    obtain ⟨free, chain, hi⟩ := hcore.queue
    unfold RequestQueue.fetch at hfetch
    split at hfetch
    · next hempty =>
      rw [deviceLoad_two] at hempty
      exact hi.avail_empty_iff.mp hempty
    · cases hfetch
  · exact hseen

theorem AtRest.pending (h : s.AtRest) (hcore : s.Core) : s.queue.dev.pending = [] := by
  obtain ⟨free, chain, hi⟩ := hcore.queue
  by_contra hne
  obtain ⟨⟨serial, head⟩, rest, hpending⟩ := List.exists_cons_of_ne_nil hne
  obtain ⟨cookie, hadded⟩ := hi.ledger.added_of_pending (p := (serial, head)) (by
    rw [hpending]
    exact List.mem_cons_self)
  have hstep : s.deviceComplete 0 0 ⟨0, 0, 0, 0⟩ = none := h.complete 0 0 ⟨0, 0, 0, 0⟩
  unfold deviceComplete RequestQueue.complete at hstep
  simp only [hpending, List.getElem?_cons_zero, hadded] at hstep
  cases hstep

theorem AtRest.batch (h : s.AtRest) : s.queue.dev.batch = 0 := by
  have hstep : s.queue.signal = none := Option.map_eq_none_iff.mp h.signal
  unfold RequestQueue.signal at hstep
  dsimp only at hstep
  split at hstep
  · next hbatch => exact hbatch
  · cases hstep

/-! ## Runs -/

structure Orderly (s : Config) : Prop where
  wakeful : s.Wakeful
  traced : s.custody.Traced
  stash : s.StashSignalled
  ports : s.PortWatched

/-- Every step that keeps the wake-ups keeps the whole system in order. -/
theorem Orderly.step (h : s.Orderly) (hguard : s.KeepsWakeUps e) (hstep : s.step e = some s') :
    s'.Orderly := by
  have hcore := h.wakeful.core
  have hm := hcore.move_of_step hstep
  exact
    { wakeful := h.wakeful.step hguard hstep
      traced := h.traced.step hcore.custody (hcore.custody_step hguard.1 hm) (hcore.forwards hstep)
      stash := h.stash.step hcore hstep
      ports := h.ports.move hm }

theorem orderly_initial {setup : Setup} (hirq : setup.irqInstalled = true) :
    (initial setup).Orderly where
  wakeful := wakeful_initial hirq
  traced := fun _ _ hchain => by cases hchain
  stash := fun _ hpending => absurd rfl hpending
  ports := fun _ hmessage => absurd rfl hmessage

/-- At rest no request is left on the rings. -/
theorem AtRest.drained (h : s.AtRest) (hwakeful : s.Wakeful) (hrunning : s.running = true) :
    s.queue.hist.live = [] :=
  hwakeful.live_eq_nil hrunning (h.asleep hwakeful.core hrunning hwakeful.irq)
    (h.seen hwakeful.core hrunning hwakeful.announced) (h.pending hwakeful.core) h.batch

/-- At rest no task is inside a `DoIO`. -/
theorem AtRest.idle (h : s.AtRest) (hkept : s.Orderly) (hrunning : s.running = true)
    (u : UnitNum) : s.pc u = .wait ∧ s.portSig u = false := by
  have hwaiting := h.waiting hkept.wakeful.core hrunning
  have hheld : ∀ t, s.custody.held t = none := by
    intro t
    rcases hwaiting t with ⟨hpc, -, -⟩ | ⟨call, hpc, -⟩ <;>
      exact congrArg Standing.held (standing_of hpc)
  rcases hwaiting u with ⟨hpc, -, hport⟩ | ⟨call, hpc, hsig⟩
  · exact ⟨hpc, hport⟩
  · exfalso
    have hpending := pending_of_awaiting hkept.traced hpc rfl
      (h.drained hkept.wakeful hrunning) hheld
    have hsignal := hkept.stash u hpending (by rw [hpc]; rfl)
    rw [hsig] at hsignal
    cases hsignal

/-- Without a chain and with every task idle, no slot holds a request. -/
theorem Core.slots_free (h : s.Core) (hidle : ∀ u, s.pc u = .wait)
    (hlive : s.queue.hist.live = []) (u : UnitNum) (sl : Slot) :
    ((s.unit u).inflight sl).ioreq = none := by
  have hnone : ∀ t, s.holds t = false := by
    intro t
    unfold holds
    rw [hidle t]
  have hstanding : s.standing u = {} := standing_of (hidle u)
  have hcookie : ((s.unit u).inflight sl).cookie = none := by
    by_contra hsome
    have hchain : s.custody.chain (.slot u sl) = some ((s.unit u).inflight sl).serial := by
      refine slotChain_eq_some.mpr ⟨hsome, ?_, rfl⟩
      rw [view, hstanding]
      intro hfilling
      cases hfilling
    have hmem := h.live_of_slot hnone hchain
    rw [hlive] at hmem
    cases hmem
  exact ((h.units u).request sl).mpr hcookie

/-- With every task idle, every port empty and every slot free, a request is
where it was replied. -/
theorem share_idle (hidle : ∀ u, s.pc u = .wait) (hport : ∀ u, s.port u = [])
    (hfree : ∀ u sl, ((s.unit u).inflight sl).ioreq = none) (r : IORequest) :
    s.share r = s.replies r := by
  have htasks : ∀ u, (s.pc u).share r = 0 := by
    intro u
    rw [hidle u]
    rfl
  have hports : ∀ u, (s.port u).count r = 0 := by
    intro u
    rw [hport u]
    rfl
  have hunits : ∀ u, (s.unit u).share r = 0 := by
    intro u
    refine Finset.sum_eq_zero fun sl _ => ?_
    rw [hfree u sl]
    rfl
  unfold share stock
  simp only [htasks, hports, hunits, Finset.sum_const_zero, zero_add]

/-- With the interrupt installed, in a run that keeps its wake-ups, the driver
comes to rest only when its work is done: every task waits in the event loop,
every port is empty, every slot is free, and every request was replied as often
as it was put to a unit. -/
theorem rest_answered (setup : Setup) (hirq : setup.irqInstalled = true)
    (events : List Event) (s : Config)
    (hrun : GuardedRun.run Config.step (initial setup) events = some s)
    (hobeys : GuardedRun.Obeys Config.step KeepsWakeUps (initial setup) events)
    (hrunning : s.running = true) (hrest : s.AtRest) :
    (∀ u, s.pc u = .wait ∧ s.port u = []) ∧
      (∀ u sl, ((s.unit u).inflight sl).ioreq = none) ∧
      ∀ r, s.replies r = (events.map (Event.puts r)).sum := by
  have hkept : s.Orderly := GuardedRun.invariant
    (fun _ _ _ h hguard hstep => h.step hguard hstep) hobeys (orderly_initial hirq) hrun
  have hidle : ∀ u, s.pc u = .wait := fun u => (hrest.idle hkept hrunning u).1
  have hport : ∀ u, s.port u = [] := by
    intro u
    by_contra hmessage
    rcases hkept.ports u hmessage with hsig | hreads
    · rw [(hrest.idle hkept hrunning u).2] at hsig
      cases hsig
    · rw [hidle u] at hreads
      cases hreads
  have hlive := hrest.drained hkept.wakeful hrunning
  have hfree := hkept.wakeful.core.slots_free hidle hlive
  refine ⟨fun u => ⟨hidle u, hport u⟩, hfree, fun r => ?_⟩
  rw [← share_idle hidle hport hfree r]
  exact share_run (hobeys.mono fun _ _ hguard => hguard.1) hrun r

theorem AtRest.of_blocked (hblocked : s.AllBlocked) (hisr : s.queue.dev.isr = false)
    (hquiet : s.queue.Quiet) : s.AtRest := by
  obtain ⟨hnotified, hpending, hbatch⟩ := hquiet
  refine
    { tasks := ?_, interrupt := ?_, fetch := ?_, complete := ?_, signal := ?_ }
  · intro u ch
    obtain ⟨hpc, hio, hport⟩ := hblocked u
    have hstuck : s.taskStep u ch = none := by
      unfold Config.taskStep
      rw [hpc]
      dsimp only [wakeUp]
      rw [hio, hport]
      rfl
    unfold step
    dsimp only
    rw [hstuck, ite_self]
  · show s.interruptHandler = none
    unfold interruptHandler
    rw [hisr, Bool.and_false]
    rfl
  · intro hnotify
    rw [hnotified] at hnotify
    cases hnotify
  · intro i len r
    show s.deviceComplete i len r = none
    unfold deviceComplete
    rw [hpending, List.getElem?_nil]
  · show s.queue.signal.map _ = none
    unfold RequestQueue.signal
    dsimp only
    rw [if_pos hbatch]
    rfl

/-- Two reads, answered: at rest each has its one reply. -/
theorem rest_answered_twoReadsAnswered :
    ∃ s, GuardedRun.run Config.step (initial (sampleSetup true true))
        twoReadsAnswered = some s ∧
      (∀ u, s.pc u = .wait ∧ s.port u = []) ∧
        (∀ u sl, ((s.unit u).inflight sl).ioreq = none) ∧
        ∀ r, s.replies r = (twoReadsAnswered.map (Event.puts r)).sum := by
  have hend : (GuardedRun.run Config.step (initial (sampleSetup true true))
      twoReadsAnswered).map (fun s => decide (s.running = true ∧ s.AllBlocked ∧
        s.queue.dev.isr = false ∧ s.queue.Quiet)) = some true := by
    decide +kernel
  have hobeys : GuardedRun.Obeys Config.step KeepsWakeUps
      (initial (sampleSetup true true)) twoReadsAnswered := by
    decide +kernel
  obtain ⟨s, hrun, hs⟩ := Option.map_eq_some_iff.mp hend
  obtain ⟨hrunning, hblocked, hisr, hquiet⟩ := of_decide_eq_true hs
  exact ⟨s, hrun, rest_answered _ rfl _ s hrun hobeys hrunning
    (.of_blocked hblocked hisr hquiet)⟩

end Config
end VirtioScsi
