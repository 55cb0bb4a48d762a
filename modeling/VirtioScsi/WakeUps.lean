import VirtioScsi.BufferExclusion
import VirtioScsi.Coalescing
import VirtioScsi.Notifications
import VirtioScsi.PollingFallback
import VirtioScsi.SyncTimeout

/-!
# Wake-ups

Signals are sticky bits.  As long as the used ring holds completions whose
interrupt was given, some task is signalled or draining, or the interrupt is
pending: otherwise everybody sleeps on a ring that is not empty.
-/

namespace VirtioScsi

namespace RequestQueue

variable {α : Type*} {q q' : RequestQueue α} {free : List (BitVec 16)}
  {chain : BitVec 16 → List (BitVec 16)} {cookie : α} {serial : ℕ}
  {x : BitVec 16 × α} {len : BitVec 32}

def backlog (q : RequestQueue α) : ℕ :=
  q.hist.published.length - q.hist.returned.length

def threshold (q : RequestQueue α) : ℕ :=
  if q.vq.useEventIdx then q.ahead else 0

/-- The interrupt for the completions in the ring is not given yet. -/
def Expected (q : RequestQueue α) : Prop :=
  q.backlog ≤ q.threshold + q.dev.batch

instance Expected.decidable (q : RequestQueue α) : Decidable q.Expected :=
  inferInstanceAs (Decidable (_ ≤ _))

instance Quiet.decidable (q : RequestQueue α) : Decidable q.Quiet :=
  inferInstanceAs (Decidable (_ ∧ _ ∧ _))

theorem expected_of_drained
    (h : q.hist.returned.length = q.hist.published.length) : q.Expected := by
  unfold Expected backlog
  omega

theorem Expected.mono (h : q.Expected) (hbacklog : q'.backlog = q.backlog)
    (hthreshold : q.threshold ≤ q'.threshold)
    (hbatch : q'.dev.batch = q.dev.batch) : q'.Expected := by
  unfold Expected at h ⊢
  rw [hbacklog, hbatch]
  omega

theorem AddedTo.expected (hadd : q.AddedTo q' cookie) (hi : q.Inv free chain)
    (h : q.Expected) : q'.Expected := by
  refine h.mono ?_ ?_ ?_
  · unfold backlog
    rw [hadd.hist]
  · unfold threshold
    rw [hadd.vring.setup.useEventIdx, hadd.ahead hi]
  · rw [hadd.dev]

theorem Inv.expected_complete (hi : q.Inv free chain) {i : ℕ}
    (hcomplete : q.complete i len = some q') (h : q.Expected) : q'.Expected := by
  obtain ⟨_, _, -, hhist, hdev, hvq, -⟩ := hi.complete hcomplete
  have hahead : q'.ahead = q.ahead :=
    ahead_congr (by rw [hvq]; rfl) (by rw [hvq])
  have hthreshold : q'.threshold = q.threshold := by
    unfold threshold
    rw [hahead, hvq]
  unfold Expected backlog at h ⊢
  rw [hthreshold, hhist, hdev, List.length_append, List.length_singleton]
  dsimp only
  omega

theorem Inv.expected_signal (hi : q.Inv free chain)
    (hsignal : q.signal = some q') (h : q.Expected) :
    q'.Expected ∨ q'.dev.isr = true := by
  obtain ⟨-, raise, rfl, hraise⟩ := signal_cases hsignal
  by_cases hle : q.backlog ≤ q.threshold
  · exact .inl hle
  · right
    have hindex : vr16 q.vq.modern q.vq.used.idx =
        q.vq.lastUsedIdx + BitVec.ofNat 16 q.backlog := by
      have hreturned := hi.ledger.returned_le
      rw [hi.rings.usedIdx, hi.rings.lastUsedIdx, ← BitVec.ofNat_add]
      unfold backlog
      rw [Nat.add_sub_of_le hreturned]
    have hsmall : q.backlog < 2 ^ 16 := by
      have hbound := hi.counter_bound
      have hpublished := hi.ledger.published_le
      have hseen := hi.ledger.seen_le
      unfold backlog
      omega
    have htrue : raise = true := by
      rw [hraise]
      split
      · next hevent =>
        unfold Expected threshold at h
        unfold threshold at hle
        rw [if_pos hevent] at h hle
        rw [hindex]
        exact crossed_of_ahead h (by omega) hsmall
      · rfl
    simp [htrue]

end RequestQueue

/-- Where a task looks at the used ring, or is about to clear its signal. -/
def Pc.attends : Pc → Bool
  | .drain _ => true
  | .handle _ _ _ => true
  | .sync _ .enter => true
  | .sync _ (.clear _) => true
  | _ => false

def Pc.clears : Pc → Bool
  | .sync _ (.clear _) => true
  | _ => false

namespace Config

open RequestQueue

variable {s s₁ s' : Config} {t u v : UnitNum} {e : Event} {ch : Choice} {p : Pc}

def Attending (s : Config) (v : UnitNum) : Prop :=
  s.ioSig v = true ∨ (s.pc v).attends = true

instance Attending.decidable (s : Config) (v : UnitNum) : Decidable (s.Attending v) :=
  inferInstanceAs (Decidable (_ ∨ _))

/-- Some task will look at the used ring, or the interrupt is pending. -/
def Awake (s : Config) : Prop :=
  s.queue.dev.isr = true ∨ ∃ v, s.Attending v

instance Awake.decidable (s : Config) : Decidable s.Awake :=
  inferInstanceAs (Decidable (_ ∨ _))

theorem ioSig_stashCookie (c : Completion) (h : s.ioSig v = true) :
    (s.stashCookie c).ioSig v = true := by
  unfold stashCookie
  split
  · exact h
  · next w _ =>
    by_cases hv : v = w
    · simp [hv]
    · simpa [hv] using h

theorem ioSig_releaseSlot (s : Config) (cu : UnitNum) (cs : Slot) :
    (s.releaseSlot cu cs).ioSig = s.ioSig := by
  unfold releaseSlot
  dsimp only
  split <;> rfl

theorem Move.ioSig (hm : s.Move e s') (hother : ∀ ch, e ≠ .task v ch)
    (h : s.ioSig v = true) : s'.ioSig v = true := by
  have hne : ∀ u ch, e = .task u ch → v ≠ u := by
    rintro u ch rfl rfl
    exact hother ch rfl
  cases hm with
  | quiet u ch s' hq =>
      have hv := hne u ch rfl
      cases hq with
      | wakeUp hpc hsig => simpa [goto, hv] using h
      | woken call at_ hpc hsig hat => simpa [goto, hv] using h
      | clear call taken hpc => simpa [goto, hv] using h
      | _ => exact h
  | stash u ch caller c hpc => exact ioSig_stashCookie c h
  | release u ch caller c cu cs r err actual hpc hlock =>
      exact (congrFun (ioSig_releaseSlot s cu cs) v).trans h
  | leave u ch call result hpc hlock => split <;> exact h
  | interrupt hirq hisr => simp [h]
  | _ => exact h

theorem Move.attending_other (hm : s.Move e s') (hother : ∀ ch, e ≠ .task v ch)
    (h : s.Attending v) : s'.Attending v := by
  rcases h with hsig | hpc
  · exact .inl (hm.ioSig hother hsig)
  · right
    rwa [hm.pc hother]

theorem Move.ioSig_self (hm : s.Move (.task u ch) s') (h : s.ioSig u = true) :
    s'.Attending u ∨ (s.pc u).clears = true := by
  cases hm with
  | quiet _ _ _ hq =>
      cases hq with
      | wakeUp hpc hsig =>
          left
          right
          rw [goto_pc_self, if_pos h]
          rfl
      | woken call at_ hpc hsig hat =>
          left
          right
          rw [goto_pc_self, hat]
          split <;> rfl
      | clear call taken hpc => exact .inr (by rw [hpc]; rfl)
      | _ => exact .inl (.inl h)
  | stash _ _ caller c hpc => exact .inl (.inl (ioSig_stashCookie c h))
  | release _ _ caller c cu cs r err actual hpc hlock =>
      exact .inl (.inl ((congrFun (ioSig_releaseSlot s cu cs) u).trans h))
  | leave _ _ call result hpc hlock =>
      left
      left
      split <;> exact h
  | _ => exact .inl (.inl h)

theorem Move.attends_self (hm : s.Move (.task u ch) s')
    (h : (s.pc u).attends = true) :
    (s'.pc u).attends = true ∨ (s.pc u).clears = true ∨
      s.queue.hist.returned.length = s.queue.hist.published.length ∧
        s'.queue = s.queue := by
  cases hm with
  | quiet _ _ _ hq =>
      cases hq with
      | drained call hpc hlock hempty => exact .inr (.inr ⟨hempty, rfl⟩)
      | clear call taken hpc => exact .inr (.inl (by rw [hpc]; rfl))
      | _ => exact absurd h (by simp [*, Pc.attends])
  | harvested _ _ hpc hlock hempty => exact .inr (.inr ⟨hempty, rfl⟩)
  | take _ _ caller serial x len q' hpc =>
      rw [goto_pc_self]
      exact .inl rfl
  | takeOwn _ _ call serial x len q' hpc =>
      rw [goto_pc_self]
      exact .inl rfl
  | pick _ _ call c hpc =>
      rw [goto_pc_self]
      exact .inl rfl
  | found _ _ caller c cu cs r hpc =>
      rw [goto_pc_self]
      exact .inl rfl
  | foreign _ _ call c hpc =>
      rw [goto_pc_self]
      exact .inl rfl
  | stash _ _ caller c hpc =>
      rw [goto_pc_self]
      exact .inl rfl
  | release _ _ caller c cu cs r err actual hpc =>
      rw [goto_pc_self]
      exact .inl rfl
  | reply _ _ caller c r err actual hpc =>
      rw [goto_pc_self]
      exact .inl rfl
  | _ => exact absurd h (by simp [*, Pc.attends])

theorem Move.attending_self (hm : s.Move (.task u ch) s') (h : s.Attending u) :
    s'.Attending u ∨ (s.pc u).clears = true ∨
      s.queue.hist.returned.length = s.queue.hist.published.length ∧
        s'.queue = s.queue := by
  rcases h with hsig | hattends
  · rcases hm.ioSig_self hsig with hstays | hclear
    · exact .inl hstays
    · exact .inr (.inl hclear)
  · rcases hm.attends_self hattends with hstays | hleft
    · exact .inl (.inr hstays)
    · exact .inr hleft

/-! ## Completions of slots in the hands of tasks -/

/-- Task `t` took the completion of a slot from the ring and has not released
the slot. -/
def holds (s : Config) (t : UnitNum) : Bool :=
  match s.pc t with
  | .handle _ c .route => (s.lookup c.cookie).isSome
  | .handle _ _ (.release _ _ _ _ _) => true
  | _ => false

theorem handling_of_held {st : Hold} {c : Completion}
    (h : p.standing.held = some (st, c)) :
    st = .done ∨ ∃ caller what, p = .handle caller c what ∧ what.hold = st := by
  cases p with
  | handle caller c' what =>
      cases h
      exact .inr ⟨caller, what, rfl, rfl⟩
  | submit at_ => cases at_ <;> cases h
  | sync call at_ =>
      left
      cases at_ with
      | clear taken =>
          cases taken <;> cases h
          rfl
      | check taken =>
          cases taken <;> cases h
          rfl
      | _ => cases h
  | _ => cases h

theorem Core.live_of_slot (h : s.Core) (hnone : ∀ t, s.holds t = false)
    {sl : Slot} {i : ℕ} (hchain : s.custody.chain (.slot u sl) = some i) :
    i ∈ s.queue.hist.live := by
  rcases h.custody.slot_chain u sl i hchain with hlive | ⟨t, st, c, hheld, rfl, hst⟩
  · exact hlive
  · exfalso
    have hfree := hnone t
    rcases handling_of_held hheld with rfl | ⟨caller, what, hpc, hhold⟩
    · rcases hst with hst | hst <;> cases hst
    · cases what with
      | route =>
          obtain ⟨r, hlookup, -⟩ := h.lookup_slot hchain
          have hcookie : ReqBuf.slot u sl = c.cookie := h.held_owner hheld hchain
          simp [holds, hpc, ← hcookie, hlookup] at hfree
      | stash =>
          subst hhold
          rcases hst with hst | hst <;> cases hst
      | release cu cs r err actual => simp [holds, hpc] at hfree
      | reply r err actual =>
          subst hhold
          rcases hst with hst | hst <;> cases hst

theorem Core.occupied_le (h : s.Core) (hnone : ∀ t, s.holds t = false) :
    s.occupiedCount ≤ s.queue.hist.live.length := by
  have hchain : ∀ u sl, sl ∈ (s.view u).counted →
      s.custody.chain (.slot u sl) = some ((s.unit u).inflight sl).serial := by
    intro u sl hsl
    obtain ⟨hcookie, hfilling, -⟩ := UnitView.mem_counted.mp hsl
    exact if_neg (not_or.mpr ⟨hcookie, hfilling⟩)
  have htotal : s.occupiedCount =
      (Finset.univ.sigma fun u => (s.view u).counted).card := by
    rw [h.total, Finset.card_sigma]
    exact Finset.sum_congr rfl fun u _ => (h.units u).count
  rw [htotal]
  refine (Finset.card_le_card_of_injOn
    (fun x => ((s.unit x.1).inflight x.2).serial) ?_ ?_).trans
      s.queue.hist.live.toFinset_card_le
  · rintro ⟨u, sl⟩ hx
    have hsl := (Finset.mem_sigma.mp hx).2
    exact List.mem_toFinset.mpr (h.live_of_slot hnone (hchain u sl hsl))
  · rintro ⟨u, sl⟩ hx ⟨u', sl'⟩ hx' heq
    have hslot := hchain u sl (Finset.mem_sigma.mp hx).2
    have hslot' := hchain u' sl' (Finset.mem_sigma.mp hx').2
    dsimp only at heq
    rw [← heq] at hslot'
    have huser := h.custody.chain_inj hslot hslot'
    simp only [User.slot.injEq] at huser
    obtain ⟨rfl, rfl⟩ := huser
    rfl

theorem Move.route_of {c : Completion} (hm : s.Move e s')
    (h : (s'.pc v).handling = some (c, .route)) :
    (s.pc v).handling = some (c, .route) ∨
      (s.queue.vq.useEventIdx = true → s'.queue.ahead = 0) := by
  by_cases hother : ∃ ch, e = .task v ch
  case neg =>
    left
    rwa [hm.pc (not_exists.mp hother)] at h
  obtain ⟨ch, rfl⟩ := hother
  cases hm with
  | take _ _ caller serial x len q' hpc hlock htake => exact .inr htake.ahead
  | quiet _ _ _ hq =>
      cases hq with
      | wakeUp hpc hsig =>
          rw [goto_pc_self] at h
          split at h <;> cases h
      | noMessage hpc hport =>
          rw [goto_pc_self] at h
          split at h <;> cases h
      | message r rest hpc hport =>
          rw [goto_pc_self, commandPc_handling] at h
          cases h
      | handler r p hpc hp =>
          rw [goto_pc_self] at h
          rcases hp with ⟨_, _, rfl⟩ | ⟨_, _, rfl⟩ <;> cases h
      | _ =>
          rw [goto_pc_self] at h
          cases h
  | coalesce _ _ hpc =>
      rw [Config.coalesce, goto_pc_self] at h
      split at h <;> cases h
  | accept _ _ call c hpc =>
      rw [doioCheck, goto_pc_self] at h
      cases h
  | leave _ _ call result hpc hlock =>
      rw [goto_pc_self, returnPc_handling] at h
      cases h
  | account _ _ r sl hpc =>
      rw [submitAccount, goto_pc_self] at h
      cases h
  | mark _ _ call hpc =>
      rw [doioMark, goto_pc_self] at h
      cases h
  | giveUp _ _ call hpc =>
      rw [doioCheck, goto_pc_self] at h
      cases h
  | _ =>
      rw [goto_pc_self] at h
      cases h

theorem holds_cases (h : s.holds t = true) :
    (∃ caller c, s.pc t = .handle caller c .route ∧
        (s.lookup c.cookie).isSome = true) ∨
      ∃ caller c cu cs r err actual,
        s.pc t = .handle caller c (.release cu cs r err actual) := by
  cases hpc : s.pc t with
  | handle caller c what =>
      cases what with
      | route =>
          simp only [holds, hpc] at h
          exact .inl ⟨caller, c, rfl, h⟩
      | release cu cs r err actual => exact .inr ⟨caller, c, cu, cs, r, err, actual, rfl⟩
      | _ => simp [holds, hpc] at h
  | _ => simp [holds, hpc] at h

/-- A task gets the completion of a slot into its hands by `GetBuf` only, which
resets the threshold. -/
theorem Core.holds_of (h : s.Core) (hguard : s.SyncExclusive e) (hm : s.Move e s')
    (hholds : s'.holds t = true) :
    s.holds t = true ∨ (s.queue.vq.useEventIdx = true → s'.queue.ahead = 0) := by
  rcases holds_cases hholds with ⟨caller, c, hpc, hlookup⟩ |
    ⟨caller, c, cu, cs, r, err, actual, hpc⟩
  · rcases hm.route_of (v := t) (c := c) (by rw [hpc]; rfl) with hold | htaken
    case inr => exact .inr htaken
    left
    obtain ⟨caller', hpc'⟩ := completing_of_handling hold
    obtain ⟨⟨cu, cs, r⟩, hfound⟩ := Option.isSome_iff_exists.mp hlookup
    have hheld' : s'.custody.held t = some (.routing, c) :=
      congrArg Standing.held (standing_of hpc)
    have hheld : s.custody.held t = some (.routing, c) :=
      congrArg Standing.held (standing_of hpc')
    have hcookie := (h.custody.held_taken t _ c hheld).1
    obtain ⟨hchain', -⟩ := (h.move hguard hm).custody_found hheld' hfound
    have hchain : s.custody.chain (.slot cu cs) = some c.serial := by
      refine ((h.custody_step hguard hm).chain hchain').resolve_right ?_
      rw [hcookie]
      simp
    obtain ⟨r', hr', -⟩ := h.lookup_slot hchain
    have hbuffer : ReqBuf.slot cu cs = c.cookie := h.held_owner hheld hchain
    simp [holds, hpc', ← hbuffer, hr']
  · left
    rcases hm.status_of hpc with ⟨caller', hpc'⟩ | ⟨⟨caller', hpc'⟩, hlookup, -⟩
    · simp [holds, hpc']
    · simp [holds, hpc', hlookup]

/-! ## The threshold -/

/-- An override that leaves completions in the ring without an interrupt
counts no slot whose completion is in the hands of a task. -/
structure ThresholdKept (s : Config) : Prop where
  free : s.queue.vq.useEventIdx = true → s.queue.ahead ≠ 0 → ∀ t, s.holds t = false
  occupied : s.queue.vq.useEventIdx = true → s.queue.ahead ≠ 0 →
    s.queue.ahead < s.occupiedCount
  within : s.queue.vq.useEventIdx = true → s.queue.ahead ≠ 0 →
    s.queue.ahead < s.queue.hist.live.length

/-- `Harvest` overrides `used_event` only while no task has the completion of a
slot in its hands. -/
def OverridesSettled (s : Config) : Event → Prop
  | .task u _ => s.pc u = .coalesce → s.queue.vq.useEventIdx = true →
      2 ≤ s.occupied → ∀ t, s.holds t = false
  | _ => True

instance OverridesSettled.decidable (s : Config) :
    ∀ e, Decidable (s.OverridesSettled e)
  | .task u _ => inferInstanceAs (Decidable (s.pc u = .coalesce → _))
  | .interrupt => isTrue trivial
  | .fetch => isTrue trivial
  | .complete _ _ _ => isTrue trivial
  | .signal => isTrue trivial
  | .rest => isTrue trivial
  | .putMsg _ _ => isTrue trivial
  | .probe _ => isTrue trivial
  | .start => isTrue trivial

theorem Move.occupied (hm : s.Move e s') (hnone : ∀ t, s.holds t = false) :
    s.occupiedCount ≤ s'.occupiedCount := by
  cases hm with
  | quiet u ch s' hq => cases hq <;> exact le_rfl
  | stash u ch caller c hpc =>
      unfold stashCookie
      split <;> exact le_rfl
  | release u ch caller c cu cs r err actual hpc hlock =>
      have hfree := hnone u
      simp [holds, hpc] at hfree
  | account u ch r sl hpc => exact Nat.le_succ _
  | leave u ch call result hpc hlock => split <;> exact le_rfl
  | _ => exact le_rfl

theorem Core.occupied_eq (h : s.Core) (hnone : ∀ t, s.holds t = false) :
    s.occupied = s.occupiedCount := by
  obtain ⟨free, chain, hi⟩ := h.queue
  have hle := h.occupied_le hnone
  have hlive := hi.live_le
  have hsize := hi.table.size
  exact Nat.mod_eq_of_lt (by omega)

theorem ThresholdKept.move (h : s.ThresholdKept) (hcore : s.Core)
    (hguard : s.SyncExclusive e) (hsettled : s.OverridesSettled e)
    (hm : s.Move e s') : s'.ThresholdKept := by
  have hevent := (hm.queue_setup hcore.queue).useEventIdx
  have hfree : s'.queue.vq.useEventIdx = true → s'.queue.ahead ≠ 0 →
      (∀ t, s.holds t = false) → ∀ t, s'.holds t = false := by
    intro hon hahead hnone t
    by_contra hholds
    rcases hcore.holds_of hguard hm (Bool.not_eq_false _ ▸ hholds) with hold | htaken
    · rw [hnone t] at hold
      cases hold
    · exact hahead (htaken (hevent ▸ hon))
  have hbounds : s'.queue.vq.useEventIdx = true → s'.queue.ahead ≠ 0 →
      (∀ t, s.holds t = false) ∧ s'.queue.ahead < s'.occupiedCount ∧
        s'.queue.ahead < s'.queue.hist.live.length := by
    intro hon hahead
    rw [hevent] at hon
    cases hm.threshold hcore.queue with
    | same hsame hlive =>
        rw [hsame] at hahead ⊢
        have hnone := h.free hon hahead
        exact ⟨hnone, (h.occupied hon hahead).trans_le (hm.occupied hnone),
          (h.within hon hahead).trans_le hlive⟩
    | taken htaken => exact absurd (htaken hon) hahead
    | coalesced u ch he hpc hs =>
        subst he hs
        rw [ahead_coalesce] at hahead ⊢
        rw [live_coalesce]
        split at hahead
        · next hover =>
          rw [if_pos hover]
          have hnone := hsettled hpc hon hover.2
          have hle := hcore.occupied_le hnone
          rw [hcore.occupied_eq hnone] at hover ⊢
          exact ⟨hnone, by dsimp only [Config.coalesce, goto]; omega, by omega⟩
        · next hover =>
          rw [if_neg hover]
          exact ⟨h.free hon hahead, h.occupied hon hahead, h.within hon hahead⟩
  exact
    { free := fun hon hahead => hfree hon hahead (hbounds hon hahead).1
      occupied := fun hon hahead => (hbounds hon hahead).2.1
      within := fun hon hahead => (hbounds hon hahead).2.2 }

/-! ## Waking -/

/-- No wake-up is spent while completions without an interrupt to come are in
the ring and nobody else looks at it: not by the `SetSignal` of `DoIO`, not by
an interrupt that signals no unit, and not before the tasks start. -/
def WakesKept (s : Config) : Event → Prop
  | .task u _ => (s.pc u).clears = true →
      s.queue.dev.isr = true ∨ (∃ v, v ≠ u ∧ s.Attending v) ∨ s.queue.Expected
  | .interrupt => s.running = true →
      s.activeUnitsMask ≠ 0 ∨ (∃ v, s.Attending v) ∨ s.queue.Expected
  | .start => s.Awake ∨ s.queue.Expected
  | _ => True

instance WakesKept.decidable (s : Config) : ∀ e, Decidable (s.WakesKept e)
  | .task u _ => inferInstanceAs (Decidable ((s.pc u).clears = true → _))
  | .interrupt => inferInstanceAs (Decidable (s.running = true → _))
  | .start => inferInstanceAs (Decidable (_ ∨ _))
  | .fetch => isTrue trivial
  | .complete _ _ _ => isTrue trivial
  | .signal => isTrue trivial
  | .rest => isTrue trivial
  | .putMsg _ _ => isTrue trivial
  | .probe _ => isTrue trivial

theorem Move.running (hm : s.Move e s') (hrun : s'.running = true) :
    s.running = true ∨ e = .start := by
  cases hm with
  | quiet u ch s' hq => cases hq <;> exact .inl hrun
  | stash u ch caller c hpc =>
      unfold stashCookie at hrun
      split at hrun <;> exact .inl hrun
  | release u ch caller c cu cs r err actual hpc hlock =>
      unfold releaseSlot at hrun
      dsimp only at hrun
      split at hrun <;> exact .inl hrun
  | leave u ch call result hpc hlock => split at hrun <;> exact .inl hrun
  | start hrun hprobe => exact .inr rfl
  | _ => exact .inl hrun

theorem threshold_coalesce (hcore : s.Core) (hkept : s.ThresholdKept)
    (hsettled : s.OverridesSettled (.task u ch)) (hpc : s.pc u = .coalesce) :
    s.queue.threshold ≤ (s.coalesce u).queue.threshold := by
  have hevent : (s.coalesce u).queue.vq.useEventIdx = s.queue.vq.useEventIdx :=
    ((Move.coalesce u ch hpc).queue_setup hcore.queue).useEventIdx
  unfold threshold
  rw [hevent]
  split
  · next hon =>
    rw [ahead_coalesce]
    split
    · next hover =>
      have hnone := hsettled hpc hon hover.2
      rw [hcore.occupied_eq hnone]
      by_cases hzero : s.queue.ahead = 0
      · omega
      · have hlt := hkept.occupied hon hzero
        omega
    · exact le_rfl
  · exact le_rfl

/-- The interrupt stays expected, or is given, or a task takes a completion. -/
theorem Move.expected (hm : s.Move e s') (hcore : s.Core) (hkept : s.ThresholdKept)
    (htimed : s.Timed) (hirq : s.setup.irqInstalled = true)
    (hrun : s.running = true) (hsettled : s.OverridesSettled e)
    (h : s.queue.Expected) : s'.Awake ∨ s'.queue.Expected := by
  obtain ⟨free, chain, hi⟩ := hcore.queue
  cases hm with
  | quiet u ch s' hq =>
      rw [hq.queue]
      exact .inr h
  | take u ch caller serial x len q' hpc hlock htake =>
      refine .inl (.inr ⟨u, .inr ?_⟩)
      rw [goto_pc_self]
      rfl
  | takeOwn u ch call serial x len q' hpc hlock htake =>
      refine .inl (.inr ⟨u, .inr ?_⟩)
      rw [goto_pc_self]
      rfl
  | pollTake u ch call left serial x len q' hpc htake =>
      have hpolled := htimed u
      rw [hpc] at hpolled
      rw [show s.setup.irqInstalled = false from hpolled] at hirq
      cases hirq
  | probeTake ch call serial x len q' p hstopped =>
      rw [hstopped] at hrun
      cases hrun
  | coalesce u ch hpc =>
      exact .inr (h.mono rfl (threshold_coalesce hcore hkept hsettled hpc) rfl)
  | stash u ch caller c hpc =>
      right
      unfold stashCookie
      split <;> exact h
  | release u ch caller c cu cs r err actual hpc hlock =>
      right
      unfold releaseSlot
      dsimp only
      split <;> exact h
  | leave u ch call result hpc hlock =>
      right
      split <;> exact h
  | add u ch r sl sg q' hpc hlock hadd => exact .inr (hadd.expected hi h)
  | sync u ch call sg q' hpc hlock hadd => exact .inr (hadd.expected hi h)
  | probeAdd ch n tries q' hstopped =>
      rw [hstopped] at hrun
      cases hrun
  | fetch q' hfetch =>
      obtain ⟨head, -, rfl, -⟩ := hi.fetch hfetch
      exact .inr h
  | complete i len r serial x q' hpending hcomplete hadded =>
      exact .inr (hi.expected_complete hcomplete h)
  | signal q' hsignal =>
      rcases hi.expected_signal hsignal h with hlater | hisr
      · exact .inr hlater
      · exact .inl (.inl hisr)
  | rest q' hrest =>
      obtain ⟨-, -, rfl⟩ := hi.rest hrest
      exact .inr h
  | _ => exact .inr h

theorem Move.isr (hm : s.Move e s') (hq : s.queue.Ok) (he : e ≠ .interrupt)
    (h : s.queue.dev.isr = true) : s'.queue.dev.isr = true := by
  obtain ⟨free, chain, hi⟩ := hq
  cases hm with
  | quiet u ch s' hquiet =>
      rw [hquiet.queue]
      exact h
  | take u ch caller serial x len q' hpc hlock htake =>
      exact (congrArg _ htake.dev).trans h
  | takeOwn u ch call serial x len q' hpc hlock htake =>
      exact (congrArg _ htake.dev).trans h
  | pollTake u ch call left serial x len q' hpc htake =>
      exact (congrArg _ htake.dev).trans h
  | probeTake ch call serial x len q' p hrun hprobe htake =>
      exact (congrArg _ htake.dev).trans h
  | stash u ch caller c hpc =>
      unfold stashCookie
      split <;> exact h
  | release u ch caller c cu cs r err actual hpc hlock =>
      unfold releaseSlot
      dsimp only
      split <;> exact h
  | leave u ch call result hpc hlock => split <;> exact h
  | add u ch r sl sg q' hpc hlock hadd => exact (congrArg _ hadd.dev).trans h
  | sync u ch call sg q' hpc hlock hadd => exact (congrArg _ hadd.dev).trans h
  | probeAdd ch n tries q' hrun hprobe hadd => exact (congrArg _ hadd.dev).trans h
  | interrupt hirq hisr => exact absurd rfl he
  | fetch q' hfetch =>
      obtain ⟨head, -, rfl, -⟩ := hi.fetch hfetch
      exact h
  | complete i len r serial x q' hpending hcomplete hadded =>
      obtain ⟨_, _, -, -, hdev, -⟩ := hi.complete hcomplete
      dsimp only
      rw [hdev]
      exact h
  | signal q' hsignal =>
      obtain ⟨-, raise, rfl, -⟩ := signal_cases hsignal
      simp [h]
  | rest q' hrest =>
      obtain ⟨-, -, rfl⟩ := hi.rest hrest
      exact h
  | _ => exact h

theorem exists_unit_of_mask {mask : BitVec 8} (h : mask ≠ 0) :
    ∃ v : UnitNum, mask.getLsbD v.val = true := by
  by_contra hnone
  apply h
  apply BitVec.eq_of_getLsbD_eq
  intro i hi
  have hbit : mask.getLsbD i = false := by
    by_contra hset
    exact hnone ⟨⟨i, hi⟩, by simpa using hset⟩
  simp [hbit]

/-- Every completion in the ring has an interrupt to come, or will be looked
at. -/
def Watchful (s : Config) : Prop :=
  s.running = true → s.Awake ∨ s.queue.Expected

/-- While the tasks run, one is awake or an interrupt is still to come. -/
theorem Watchful.move (h : s.Watchful) (hcore : s.Core) (hkept : s.ThresholdKept)
    (htimed : s.Timed) (hirq : s.setup.irqInstalled = true)
    (hsettled : s.OverridesSettled e) (hguard : s.WakesKept e)
    (hm : s.Move e s') : s'.Watchful := by
  intro hrun'
  have hother : (∃ v, (∀ ch, e ≠ .task v ch) ∧ s.Attending v) → s'.Awake := by
    rintro ⟨v, hne, hv⟩
    exact .inr ⟨v, hm.attending_other hne hv⟩
  rcases hm.running hrun' with hrun | rfl
  case inr =>
    cases hm with
    | start hstopped hprobe => exact hguard
  have hexpected : s.queue.Expected → s'.Awake ∨ s'.queue.Expected :=
    hm.expected hcore hkept htimed hirq hrun hsettled
  rcases h hrun with (hisr | ⟨v, hv⟩) | hcovered
  · by_cases he : e = .interrupt
    case neg => exact .inl (.inl (hm.isr hcore.queue he hisr))
    subst he
    rcases hguard hrun with hmask | ⟨v, hv⟩ | hcovered
    · obtain ⟨v, hbit⟩ := exists_unit_of_mask hmask
      cases hm with
      | interrupt _ _ => exact .inl (.inr ⟨v, .inl (by simp [hbit])⟩)
    · exact .inl (hother ⟨v, ⟨fun _ => Event.noConfusion, hv⟩⟩)
    · exact hexpected hcovered
  · by_cases hown : ∃ ch, e = .task v ch
    case neg => exact .inl (hother ⟨v, not_exists.mp hown, hv⟩)
    obtain ⟨ch, rfl⟩ := hown
    rcases hm.attending_self hv with hstays | hclears | ⟨hdrained, hqueue⟩
    · exact .inl (.inr ⟨v, hstays⟩)
    · rcases hguard hclears with hisr | ⟨w, hw, hattending⟩ | hcovered
      · exact .inl (.inl (hm.isr hcore.queue (fun hne => by cases hne) hisr))
      · refine .inl (hother ⟨w, ?_, hattending⟩)
        rintro ch' hne
        cases hne
        exact hw rfl
      · exact hexpected hcovered
    · right
      rw [hqueue]
      exact expected_of_drained hdrained
  · exact hexpected hcovered

/-! ## Chains the device knows of -/

/-- The device was told of every chain, or will be. -/
def Announced (s : Config) : Prop :=
  (s.queue.dev.notified = true ∨
    s.queue.hist.seen.length = s.queue.hist.added.length) ∨ ∃ u, s.Owes u

theorem Move.announced_queue (hm : s.Move e s') (hq : s.queue.Ok)
    (hadded : s'.queue.hist.added = s.queue.hist.added)
    (h : s.queue.dev.notified = true ∨
      s.queue.hist.seen.length = s.queue.hist.added.length) :
    s'.queue.dev.notified = true ∨
      s'.queue.hist.seen.length = s'.queue.hist.added.length := by
  obtain ⟨free, chain, hi⟩ := hq
  have htake : ∀ {q' : RequestQueue ReqBuf} {serial x len},
      s.queue.TakenFrom q' serial x len → q'.dev.notified = true ∨
        q'.hist.seen.length = q'.hist.added.length := by
    intro q' serial x len htake
    rw [htake.dev, htake.hist]
    exact h
  cases hm with
  | quiet u ch s' hquiet =>
      rw [hquiet.queue]
      exact h
  | take u ch caller serial x len q' hpc hlock ht => exact htake ht
  | takeOwn u ch call serial x len q' hpc hlock ht => exact htake ht
  | pollTake u ch call left serial x len q' hpc ht => exact htake ht
  | probeTake ch call serial x len q' p hrun hprobe ht => exact htake ht
  | stash u ch caller c hpc =>
      unfold stashCookie
      split <;> exact h
  | release u ch caller c cu cs r err actual hpc hlock =>
      unfold releaseSlot
      dsimp only
      split <;> exact h
  | leave u ch call result hpc hlock => split <;> exact h
  | add u ch r sl sg q' hpc hlock hadd =>
      exact absurd (hadd.added_eq.symm.trans hadded) (by simp)
  | sync u ch call sg q' hpc hlock hadd =>
      exact absurd (hadd.added_eq.symm.trans hadded) (by simp)
  | probeAdd ch n tries q' hrun hprobe hadd => exact .inl rfl
  | mark u ch call hpc => exact .inl rfl
  | kick u ch hpc hlock => exact .inl rfl
  | fetch q' hfetch =>
      obtain ⟨head, hnext, rfl, -⟩ := hi.fetch hfetch
      refine h.imp id fun hseen => ?_
      rw [hseen, List.getElem?_eq_none (by simp)] at hnext
      cases hnext
  | complete i len r serial x q' hpending hcomplete _ =>
      obtain ⟨_, _, -, hhist, hdev, -⟩ := hi.complete hcomplete
      dsimp only
      rw [hhist, hdev]
      exact h
  | signal q' hsignal =>
      obtain ⟨-, raise, rfl, -⟩ := signal_cases hsignal
      exact h
  | rest q' hrest =>
      obtain ⟨-, hseen, rfl⟩ := hi.rest hrest
      exact .inr hseen
  | _ => exact h

/-- What was added has been fetched, or the device was notified, or a task still owes the
notification. -/
theorem Announced.move (h : s.Announced) (hfit : s.Fit) (hm : s.Move e s') :
    s'.Announced := by
  rcases hfit.noted hm with ⟨hsame, -⟩ | ⟨u, ch, head, sl, rfl, howes, -⟩ | ⟨hkicked, -⟩
  · rcases h with hqueue | ⟨u, howes⟩
    · exact .inl (hm.announced_queue hfit.queue hsame hqueue)
    · rcases howes.step hm with hstill | hkicked
      · exact .inr ⟨u, hstill⟩
      · exact .inl (.inl hkicked.1)
  · exact .inr ⟨u, howes⟩
  · exact .inl (.inl hkicked.1)

/-! ## Runs -/

def KeepsWakeUps (s : Config) (e : Event) : Prop :=
  s.SyncExclusive e ∧ s.OverridesSettled e ∧ s.WakesKept e

instance KeepsWakeUps.decidable (s : Config) (e : Event) :
    Decidable (s.KeepsWakeUps e) :=
  inferInstanceAs (Decidable (_ ∧ _ ∧ _))

structure Wakeful (s : Config) : Prop where
  core : s.Core
  irq : s.setup.irqInstalled = true
  timed : s.Timed
  threshold : s.ThresholdKept
  watchful : s.Watchful
  announced : s.Announced

/-- Every step that keeps the wake-ups keeps the invariant behind them. -/
theorem Wakeful.step (h : s.Wakeful) (hguard : s.KeepsWakeUps e)
    (hstep : s.step e = some s') : s'.Wakeful := by
  obtain ⟨hexclusive, hsettled, hwakes⟩ := hguard
  have hm := h.core.move_of_step hstep
  exact
    { core := h.core.move hexclusive hm
      irq := hm.setup ▸ h.irq
      timed := h.timed.move hm
      threshold := h.threshold.move h.core hexclusive hsettled hm
      watchful := h.watchful.move h.core h.threshold h.timed h.irq hsettled hwakes hm
      announced := h.announced.move h.core.fit hm }

theorem ahead_initial (setup : Setup) : (initial setup).queue.ahead = 0 := by
  simp only [initial, RequestQueue.initial, ahead, Virtqueue.usedEvent,
    Virtqueue.allocate, vr16_zero]
  rfl

theorem wakeful_initial {setup : Setup} (hirq : setup.irqInstalled = true) :
    (initial setup).Wakeful where
  core := core_initial setup
  irq := hirq
  timed := fun _ => trivial
  threshold :=
    { free := fun _ hahead => absurd (ahead_initial setup) hahead
      occupied := fun _ hahead => absurd (ahead_initial setup) hahead
      within := fun _ hahead => absurd (ahead_initial setup) hahead }
  watchful := fun hrun => by cases hrun
  announced := .inl (.inr rfl)

/-- A driver that sleeps on a device with nothing to do has no chain left. -/
theorem Wakeful.live_eq_nil (h : s.Wakeful) (hrunning : s.running = true)
    (hasleep : ¬ s.Awake)
    (hseen : s.queue.hist.seen.length = s.queue.hist.added.length)
    (hpending : s.queue.dev.pending = []) (hbatch : s.queue.dev.batch = 0) :
    s.queue.hist.live = [] := by
  have hexpected : s.queue.Expected :=
    (h.watchful hrunning).resolve_left hasleep
  obtain ⟨free, chain, hi⟩ := h.core.queue
  have hlive := hi.ledger.live_length
  have hpublished := hi.ledger.published_le
  rw [hpending, List.length_nil] at hpublished
  unfold RequestQueue.Expected backlog RequestQueue.threshold at hexpected
  rw [hbatch] at hexpected
  rw [← List.length_eq_zero_iff]
  split at hexpected
  · next hon =>
    by_cases hzero : s.queue.ahead = 0
    · omega
    · have hwithin := h.threshold.within hon hzero
      omega
  · omega

/-- When nobody is left to act, no chain is left either. -/
theorem Wakeful.drained (h : s.Wakeful) (hrunning : s.running = true)
    (hblocked : s.AllBlocked) (hisr : s.queue.dev.isr = false)
    (hquiet : s.queue.Quiet) : s.queue.hist.live = [] := by
  obtain ⟨hnotified, hpending, hbatch⟩ := hquiet
  have hasleep : ¬ s.Awake := by
    rintro (hraised | ⟨v, hsig | hattends⟩)
    · rw [hisr] at hraised
      cases hraised
    · rw [(hblocked v).2.1] at hsig
      cases hsig
    · rw [(hblocked v).1] at hattends
      cases hattends
  have hnone : ¬ ∃ u, s.Owes u := by
    rintro ⟨u, howes⟩
    unfold Owes at howes
    rw [(hblocked u).1] at howes
    exact howes
  have hseen : s.queue.hist.seen.length = s.queue.hist.added.length := by
    refine (h.announced.resolve_right hnone).resolve_left ?_
    rw [hnotified]
    exact Bool.false_ne_true
  exact h.live_eq_nil hrunning hasleep hseen hpending hbatch

/-- With the interrupt installed, when every task is blocked in the event loop
with no signal, no interrupt is pending and the device has nothing to do, the
used ring is drained and no slot holds a request. -/
theorem no_lost_wakeup (setup : Setup) (hirq : setup.irqInstalled = true)
    (events : List Event) (s : Config)
    (hrun : GuardedRun.run Config.step (initial setup) events = some s)
    (hobeys : GuardedRun.Obeys Config.step KeepsWakeUps (initial setup) events)
    (hrunning : s.running = true) (hblocked : s.AllBlocked)
    (hisr : s.queue.dev.isr = false) (hquiet : s.queue.Quiet) :
    s.queue.vq.lastUsedIdx = vr16 s.queue.vq.modern s.queue.vq.used.idx ∧
      ∀ u sl, ((s.unit u).inflight sl).ioreq = none := by
  have hkept : s.Wakeful := GuardedRun.invariant
    (fun _ _ _ h hguard hstep => h.step hguard hstep) hobeys
    (wakeful_initial hirq) hrun
  have hlive := hkept.drained hrunning hblocked hisr hquiet
  refine ⟨?_, fun u sl => ?_⟩
  · obtain ⟨free, chain, hi⟩ := hkept.core.queue
    rw [hi.used_empty_iff]
    have hlength := hi.ledger.live_length
    have hpublished := hi.ledger.published_le
    have hseen := hi.ledger.seen_le
    have hreturned := hi.ledger.returned_le
    rw [hlive, List.length_nil] at hlength
    omega
  · have hidle : ∀ t, s.holds t = false := by
      intro t
      simp [holds, (hblocked t).1]
    by_contra hioreq
    have hcookie : ((s.unit u).inflight sl).cookie ≠ none := fun hnone =>
      hioreq (((hkept.core.units u).request sl).mpr hnone)
    have hfilling : (s.view u).st.filling ≠ some sl := by
      rw [show (s.view u).st = {} from standing_of (hblocked u).1]
      simp
    have hchain : s.custody.chain (.slot u sl) =
        some ((s.unit u).inflight sl).serial :=
      if_neg (not_or.mpr ⟨hcookie, hfilling⟩)
    have hmem := hkept.core.live_of_slot hidle hchain
    rw [hlive] at hmem
    cases hmem

/-- Two reads, answered behind one interrupt. -/
def twoReadsAnswered : List Event :=
  [Event.start, .putMsg 0 (sampleRead 1), .putMsg 0 (sampleRead 2)] ++ taskSteps 0 13 ++
    [Event.fetch, .fetch, .complete 0 620 goodResponse, .complete 0 620 goodResponse,
      .signal, .interrupt] ++ taskSteps 0 11 ++ [Event.rest]

/-- Two reads, answered: the ring is empty when all tasks block. -/
theorem no_lost_wakeup_twoReadsAnswered :
    ∃ s, GuardedRun.run Config.step (initial (sampleSetup true true))
        twoReadsAnswered = some s ∧
      s.queue.vq.lastUsedIdx = vr16 s.queue.vq.modern s.queue.vq.used.idx ∧
        ∀ u sl, ((s.unit u).inflight sl).ioreq = none := by
  have hend : (GuardedRun.run Config.step (initial (sampleSetup true true))
      twoReadsAnswered).map (fun s => decide (s.running = true ∧ s.AllBlocked ∧
        s.queue.dev.isr = false ∧ s.queue.Quiet)) = some true := by
    decide +kernel
  have hobeys : GuardedRun.Obeys Config.step KeepsWakeUps
      (initial (sampleSetup true true)) twoReadsAnswered := by
    decide +kernel
  obtain ⟨s, hrun, hs⟩ := Option.map_eq_some_iff.mp hend
  obtain ⟨hrunning, hblocked, hisr, hquiet⟩ := of_decide_eq_true hs
  exact ⟨s, hrun, no_lost_wakeup _ rfl _ s hrun hobeys hrunning hblocked hisr hquiet⟩

/-- The second of two reads is in flight when the geometry is asked for; the
device answers both behind one interrupt, the geometry first. -/
def geometryBeforeRead : List Event :=
  [Event.start, .putMsg 0 (sampleRead 1), .putMsg 0 (sampleRead 2)] ++ taskSteps 0 13 ++
    [Event.fetch, .fetch, .complete 0 620 goodResponse, .signal, .interrupt] ++ taskSteps 0 7 ++
    [Event.putMsg 0 (sampleGeometryRequest 3)] ++ taskSteps 0 2 ++
    [Event.task 0 { call := some (false, 8) }] ++ taskSteps 0 4 ++
    [Event.fetch, .complete 1 620 goodResponse, .complete 0 620 goodResponse, .signal,
      .interrupt] ++ taskSteps 0 8 ++ [Event.rest]

/-- `DoIO` stops at its own cookie and clears the signal: the completion of the
read stays in the ring, and everybody sleeps. -/
theorem geometryBeforeRead_asleep :
    ∃ s, GuardedRun.run Config.step (initial (sampleSetup false true))
        geometryBeforeRead = some s ∧
      s.running = true ∧ s.AllBlocked ∧ s.queue.dev.isr = false ∧ s.queue.Quiet ∧
        s.queue.vq.lastUsedIdx ≠ vr16 s.queue.vq.modern s.queue.vq.used.idx ∧
        ((s.unit 0).inflight 1).ioreq = some (sampleRead 2) := by
  have hend : (GuardedRun.run Config.step (initial (sampleSetup false true))
      geometryBeforeRead).map (fun s => decide (s.running = true ∧ s.AllBlocked ∧
        s.queue.dev.isr = false ∧ s.queue.Quiet ∧
        s.queue.vq.lastUsedIdx ≠ vr16 s.queue.vq.modern s.queue.vq.used.idx ∧
        ((s.unit 0).inflight 1).ioreq = some (sampleRead 2))) = some true := by
    decide +kernel
  obtain ⟨s, hrun, hs⟩ := Option.map_eq_some_iff.mp hend
  exact ⟨s, hrun, of_decide_eq_true hs⟩

/-- A read of each of two units is in flight.  Task 0 takes the first
completion, task 1 overrides before task 0 releases the slot, and the second
completion raises no interrupt. -/
def overrideWhileHeld : List Event :=
  [Event.start, .putMsg 0 (sampleRead 1), .putMsg 1 (sampleRead 2)] ++ taskSteps 0 8 ++
    taskSteps 1 8 ++ [Event.fetch, .fetch, .complete 0 620 goodResponse, .signal, .interrupt] ++
    taskSteps 0 2 ++ taskSteps 1 3 ++ taskSteps 0 5 ++
    [Event.complete 0 620 goodResponse, .signal, .rest]

example : (GuardedRun.run Config.step (initial (sampleSetup true true))
    overrideWhileHeld).map (fun s => decide (s.AllBlocked ∧
      s.queue.dev.isr = false ∧ s.queue.Quiet ∧
      ((s.unit 1).inflight 0).ioreq = some (sampleRead 2))) = some true := by
  decide +kernel

end Config
end VirtioScsi
