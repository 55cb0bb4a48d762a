import VirtioScsi.UnitSlots
import VirtioScsi.UnitRuns

/-!
# Ownership of chains, slots and buffers

The state of the system seen as custody of chains, and the invariant that ties
it to the slots, the lock and the counters.  `SyncExclusive` is the condition
under which a step keeps it: a synchronous request starts only when slot 0 is
not in flight and no earlier request of the unit was given up, slot 0 is not
popped while a chain given up may still use its buffer, and a polling loop
takes no completion but its own.
-/

namespace VirtioScsi
namespace UnitView

def slotChain (w : UnitView) (sl : Slot) : Option ℕ :=
  if (w.dev.inflight sl).cookie = none ∨ w.st.filling = some sl then none
  else some (w.dev.inflight sl).serial

theorem slotChain_congr {w w' : UnitView} {sl : Slot}
    (hinflight : w'.dev.inflight sl = w.dev.inflight sl)
    (hfilling : w'.st.filling = w.st.filling) :
    w'.slotChain sl = w.slotChain sl := by
  unfold slotChain
  rw [hinflight, hfilling]

def syncChain (w : UnitView) : Option ℕ :=
  w.st.awaiting.or w.gaveUp

end UnitView

namespace Config

variable {s s₁ s' : Config} {u v : UnitNum} {ch : Choice} {e : Event} {p : Pc}
  {sl : Slot}

/-- What the ownership invariants read of unit `u`; the stash is part of the
custody. -/
def view (s : Config) (u : UnitNum) : UnitView where
  st := s.standing u
  dev := { s.unit u with doioPending := none }
  tag := fun sl => s.reqId (.slot u sl)
  gaveUp := s.journal.gaveUp u

def chainOf (s : Config) : User → Option ℕ
  | .slot u sl => (s.view u).slotChain sl
  | .sync u => (s.view u).syncChain
  | .probe n => s.journal.probeChain n

def custody (s : Config) : Custody where
  cookie := fun i => (s.queue.hist.added[i]?).map Prod.snd
  live := fun i => i ∈ s.queue.hist.live
  held := fun t => (s.standing t).held
  pending := fun u => (s.unit u).doioPending
  chain := s.chainOf

def PcExclusive (s : Config) (u : UnitNum) : Pc → Prop
  | .submit (.pop _) => (s.unit u).freeHead = some 0 → s.journal.gaveUp u = none
  | .sync _ .fill =>
      ((s.unit u).inflight 0).cookie = none ∧ s.journal.gaveUp u = none
  | .sync call (.poll _) => s.nextSerial = none ∨ s.nextSerial = some call.mine
  | _ => True

def ProbeExclusive (s : Config) : Probe → Prop
  | .polling call => s.nextSerial = none ∨ s.nextSerial = some call.mine
  | _ => True

/-- The synchronous requests of a unit have the buffer of slot 0 for
themselves, and a polling loop finds its own completion. -/
def SyncExclusive (s : Config) : Event → Prop
  | .task u _ => s.PcExclusive u (s.pc u)
  | .probe _ => s.ProbeExclusive s.probe
  | _ => True

instance PcExclusive.decidable (s : Config) (u : UnitNum) :
    ∀ p, Decidable (s.PcExclusive u p)
  | .wait => isTrue trivial
  | .drain _ => isTrue trivial
  | .handle _ _ _ => isTrue trivial
  | .coalesce => isTrue trivial
  | .dispatch => isTrue trivial
  | .submit (.pop _) => inferInstanceAs (Decidable (_ → _))
  | .submit (.fill _ _) => isTrue trivial
  | .submit (.add _ _ _) => isTrue trivial
  | .submit (.account _ _) => isTrue trivial
  | .submit (.giveBack _ _ _) => isTrue trivial
  | .handler _ => isTrue trivial
  | .sync _ .fill => inferInstanceAs (Decidable (_ ∧ _))
  | .sync _ (.add _) => isTrue trivial
  | .sync _ .mark => isTrue trivial
  | .sync _ .enter => isTrue trivial
  | .sync _ .wait => isTrue trivial
  | .sync _ (.poll _) => inferInstanceAs (Decidable (_ ∨ _))
  | .sync _ (.clear _) => isTrue trivial
  | .sync _ (.check _) => isTrue trivial
  | .sync _ (.leave _) => isTrue trivial
  | .finish _ _ _ => isTrue trivial
  | .kick => isTrue trivial

instance SyncExclusive.decidable (s : Config) : ∀ e, Decidable (s.SyncExclusive e)
  | .task u _ => inferInstanceAs (Decidable (s.PcExclusive u (s.pc u)))
  | .probe _ =>
      match h : s.probe with
      | .idle => isTrue (by simp [SyncExclusive, ProbeExclusive, h])
      | .attempt _ _ => isTrue (by simp [SyncExclusive, ProbeExclusive, h])
      | .polling call =>
          decidable_of_iff (s.nextSerial = none ∨ s.nextSerial = some call.mine)
            (by simp [SyncExclusive, ProbeExclusive, h])
  | .interrupt => isTrue trivial
  | .fetch => isTrue trivial
  | .complete _ _ _ => isTrue trivial
  | .signal => isTrue trivial
  | .rest => isTrue trivial
  | .putMsg _ _ => isTrue trivial
  | .start => isTrue trivial

/-- The buffer discovery works with, and its chain. -/
def ProbeOk (s : Config) : Prop :=
  (∀ n, s.nextTemp ≤ n → s.journal.probeChain n = none) ∧
    match s.probe with
    | .idle => True
    | .attempt n _ => n < s.nextTemp ∧ s.journal.probeChain n = none
    | .polling call => call.buf < s.nextTemp ∧
        s.journal.probeChain call.buf = some call.mine

structure Core (s : Config) : Prop where
  queue : s.queue.Ok
  filled : ∀ u, PcFilled (s.pc u)
  locks : ∀ u, (s.standing u).locked = true ↔ s.ioLock = some u
  units : ∀ u, (s.view u).Ok u
  custody : s.custody.Sound
  probes : s.ProbeOk
  probeTag : ∀ n, s.journal.probeChain n ≠ none → s.reqId (.temp n) = 1
  total : s.occupiedCount = ∑ u, (s.unit u).inflightCount

/-! ## Views -/

@[simp] theorem view_goto_self :
    (s.goto u p).view u = { s.view u with st := p.standing } := by
  simp [view, standing, goto]

theorem view_goto_of_ne (hv : v ≠ u) : (s.goto u p).view v = s.view v := by
  simp [view, standing, goto, hv]

theorem view_setUnit_of_ne {d : DevUnit} (hv : v ≠ u) :
    (s.setUnit u d).view v = s.view v := by
  simp [view, standing, setUnit, hv]

theorem units_goto (h : ∀ v, (s.view v).Ok v)
    (hframe : ∀ v, v ≠ u → s₁.view v = s.view v)
    (hself : UnitView.Ok { s₁.view u with st := p.standing } u) :
    ∀ v, ((s₁.goto u p).view v).Ok v := by
  intro v
  by_cases hv : v = u
  · subst hv
    rw [view_goto_self]
    exact hself
  · rw [view_goto_of_ne hv, hframe v hv]
    exact h v

/-- What the ownership invariants read apart from the queue's rings and the
program counters themselves. -/
structure SameCore (s s' : Config) : Prop where
  standing : s'.standing = s.standing
  unit : s'.unit = s.unit
  reqId : s'.reqId = s.reqId
  gaveUp : s'.journal.gaveUp = s.journal.gaveUp
  probeChain : s'.journal.probeChain = s.journal.probeChain
  ioLock : s'.ioLock = s.ioLock
  occupiedCount : s'.occupiedCount = s.occupiedCount
  activeUnitsMask : s'.activeUnitsMask = s.activeUnitsMask
  probe : s'.probe = s.probe
  nextTemp : s'.nextTemp = s.nextTemp
  added : s'.queue.hist.added = s.queue.hist.added
  live : s'.queue.hist.live = s.queue.hist.live

theorem SameCore.view (h : SameCore s s') : s'.view = s.view := by
  funext v
  simp only [Config.view, h.standing, h.unit, h.reqId, h.gaveUp]

theorem SameCore.custody (h : SameCore s s') : s'.custody = s.custody := by
  have hchain : s'.chainOf = s.chainOf := by
    funext x
    cases x <;> simp only [chainOf, h.view, h.probeChain]
  simp only [Config.custody, h.added, h.live, h.standing, h.unit, hchain]

theorem SameCore.goto (h : SameCore s s₁) (hp : p.standing = s.standing u) :
    SameCore s (s₁.goto u p) := by
  refine { h with standing := ?_ }
  rw [standing_goto, hp, h.standing, Function.update_eq_self]

theorem Quiet.same (h : s.Quiet u s') :
    SameCore s s' ∧ s'.queue = s.queue := by
  cases h with
  | wakeUp hpc hsig =>
      refine ⟨.goto (by constructor <;> rfl) ?_, rfl⟩
      rw [standing_of hpc]
      split <;> rfl
  | drained call hpc hlock hempty =>
      refine ⟨.goto (by constructor <;> rfl) ?_, rfl⟩
      rw [hpc.standing]
      rfl
  | noMessage hpc hport =>
      refine ⟨.goto (by constructor <;> rfl) ?_, rfl⟩
      rw [standing_of hpc]
      split <;> rfl
  | message r rest hpc hport =>
      refine ⟨.goto (by constructor <;> rfl) ?_, rfl⟩
      rw [standing_of hpc, commandPc_standing]
      rfl
  | noSlot r hpc hlock hfree =>
      refine ⟨.goto (by constructor <;> rfl) ?_, rfl⟩
      rw [standing_of hpc]
      rfl
  | handler r p hpc hp =>
      refine ⟨.goto (by constructor <;> rfl) ?_, rfl⟩
      rw [standing_of hpc]
      rcases hp with ⟨_, _, rfl⟩ | ⟨_, _, rfl⟩ <;> rfl
  | woken call at_ hpc hsig hat =>
      refine ⟨.goto (by constructor <;> rfl) ?_, rfl⟩
      rw [standing_of hpc, hat]
      split <;> rfl
  | polled call left hpc hempty =>
      refine ⟨.goto (by constructor <;> rfl) ?_, rfl⟩
      rw [standing_of hpc]
      split <;> rfl
  | clear call taken hpc =>
      refine ⟨.goto (by constructor <;> rfl) ?_, rfl⟩
      rw [standing_of hpc]
      cases taken <;> rfl
  | finish r err actual hpc =>
      refine ⟨.goto (by constructor <;> rfl) ?_, rfl⟩
      rw [standing_of hpc]
      rfl

theorem doioOutcome_standing (modern : Bool) (call : SyncCall) (r : Response) :
    (Pc.sync (doioOutcome modern call r).1 (doioOutcome modern call r).2).standing =
      {} := by
  unfold doioOutcome
  dsimp only
  split_ifs <;> rfl

/-! ## The state of the units -/

theorem Core.unlocked (h : s.Core) (hlock : s.ioLock = none) :
    (s.standing u).locked = false := by
  have hu := h.locks u
  rw [hlock] at hu
  simpa using hu

theorem standing_counting {p : Pc} (h : p.standing.counting ≠ none) :
    p.standing.locked = true := by
  cases p with
  | submit at_ =>
      cases at_ with
      | account r sl => rfl
      | _ => exact absurd rfl h
  | sync call at_ =>
      cases at_ with
      | clear taken => cases taken <;> exact absurd rfl h
      | check taken => cases taken <;> exact absurd rfl h
      | _ => exact absurd rfl h
  | _ => exact absurd rfl h

theorem Core.counted (h : s.Core) (hlock : s.ioLock = none) {i : ℕ}
    (hchain : s.chainOf (.slot u sl) = some i) : (s.view u).Counted sl := by
  simp only [chainOf, UnitView.slotChain] at hchain
  split at hchain
  · cases hchain
  · next hslot =>
    rw [not_or] at hslot
    refine ⟨hslot.1, hslot.2, ?_⟩
    intro hcounting
    have hlocked := standing_counting (p := s.pc u) (by
      rw [show (s.pc u).standing.counting = some sl from hcounting]
      simp)
    have hunlocked : (s.pc u).standing.locked = false := h.unlocked hlock
    rw [hunlocked] at hlocked
    cases hlocked

theorem view_stashCookie (s : Config) (c : Completion) :
    (s.stashCookie c).view = s.view := by
  funext v
  unfold stashCookie
  split
  · rfl
  · next w _ =>
    by_cases hv : v = w
    · subst hv
      simp [view, standing, setUnit]
    · simp [view, standing, setUnit, hv]

theorem view_setPending (s : Config) (u : UnitNum) (o : Option Completion) :
    (s.setUnit u { s.unit u with doioPending := o }).view = s.view := by
  funext v
  by_cases hv : v = u
  · subst hv
    simp [view, standing, setUnit]
  · exact view_setUnit_of_ne hv

theorem view_prepare_of_ne {b : ReqBuf} {id : BitVec 64}
    (hb : ∀ sl, b ≠ .slot v sl) : (s.prepare b id).view v = s.view v := by
  simp only [view, prepare, standing, UnitView.mk.injEq, true_and, and_true]
  funext sl
  exact Function.update_of_ne (Ne.symm (hb sl)) _ _

theorem view_prepare_slot {id : BitVec 64} :
    (s.prepare (.slot u sl) id).view u =
      { s.view u with tag := Function.update (s.view u).tag sl id } := by
  simp only [view, prepare, standing, UnitView.mk.injEq, true_and, and_true]
  funext sl'
  by_cases hsl : sl' = sl
  · subst hsl
    simp
  · simp [hsl]

theorem view_releaseSlot_of_ne (hv : v ≠ u) :
    (s.releaseSlot u sl).view v = s.view v := by
  unfold releaseSlot
  dsimp only
  split
  · exact view_setUnit_of_ne (s := s) hv
  · exact view_setUnit_of_ne (s := s) hv

theorem view_releaseSlot_self (s : Config) (u : UnitNum) (sl : Slot) :
    (s.releaseSlot u sl).view u =
      { s.view u with
        dev := { (s.view u).dev with
          inflight := Function.update (s.view u).dev.inflight sl
            { (s.view u).dev.inflight sl with ioreq := none, cookie := none }
          inflightNext := Function.update (s.view u).dev.inflightNext sl
            (s.view u).dev.freeHead
          freeHead := some sl
          inflightCount := (s.view u).dev.inflightCount - 1 } } := by
  unfold releaseSlot
  dsimp only
  split <;> simp [view, standing, setUnit, clearActive]

theorem view_setInflight_of_ne {e : Inflight} (hv : v ≠ u) :
    (s.setInflight u sl e).view v = s.view v :=
  view_setUnit_of_ne hv

@[simp] theorem view_setInflight_self {e : Inflight} :
    (s.setInflight u sl e).view u = (s.view u).setEntry sl e := by
  simp [view, standing, setInflight, setUnit, UnitView.setEntry]

/-- A task goes from standing `st` to `st'` without touching a slot, and starts
no synchronous request. -/
structure Follows (st' st : Standing) : Prop where
  filling : st'.filling = st.filling
  marked : st'.marked = st.marked
  counting : st'.counting = st.counting
  sync : st'.reserved = true ∨ st'.awaiting ≠ none →
    st.reserved = true ∨ st.awaiting ≠ none
  once : st.reserved = false → st.awaiting = none →
    st'.reserved = false ∧ st'.awaiting = none

theorem units_restand (h : ∀ v, (s.view v).Ok v) {st : Standing}
    (hview : s₁.view = s.view) (hst : s.standing u = st)
    (hfollows : Follows p.standing st) : ∀ v, ((s₁.goto u p).view v).Ok v := by
  subst hst
  refine units_goto h (fun v _ => congrFun hview v) ?_
  rw [hview]
  refine (h u).restand hfollows.filling hfollows.marked hfollows.counting ?_ ?_
  · intro hs
    exact (hfollows.sync hs).imp_right .inl
  · intro hgave
    have hidle := (h u).once hgave
    exact hfollows.once hidle.1 hidle.2

theorem Core.units_prepare (h : s.Core)
    (hzero : ((s.unit u).inflight 0).cookie = none) :
    ∀ v, ((s.prepare (reqBuf u) 1).view v).Ok v := by
  intro v
  by_cases hv : v = u
  · subst hv
    rw [reqBuf, view_prepare_slot]
    exact (h.units v).retagSync hzero
  · rw [view_prepare_of_ne (by simp [reqBuf, Ne.symm hv])]
    exact h.units v

/-- Every move that respects the synchronous callers keeps the slot books of all units. -/
theorem Core.units_move (h : s.Core) (hguard : s.SyncExclusive e)
    (hm : s.Move e s') : ∀ v, (s'.view v).Ok v := by
  cases hm with
  | quiet u ch s' hq =>
      rw [hq.same.1.view]
      exact h.units
  | harvested u ch hpc hlock hempty =>
      have hst : s.standing u = {} := standing_of hpc
      exact units_restand h.units rfl hst (by constructor <;> simp [Pc.standing])
  | take u ch caller serial x len q' hpc hlock htake hq hforeign =>
      exact units_restand h.units rfl hpc.standing (by constructor <;> simp [Pc.standing])
  | takeOwn u ch call serial x len q' hpc hlock htake hq hown =>
      exact units_restand h.units rfl hpc.standing (by constructor <;> simp [Pc.standing])
  | pick u ch call c hpc hlock hpending hown =>
      have hst : s.standing u = { awaiting := some call.mine } := standing_of hpc
      exact units_restand h.units (view_setPending s u none) hst
        (by constructor <;> simp [Pc.standing])
  | found u ch caller c cu cs r hpc hlookup =>
      have hst : s.standing u = (Pc.handle caller c .route).standing :=
          standing_of hpc
      exact units_restand h.units rfl hst (by constructor <;> simp [Pc.standing])
  | foreign u ch call c hpc hlookup =>
      have hst : s.standing u = (Pc.handle (some call) c .route).standing :=
          standing_of hpc
      exact units_restand h.units rfl hst (by constructor <;> simp [Pc.standing])
  | stash u ch caller c hpc =>
      have hst : ∃ hold, s.standing u =
          { held := some (hold, c), awaiting := caller.map SyncCall.mine } := by
        rcases hpc with ⟨rfl, hpc, -⟩ | hpc
        · exact ⟨.routing, standing_of hpc⟩
        · exact ⟨.stashing, standing_of hpc⟩
      obtain ⟨hold, hst⟩ := hst
      exact units_restand h.units (view_stashCookie s c) hst (by constructor <;> simp [Pc.standing])
  | release u ch caller c cu cs r err actual hpc hlock =>
      have hheld : (s.standing u).held = some (.releasing cu cs, c) := by
        rw [standing_of hpc]
        rfl
      have hcounted := h.counted hlock (h.custody.releasing_owned u cu cs c hheld)
      have hreleased : ∀ v, ((s.releaseSlot cu cs).view v).Ok v := by
        intro v
        by_cases hv : v = cu
        · subst hv
          rw [view_releaseSlot_self]
          exact (h.units v).release hcounted
        · rw [view_releaseSlot_of_ne hv]
          exact h.units v
      have hst : (s.releaseSlot cu cs).standing u =
          (Pc.handle caller c (.release cu cs r err actual)).standing := by
        refine standing_of (Eq.trans ?_ hpc)
        unfold releaseSlot
        dsimp only
        split <;> rfl
      exact units_restand hreleased rfl hst (by constructor <;> simp [Pc.standing])
  | reply u ch caller c r err actual hpc =>
      have hst : s.standing u = (Pc.handle caller c (.reply r err actual)).standing :=
          standing_of hpc
      exact units_restand h.units rfl hst (by constructor <;> simp [Pc.standing])
  | coalesce u ch hpc =>
      have hst : s.standing u = { locked := true } := standing_of hpc
      unfold Config.coalesce
      split
      · exact units_restand h.units rfl hst (by constructor <;> simp [Pc.standing])
      · exact units_restand h.units rfl hst (by constructor <;> simp [Pc.standing])
  | pop u ch r sl hpc hlock hfree =>
      refine units_goto h.units (fun v hv => view_setUnit_of_ne hv) ?_
      have hst : s.standing u = {} := standing_of hpc
      have hgave : sl = 0 → s.journal.gaveUp u = none := by
        rintro rfl
        simp only [SyncExclusive, PcExclusive, hpc] at hguard
        exact hguard hfree
      have hpop := (h.units u).pop hst hfree hgave
      simpa [view, setUnit, Pc.standing] using hpop
  | fillFailed u ch r sl hpc =>
      refine units_goto h.units (fun v hv => view_prepare_of_ne ?_) ?_
      · rintro sl' heq
        cases heq
        exact hv rfl
      have hst : s.standing u = { filling := some sl } := standing_of hpc
      have hfilling : (s.view u).st.filling = some sl := by rw [view, hst]
      have htag := (h.units u).retag hfilling
      rw [view_prepare_slot]
      refine htag.restand ?_ ?_ ?_ ?_ ?_ <;> simp [view, hst, Pc.standing]
  | fill u ch r sl sg hpc hsg =>
      have hst : s.standing u = { filling := some sl } := standing_of hpc
      have hfilling : (s.view u).st.filling = some sl := by rw [view, hst]
      have htag := (h.units u).retag hfilling
      refine units_goto h.units (fun v hv => ?_) ?_
      · rw [setInflight, view_setUnit_of_ne hv, view_prepare_of_ne]
        rintro sl' heq
        cases heq
        exact hv rfl
      · rw [view_setInflight_self, view_prepare_slot]
        refine htag.entry (by rw [view, hst]) (by simp [Pc.standing]) ?_ ?_ ?_
        · intro c hc
          exact ⟨(Option.some.inj hc).symm, by simp⟩
        · simp
        · simp [Pc.standing]
  | addFailed u ch r sl sg hpc hlock =>
      have hst : s.standing u = { filling := some sl, marked := some r } :=
        standing_of hpc
      refine units_goto h.units (fun v hv => view_setInflight_of_ne hv) ?_
      rw [view_setInflight_self]
      refine (h.units u).entry (by rw [view, hst]) (by simp [Pc.standing]) ?_ ?_ ?_
      · simp
      · simp
      · simp [Pc.standing]
  | add u ch r sl sg q' hpc hlock hadd hq =>
      have hst : s.standing u = { filling := some sl, marked := some r } :=
        standing_of hpc
      obtain ⟨-, hcookie⟩ := (h.units u).entry_of_marked (r := r)
        (by rw [view, hst]) (by rw [view, hst])
      refine units_goto h.units (fun v hv => view_setInflight_of_ne (s := s) hv) ?_
      change UnitView.Ok { (s.setInflight u sl { (s.unit u).inflight sl with
        serial := s.queue.hist.added.length }).view u with st := _ } u
      rw [view_setInflight_self]
      exact (h.units u).entry (by rw [view, hst]) (by simp [Pc.standing])
        ((h.units u).cookie sl) ((h.units u).request sl) (.inr ⟨rfl, rfl, hcookie⟩)
  | account u ch r sl hpc =>
      have hst : s.standing u = { counting := some sl, locked := true } :=
        standing_of hpc
      refine units_goto h.units (fun v hv => view_setUnit_of_ne (s := s) hv) ?_
      have hcounting : (s.view u).st.counting = some sl := by rw [view, hst]
      have hcount := (h.units u).account hcounting (by simp [view, hst])
      simpa [view, setUnit, setActive, standing, Pc.standing] using hcount
  | giveBack u ch r sl err hpc hlock =>
      refine units_goto h.units (fun v hv => view_setUnit_of_ne hv) ?_
      have hst : s.standing u = { filling := some sl } := standing_of hpc
      have hfilling : (s.view u).st.filling = some sl := by rw [view, hst]
      have hback := (h.units u).giveBack hfilling (by rw [view, hst])
      simpa [view, setUnit, Pc.standing] using hback
  | prepareFailed u ch call hpc =>
      have hst : s.standing u = {} := standing_of hpc
      simp only [SyncExclusive, PcExclusive, hpc] at hguard
      exact units_restand (h.units_prepare hguard.1) rfl hst (by constructor <;> simp [Pc.standing])
  | prepare u ch call sg hpc hsg =>
      have hst : s.standing u = {} := standing_of hpc
      simp only [SyncExclusive, PcExclusive, hpc] at hguard
      have hprepared := h.units_prepare hguard.1
      refine units_goto hprepared (fun v _ => rfl) ?_
      refine (hprepared u).reserve hst hguard.1 ?_ hguard.2
      simp [view, Config.prepare, reqBuf]
  | syncFailed u ch call sg hpc hlock =>
      have hst : s.standing u = { reserved := true } := standing_of hpc
      exact units_restand h.units rfl hst (by constructor <;> simp [Pc.standing])
  | sync u ch call sg q' hpc hlock hadd hq =>
      have hst : s.standing u = { reserved := true } := standing_of hpc
      exact units_restand h.units rfl hst (by constructor <;> simp [Pc.standing])
  | mark u ch call hpc =>
      have hst : s.standing u = { awaiting := some call.mine, locked := true } := standing_of hpc
      unfold doioMark
      split
      · exact units_restand h.units rfl hst (by constructor <;> simp [Pc.standing])
      · exact units_restand h.units rfl hst (by constructor <;> simp [Pc.standing])
  | pollTake u ch call left serial x len q' hpc htake hq =>
      have hst : s.standing u = { awaiting := some call.mine } := standing_of hpc
      exact units_restand h.units rfl hst (by constructor <;> simp [Pc.standing])
  | giveUp u ch call hpc =>
      have hst : s.standing u = { awaiting := some call.mine } := standing_of hpc
      refine units_goto h.units (fun v hv => ?_) ?_
      · simp [view, standing, hv]
      · have hgive := (h.units u).giveUp (i := call.mine) hst
        simpa [view, standing, Pc.standing] using hgive
  | accept u ch call c hpc =>
      have hst : s.standing u = { held := some (.done, c), reserved := true } := standing_of hpc
      have hout := doioOutcome_standing s.setup.modern call (s.resp (reqBuf u))
      refine units_restand h.units rfl hst ?_
      rw [hout]
      constructor <;> simp
  | leave u ch call result hpc hlock =>
      have hst : s.standing u = {} := standing_of hpc
      have hview : (if (s.unit u).inflightCount = 0 then s.clearActive u else s).view =
          s.view := by
        split <;> rfl
      exact units_restand h.units hview hst (by constructor <;> simp)
  | kick u ch hpc hlock =>
      have hst : s.standing u = {} := standing_of hpc
      exact units_restand h.units rfl hst (by constructor <;> simp [Pc.standing])
  | probeFailed ch n tries hrun hprobe =>
      intro v
      have hview := @view_prepare_of_ne s v (.temp n) 1 (by simp)
      exact hview ▸ h.units v
  | probeAdd ch n tries q' hrun hprobe hadd hq =>
      intro v
      have hview := @view_prepare_of_ne s v (.temp n) 1 (by simp)
      exact hview ▸ h.units v
  | _ => exact h.units

/-! ## The lock -/

theorem standing_goto_apply :
    (s₁.goto u p).standing v = if v = u then p.standing else s₁.standing v := by
  rw [standing_goto, Function.update_apply]

theorem locks_goto (h : ∀ v, (s.standing v).locked = true ↔ s.ioLock = some v)
    (hpc : s₁.standing = s.standing) (hlock : s₁.ioLock = s.ioLock)
    (hp : p.standing.locked = (s.standing u).locked) :
    ∀ v, ((s₁.goto u p).standing v).locked = true ↔
      (s₁.goto u p).ioLock = some v := by
  intro v
  rw [show (s₁.goto u p).ioLock = s.ioLock from hlock, standing_goto_apply, hpc]
  split
  · next hv => rw [hp, hv, h u]
  · exact h v

theorem locks_acquire (h : ∀ v, (s.standing v).locked = true ↔ s.ioLock = some v)
    (hpc : s₁.standing = s.standing) (hfree : s.ioLock = none)
    (hlock : s₁.ioLock = some u) (hp : p.standing.locked = true) :
    ∀ v, ((s₁.goto u p).standing v).locked = true ↔
      (s₁.goto u p).ioLock = some v := by
  intro v
  rw [show (s₁.goto u p).ioLock = some u from hlock, standing_goto_apply, hpc]
  split
  · next hv => simp [hp, hv]
  · next hv => simp [h v, hfree, Ne.symm hv]

theorem locks_release (h : ∀ v, (s.standing v).locked = true ↔ s.ioLock = some v)
    (hpc : s₁.standing = s.standing) (hheld : (s.standing u).locked = true)
    (hlock : s₁.ioLock = none) (hp : p.standing.locked = false) :
    ∀ v, ((s₁.goto u p).standing v).locked = true ↔
      (s₁.goto u p).ioLock = some v := by
  intro v
  rw [show (s₁.goto u p).ioLock = none from hlock, standing_goto_apply, hpc]
  split
  · simp [hp]
  · next hv => simp [h v, (h u).mp hheld, Ne.symm hv]

/-- `io_lock` is held by the task whose program counter says so, and by no other. -/
theorem locks_move (h : ∀ v, (s.standing v).locked = true ↔ s.ioLock = some v)
    (hm : s.Move e s') : ∀ v, (s'.standing v).locked = true ↔ s'.ioLock = some v := by
  cases hm with
  | quiet u ch s' hq =>
      rw [hq.same.1.standing, hq.same.1.ioLock]
      exact h
  | harvested u ch hpc hlock hempty =>
      exact locks_acquire h rfl hlock rfl rfl
  | take u ch caller serial x len q' hpc hlock htake hq hforeign =>
      exact locks_goto h rfl rfl (by rw [hpc.standing]; rfl)
  | takeOwn u ch call serial x len q' hpc hlock htake hq hown =>
      exact locks_goto h rfl rfl (by rw [hpc.standing]; rfl)
  | stash u ch caller c hpc =>
      have hsame : (s.stashCookie c).ioLock = s.ioLock := by
        unfold stashCookie
        split <;> rfl
      have hstanding : (s.stashCookie c).standing = s.standing := by
        unfold stashCookie
        split <;> rfl
      refine locks_goto h hstanding hsame ?_
      rcases hpc with ⟨rfl, hpc, -⟩ | hpc
      · rw [standing_of hpc]
        rfl
      · rw [standing_of hpc]
        rfl
  | release u ch caller c cu cs r err actual hpc hlock =>
      have hsame : (s.releaseSlot cu cs).ioLock = s.ioLock := by
        unfold releaseSlot
        dsimp only
        split <;> rfl
      have hstanding : (s.releaseSlot cu cs).standing = s.standing := by
        unfold releaseSlot
        dsimp only
        split <;> rfl
      refine locks_goto h hstanding hsame ?_
      rw [standing_of hpc]
      rfl
  | coalesce u ch hpc =>
      refine locks_release h rfl (by rw [standing_of hpc]; rfl) rfl ?_
      split <;> rfl
  | add u ch r sl sg q' hpc hlock hadd hq =>
      exact locks_acquire h rfl hlock rfl rfl
  | account u ch r sl hpc =>
      exact locks_release h rfl (by rw [standing_of hpc]; rfl) rfl rfl
  | sync u ch call sg q' hpc hlock hadd hq =>
      exact locks_acquire h rfl hlock rfl rfl
  | mark u ch call hpc =>
      refine locks_release h rfl (by rw [standing_of hpc]; rfl) rfl ?_
      split <;> rfl
  | accept u ch call c hpc =>
      refine locks_goto h rfl rfl ?_
      rw [doioOutcome_standing, standing_of hpc]
      rfl
  | leave u ch call result hpc hlock =>
      refine locks_goto h ?_ ?_ ?_
      · split <;> rfl
      · split <;> rfl
      · rw [returnPc_standing, standing_of hpc]
        rfl
  | _ =>
      first
        | exact h
        | exact locks_goto h rfl rfl (by rw [standing_of (by assumption)]; rfl)

end Config
end VirtioScsi
