import VirtioScsi.LifetimeMoves
import VirtioScsi.SlotBooks

/-!
# Bookkeeping over the lives of a unit

The shutdown drain clears slots without the lock, and touches neither the
counters nor the free list.  The books stay exact over shutdown and reopening
as long as the drain finds no slot in flight, and `complete_inflight_slot`
releases none that is not.
-/

namespace VirtioScsi

/-- The slots the drain is done with. -/
def Phase.Passed : Phase → Slot → Prop
  | .running, _ => False
  | .drainSlots n, sl => sl.val < n
  | .clearSlot _, _ => False
  | .drainPort, _ => True
  | .leaving, _ => True
  | .closed, _ => True

namespace Lifetime

variable {s s' : Lifetime} {u v : UnitNum} {e : LifetimeEvent} {p : Phase}

/-- The request the next step of the drain aborts. -/
def nextAborted (s : Lifetime) (u : UnitNum) : Option IORequest :=
  match s.phase u with
  | .drainSlots n =>
      if h : n < 16 then ((s.config.unit u).inflight ⟨n, h⟩).ioreq else none
  | _ => none

/-- A slot that is released is in flight and not being filled, and the drain
finds no slot in flight. -/
def SlotsSettled (s : Lifetime) : LifetimeEvent → Prop
  | .driver e => s.config.ReleasesCounted e
  | .drain u => s.nextAborted u = none
  | .unitTaskStart _ => True
  | .unitTaskShutdown _ => True

instance SlotsSettled.decidable (s : Lifetime) : ∀ e, Decidable (s.SlotsSettled e)
  | .driver e => inferInstanceAs (Decidable (s.config.ReleasesCounted e))
  | .drain u => inferInstanceAs (Decidable (s.nextAborted u = none))
  | .unitTaskStart _ => isTrue trivial
  | .unitTaskShutdown _ => isTrue trivial

structure Books (s : Lifetime) : Prop where
  config : s.config.Books
  steady : s.Steady
  emptied : ∀ u sl, (s.phase u).Passed sl → ((s.config.unit u).inflight sl).ioreq = none
  uncleared : ∀ u sl, s.phase u ≠ .clearSlot sl

/-! ## Steps -/

theorem shield_books (s : Lifetime) (c : Config) : (s.shield c).books = c.books := by
  funext v
  simp only [Config.books, shield]
  split <;> rfl

theorem Books.driver (h : s.Books) {e : Event} {c : Config}
    (hguard : s.config.ReleasesCounted e) (henabled : s.enabled e = true)
    (hm : s.config.Move e c) : Books { s with config := s.shield c } where
  config := (h.config.move hguard hm).of_same rfl (shield_books s c) rfl rfl rfl
  steady := h.steady.move (.driver e c henabled hm)
  emptied := by
    intro u sl hpassed
    rw [shield_inflight]
    have hu : s.phase u ≠ .running := by
      intro hrunning
      dsimp only at hpassed
      rw [hrunning] at hpassed
      exact hpassed
    by_contra hne
    obtain ⟨r, hr⟩ := Option.ne_none_iff_exists'.mp hne
    rcases hm.ioreq_of hr with hold | ⟨sg, hpc, -⟩
    · rw [h.emptied u sl hpassed] at hold
      cases hold
    · rw [h.steady.halted u hu] at hpc
      cases hpc
  uncleared := h.uncleared

theorem Books.enter (h : s.Books) {c : Config} (hconfig : c.Books)
    (hsteady : Steady { s.enter u p with config := c })
    (hinflight : ∀ v, (c.unit v).inflight = (s.config.unit v).inflight)
    (hpassed : ∀ sl, p.Passed sl → ((s.config.unit u).inflight sl).ioreq = none)
    (hclear : ∀ sl, p ≠ .clearSlot sl) : Books { s.enter u p with config := c } where
  config := hconfig
  steady := hsteady
  emptied := by
    intro v sl hv
    dsimp only
    rw [hinflight]
    by_cases hvu : v = u
    · subst hvu
      exact hpassed sl (by simpa [Lifetime.enter] using hv)
    · exact h.emptied v sl (by simpa [Lifetime.enter, hvu] using hv)
  uncleared := by
    intro v sl
    by_cases hvu : v = u
    · subst hvu
      simpa [Lifetime.enter] using hclear sl
    · simpa [Lifetime.enter, hvu] using h.uncleared v sl

theorem Books.startConfig (h : s.Books) (hphase : s.phase u = .closed) :
    (s.startConfig u).Books := by
  have hwait : s.config.pc u = .wait := h.steady.halted u (by simp [hphase])
  have hfree : ∀ sl, (s.config.books u).Free sl := by
    intro sl
    have hempty := h.emptied u sl (by rw [hphase]; trivial)
    refine ⟨((h.config.units u).request sl).mp hempty, ?_⟩
    simp [Config.books, Config.standing, hwait, Pc.standing, Standing.slots]
  have hrelinked := (h.config.units u).relink hfree
  refine
    { fit := ⟨h.config.fit.queue, h.config.fit.filled⟩, locks := h.config.locks
      units := ?_, total := ?_ }
  · intro v
    by_cases hv : v = u
    · subst hv
      simpa [Config.books, Config.standing, Lifetime.startConfig, Config.setUnit]
        using hrelinked
    · have hother := h.config.units v
      simpa [Config.books, Config.standing, Lifetime.startConfig, Config.setUnit, hv]
        using hother
  · exact h.config.total.trans (Config.sum_setUnit_same (by rfl)).symm

theorem Books.move (h : s.Books) (hguard : s.SlotsSettled e) (hm : s.Move e s') :
    s'.Books := by
  have hsteady := h.steady.move hm
  cases hm with
  | driver e c henabled hm => exact h.driver hguard henabled hm
  | start u hrun hphase =>
      have hinflight : ∀ v, ((s.startConfig u).unit v).inflight =
          (s.config.unit v).inflight :=
        fun v => Config.inflight_setUnit (s := s.config) (by rfl)
      exact h.enter (h.startConfig hphase) hsteady hinflight (by simp [Phase.Passed])
        (by simp)
  | shutdown u hphase hpc =>
      exact h.enter h.config hsteady (fun _ => rfl) (by simp [Phase.Passed]) (by simp)
  | abort u sl r hphase hr =>
      have hnone : ((s.config.unit u).inflight sl).ioreq = none := by
        simpa [SlotsSettled, nextAborted, hphase] using hguard
      rw [hr] at hnone
      cases hnone
  | skip u sl hphase hnone =>
      refine h.enter h.config hsteady (fun _ => rfl) ?_ (by simp)
      intro sl' hsl'
      rcases Nat.lt_succ_iff_lt_or_eq.mp hsl' with hlt | heq
      · exact h.emptied u sl' (by rw [hphase]; exact hlt)
      · rw [Fin.ext heq, hnone]
  | slotsDone u n hphase hn =>
      refine h.enter h.config hsteady (fun _ => rfl) ?_ (by simp)
      intro sl _
      exact h.emptied u sl (by rw [hphase]; exact sl.isLt.trans_le hn)
  | clear u sl hphase => exact absurd hphase (h.uncleared u sl)
  | abortMsg u r rest hphase hport =>
      exact ⟨h.config.of_same rfl rfl rfl rfl rfl, hsteady, h.emptied, h.uncleared⟩
  | portDone u hphase hport =>
      refine h.enter h.config hsteady (fun _ => rfl) ?_ (by simp)
      exact fun sl _ => h.emptied u sl (by rw [hphase]; trivial)
  | left u hphase =>
      refine h.enter h.config hsteady (fun _ => rfl) ?_ (by simp)
      exact fun sl _ => h.emptied u sl (by rw [hphase]; trivial)

theorem Books.step (h : s.Books) (hguard : s.SlotsSettled e)
    (hstep : s.step e = some s') : s'.Books :=
  h.move hguard (step_move h.steady.fit hstep)

theorem books_initial (setup : Setup) : (initial setup).Books where
  config := Config.books_initial setup
  steady := steady_initial setup
  emptied := fun _ _ _ => rfl
  uncleared := by simp [initial]

/-! ## The whole life of the driver -/

/-- The counters and the free lists say what the slot tables say. -/
structure SlotsExact (s : Lifetime) : Prop where
  inflightCount : ∀ u, s.phase u = .running →
    (s.config.unit u).inflightCount = (s.config.accepted u).card
  occupiedCount : s.config.occupiedCount = ∑ u, (s.config.accepted u).card
  closed : ∀ u, s.phase u = .closed → (s.config.unit u).inflightCount = 0
  freeList : ∀ u, s.phase u = .running →
    ∃ l, LinkWalk.Walk (s.config.unit u).inflightNext some
        (s.config.unit u).freeHead l none ∧ l.Nodup ∧
      ∀ sl, sl ∈ l ↔ sl ∉ s.config.accepted u ∧ (s.config.standing u).filling ≠ some sl

/-- With the lock free the bookkeeping is exact, in every state of every run
whose steps release and drain no slot that is still needed. -/
theorem bookkeeping_exact (setup : Setup) (events : List LifetimeEvent) (s : Lifetime)
    (hrun : GuardedRun.run Lifetime.step (initial setup) events = some s)
    (hobeys : GuardedRun.Obeys Lifetime.step SlotsSettled (initial setup) events)
    (hlock : s.config.ioLock = none) : s.SlotsExact := by
  have hbooks : s.Books :=
    GuardedRun.invariant (fun _ _ _ h hguard hstep => h.step hguard hstep)
      hobeys (books_initial setup) hrun
  have hcount := hbooks.config.inflightCount_eq hlock
  refine
    { inflightCount := fun u _ => hcount u
      occupiedCount := hbooks.config.occupiedCount_eq hlock
      closed := ?_, freeList := fun u _ => hbooks.config.freeList u }
  intro u hclosed
  rw [hcount u, Finset.card_eq_zero, Finset.eq_empty_iff_forall_notMem]
  intro sl hsl
  have hempty := hbooks.emptied u sl (by rw [hclosed]; trivial)
  exact (Config.mem_accepted.mp hsl).1
    (((hbooks.config.units u).request sl).mp hempty)

/-- A read is answered, and the unit is closed and opened again. -/
def sampleReopen : List LifetimeEvent :=
  sampleAnswered ++ sampleClose 0 19 ++ [.unitTaskStart 0]

theorem bookkeeping_exact_sampleReopen :
    ∃ s, GuardedRun.run Lifetime.step (initial (sampleSetup false true))
        sampleReopen = some s ∧ s.phase 0 = .running ∧ s.SlotsExact := by
  have hend : (GuardedRun.run Lifetime.step (initial (sampleSetup false true))
      sampleReopen).map (fun s => decide (s.phase 0 = .running ∧
        s.config.ioLock = none)) = some true := by
    decide +kernel
  have hobeys : GuardedRun.Obeys Lifetime.step SlotsSettled
      (initial (sampleSetup false true)) sampleReopen := by
    decide +kernel
  obtain ⟨s, hrun, hs⟩ := Option.map_eq_some_iff.mp hend
  obtain ⟨hphase, hlock⟩ := of_decide_eq_true hs
  exact ⟨s, hrun, hphase, bookkeeping_exact _ _ s hrun hobeys hlock⟩

def closedInFlight : List LifetimeEvent :=
  sampleOpenRead ++ sampleClose 0 20

/-- A unit closed with a read in flight keeps counting it. -/
theorem closedInFlight_not_exact :
    ∃ s, GuardedRun.run Lifetime.step (initial (sampleSetup false true))
        closedInFlight = some s ∧ s.config.ioLock = none ∧
      s.phase 0 = .closed ∧ (s.config.unit 0).inflightCount = 1 ∧ ¬ s.SlotsExact := by
  have hend : (GuardedRun.run Lifetime.step (initial (sampleSetup false true))
      closedInFlight).map (fun s => decide (s.config.ioLock = none ∧
        s.phase 0 = .closed ∧ (s.config.unit 0).inflightCount = 1)) = some true := by
    decide +kernel
  obtain ⟨s, hrun, hs⟩ := Option.map_eq_some_iff.mp hend
  obtain ⟨hlock, hphase, hcount⟩ := of_decide_eq_true hs
  refine ⟨s, hrun, hlock, hphase, hcount, fun h => ?_⟩
  have hzero := h.closed 0 hphase
  rw [hcount] at hzero
  cases hzero

end Lifetime
end VirtioScsi
