import VirtioScsi.OwnershipMoves

/-!
# The bookkeeping of the slots

The slot table, the free list and the two counters of the pipeline agree
whatever the synchronous requests do to the buffers, as long as
`complete_inflight_slot` releases no slot that is not in flight.
-/

namespace VirtioScsi

def Standing.slots (st : Standing) : Standing :=
  { filling := st.filling, marked := st.marked, counting := st.counting }

def Pc.releases : Pc → Option (UnitNum × Slot)
  | .handle _ _ (.release cu cs _ _ _) => some (cu, cs)
  | _ => none

namespace Config

variable {s s₁ s' : Config} {u v : UnitNum} {ch : Choice} {e : Event} {p : Pc}
  {sl : Slot}

/-- A unit without its synchronous requests: the buffers count as tagged for
the pipeline. -/
def books (s : Config) (u : UnitNum) : UnitView where
  st := (s.standing u).slots
  dev := { s.unit u with doioPending := none }
  tag := requestId u
  gaveUp := none

/-- A slot that is released is in flight, and not being filled. -/
def ReleasesCounted (s : Config) : Event → Prop
  | .task u _ => ∀ x ∈ (s.pc u).releases, (s.books x.1).Counted x.2
  | _ => True

instance ReleasesCounted.decidable (s : Config) :
    ∀ e, Decidable (s.ReleasesCounted e)
  | .task u _ =>
      inferInstanceAs (Decidable (∀ x ∈ (s.pc u).releases, (s.books x.1).Counted x.2))
  | .interrupt => isTrue trivial
  | .fetch => isTrue trivial
  | .complete _ _ _ => isTrue trivial
  | .signal => isTrue trivial
  | .rest => isTrue trivial
  | .putMsg _ _ => isTrue trivial
  | .probe _ => isTrue trivial
  | .start => isTrue trivial

structure Books (s : Config) : Prop where
  fit : s.Fit
  locks : ∀ u, (s.standing u).locked = true ↔ s.ioLock = some u
  units : ∀ u, (s.books u).Ok u
  total : s.occupiedCount = ∑ u, (s.unit u).inflightCount

/-! ## Views -/

theorem books_goto_self :
    (s.goto u p).books u = { s.books u with st := p.standing.slots } := by
  simp [books, standing, goto]

theorem books_goto_of_ne (hv : v ≠ u) : (s.goto u p).books v = s.books v := by
  simp [books, standing, goto, hv]

theorem books_setUnit_of_ne {d : DevUnit} (hv : v ≠ u) :
    (s.setUnit u d).books v = s.books v := by
  simp [books, standing, setUnit, hv]

theorem books_congr (hview : s₁.view = s.view) : s₁.books = s.books := by
  funext v
  have hst : s₁.standing v = s.standing v := congrArg UnitView.st (congrFun hview v)
  have hdev : { s₁.unit v with doioPending := none } =
      { s.unit v with doioPending := none } :=
    congrArg UnitView.dev (congrFun hview v)
  simp only [books, hst, hdev]

theorem books_goto (h : ∀ v, (s.books v).Ok v)
    (hframe : ∀ v, v ≠ u → s₁.books v = s.books v)
    (hself : UnitView.Ok { s₁.books u with st := p.standing.slots } u) :
    ∀ v, ((s₁.goto u p).books v).Ok v := by
  intro v
  by_cases hv : v = u
  · subst hv
    rw [books_goto_self]
    exact hself
  · rw [books_goto_of_ne hv, hframe v hv]
    exact h v

theorem books_keep (h : ∀ v, (s.books v).Ok v) (hbooks : s₁.books = s.books)
    {st : Standing} (hst : s.standing u = st) (hp : p.standing.slots = st.slots) :
    ∀ v, ((s₁.goto u p).books v).Ok v := by
  refine books_goto h (fun v _ => congrFun hbooks v) ?_
  rw [hbooks, hp, ← hst]
  exact h u

theorem books_prepare (s : Config) (b : ReqBuf) (id : BitVec 64) :
    (s.prepare b id).books = s.books := rfl

theorem books_setInflight_self {e : Inflight} :
    (s.setInflight u sl e).books u = (s.books u).setEntry sl e := by
  simp [books, standing, setInflight, setUnit, UnitView.setEntry]

/-! ## What a move does to the books -/

theorem books_release {cu : UnitNum} {cs : Slot} (h : ∀ v, (s.books v).Ok v)
    (hcounted : (s.books cu).Counted cs) :
    ∀ v, ((s.releaseSlot cu cs).books v).Ok v := by
  intro v
  by_cases hv : v = cu
  · subst hv
    have hrelease := (h v).release hcounted
    have hbooks : (s.releaseSlot v cs).books v = { s.books v with
        dev := { (s.books v).dev with
          inflight := Function.update (s.books v).dev.inflight cs
            { (s.books v).dev.inflight cs with ioreq := none, cookie := none }
          inflightNext := Function.update (s.books v).dev.inflightNext cs
            (s.books v).dev.freeHead
          freeHead := some cs
          inflightCount := (s.books v).dev.inflightCount - 1 } } := by
      unfold releaseSlot
      dsimp only
      split <;> simp [books, standing, setUnit, clearActive]
    rw [hbooks]
    exact hrelease
  · have hbooks : (s.releaseSlot cu cs).books v = s.books v := by
      unfold releaseSlot
      dsimp only
      split <;> exact books_setUnit_of_ne (s := s) hv
    rw [hbooks]
    exact h v

theorem ReleasesCounted.counted {caller : Option SyncCall} {c : Completion}
    {cu : UnitNum} {cs : Slot} {r : IORequest} {err : Int} {actual : BitVec 32}
    (hguard : s.ReleasesCounted (.task u ch))
    (hpc : s.pc u = .handle caller c (.release cu cs r err actual)) :
    (s.books cu).Counted cs := by
  simp only [ReleasesCounted, hpc, Pc.releases, Option.mem_def, Option.some.injEq,
    forall_eq'] at hguard
  exact hguard

/-- Every move that releases counted slots only keeps the slot books of all units. -/
theorem books_move (h : ∀ v, (s.books v).Ok v) (hguard : s.ReleasesCounted e)
    (hm : s.Move e s') : ∀ v, (s'.books v).Ok v := by
  cases hm with
  | quiet u ch s' hq =>
      rw [books_congr hq.same.1.view]
      exact h
  | pop u ch r sl hpc hlock hfree =>
      have hst : (s.books u).st = {} := congrArg Standing.slots (standing_of hpc)
      have hpop := (h u).pop hst hfree (fun _ => rfl)
      refine books_goto h (fun v hv => books_setUnit_of_ne hv) ?_
      simpa [books, setUnit, Pc.standing, Standing.slots] using hpop
  | fill u ch r sl sg hpc hsg =>
      have hst : (s.books u).st = { filling := some sl } :=
        congrArg Standing.slots (standing_of hpc)
      refine books_goto h (fun v hv => books_setUnit_of_ne (s := s) hv) ?_
      rw [books_setInflight_self, books_prepare]
      refine (h u).entry (by rw [hst]) (by simp [Standing.slots]) ?_ (by simp) ?_
      · intro c hc
        exact ⟨(Option.some.inj hc).symm, rfl⟩
      · exact .inl ⟨rfl, rfl, rfl⟩
  | addFailed u ch r sl sg hpc hlock =>
      have hst : (s.books u).st = { filling := some sl, marked := some r } :=
        congrArg Standing.slots (standing_of hpc)
      refine books_goto h (fun v hv => books_setUnit_of_ne hv) ?_
      rw [books_setInflight_self]
      refine (h u).entry (by rw [hst]) (by simp [Standing.slots]) ?_ (by simp) ?_
      · simp
      · exact .inl ⟨rfl, rfl, rfl⟩
  | add u ch r sl sg q' hpc hlock hadd hq =>
      have hst : (s.books u).st = { filling := some sl, marked := some r } :=
        congrArg Standing.slots (standing_of hpc)
      obtain ⟨-, hcookie⟩ := (h u).entry_of_marked (by rw [hst]) (by rw [hst])
      refine books_goto h (fun v hv => books_setUnit_of_ne (s := s) hv) ?_
      change UnitView.Ok { (s.setInflight u sl { (s.unit u).inflight sl with
        serial := s.queue.hist.added.length }).books u with st := _ } u
      rw [books_setInflight_self]
      exact (h u).entry (by rw [hst]) (by simp [Standing.slots])
        ((h u).cookie sl) ((h u).request sl) (.inr ⟨rfl, rfl, hcookie⟩)
  | account u ch r sl hpc =>
      have hst : (s.books u).st = { counting := some sl } :=
        congrArg Standing.slots (standing_of hpc)
      have hcounting : (s.books u).st.counting = some sl := by rw [hst]
      have hcount := (h u).account hcounting (by rw [hst]; exact ⟨rfl, rfl⟩)
      refine books_goto h (fun v hv => books_setUnit_of_ne (s := s) hv) ?_
      simpa [books, setUnit, setActive, standing, Pc.standing, Standing.slots] using hcount
  | giveBack u ch r sl err hpc hlock =>
      have hst : (s.books u).st = { filling := some sl } :=
        congrArg Standing.slots (standing_of hpc)
      have hfilling : (s.books u).st.filling = some sl := by rw [hst]
      have hback := (h u).giveBack hfilling (by rw [hst])
      refine books_goto h (fun v hv => books_setUnit_of_ne hv) ?_
      simpa [books, setUnit, Pc.standing, Standing.slots] using hback
  | release u ch caller c cu cs r err actual hpc hlock =>
      have hcounted := hguard.counted hpc
      have hst : (s.releaseSlot cu cs).standing u =
          (Pc.handle caller c (.release cu cs r err actual)).standing := by
        rw [← standing_of hpc]
        exact congrArg Pc.standing (congrFun (releaseSlot_pc s cu cs) u)
      exact books_keep (books_release h hcounted) rfl hst rfl
  | stash u ch caller c hpc =>
      have hslots : (s.standing u).slots = {} := by
        rcases hpc with ⟨rfl, hpc, -⟩ | hpc <;> rw [standing_of hpc] <;> rfl
      exact books_keep h (books_congr (view_stashCookie s c)) rfl hslots.symm
  | pick u ch call c hpc hlock hpending hown =>
      exact books_keep h (books_congr (view_setPending s u none)) (standing_of hpc) rfl
  | take u ch caller serial x len q' hpc hlock htake hq hforeign =>
      exact books_keep h rfl hpc.standing rfl
  | takeOwn u ch call serial x len q' hpc hlock htake hq hown =>
      exact books_keep h rfl hpc.standing rfl
  | coalesce u ch hpc =>
      have hslots : (if s.sigsPort u then Pc.dispatch else .wait).standing.slots = {} := by
        split <;> rfl
      exact books_keep h rfl (standing_of hpc) hslots
  | mark u ch call hpc =>
      have hslots : (Pc.sync call (if s.setup.irqInstalled then .enter
          else .poll pollTimeout)).standing.slots = {} := by
        split <;> rfl
      exact books_keep h rfl (standing_of hpc) hslots
  | accept u ch call c hpc =>
      exact books_keep h rfl (standing_of hpc) (by rw [doioOutcome_standing]; rfl)
  | leave u ch call result hpc hlock =>
      have hbooks : (if (s.unit u).inflightCount = 0 then s.clearActive u else s).books =
          s.books := by
        split <;> rfl
      exact books_keep h hbooks (standing_of hpc) (by rw [returnPc_standing]; rfl)
  | _ =>
      first
        | exact h
        | (refine books_keep h rfl (standing_of (by assumption)) ?_; rfl)

theorem Books.move (h : s.Books) (hguard : s.ReleasesCounted e) (hm : s.Move e s') :
    s'.Books where
  fit := h.fit.move hm
  locks := locks_move h.locks hm
  units := books_move h.units hguard hm
  total := by
    refine total_move h.total ?_ hm
    rintro u ch caller c cu cs r err actual rfl hpc -
    exact (h.units cu).inflightCount_pos (hguard.counted hpc)

theorem Books.of_same (h : s.Books) (hpc : s'.pc = s.pc) (hbooks : s'.books = s.books)
    (hqueue : s'.queue = s.queue) (hlock : s'.ioLock = s.ioLock)
    (hoccupied : s'.occupiedCount = s.occupiedCount) : s'.Books where
  fit := ⟨hqueue ▸ h.fit.queue, hpc ▸ h.fit.filled⟩
  locks := by
    intro u
    rw [standing, hpc, hlock]
    exact h.locks u
  units := hbooks ▸ h.units
  total := by
    have hcount : ∀ u, (s'.unit u).inflightCount = (s.unit u).inflightCount :=
      fun u => congrArg (fun w => w.dev.inflightCount) (congrFun hbooks u)
    rw [hoccupied, h.total]
    simp only [hcount]

theorem books_initial (setup : Setup) : (initial setup).Books where
  fit := fit_initial setup
  locks := by simp [standing, initial, Pc.standing]
  units := by
    intro u
    have hfresh := UnitView.ok_fresh u
    exact
      { free := hfresh.free, cookie := by simp [books, initial, freshUnit]
        request := hfresh.request, marked := hfresh.marked
        counting := hfresh.counting, count := hfresh.count
        exclusive := by simp [UnitView.Syncing, books, Standing.slots]
        once := by simp [books] }
  total := by simp [initial, freshUnit]

/-! ## With the lock free -/

/-- The slots whose request `AddBuf` accepted and that were not released
since: marked, and past the `AddBuf` of their `Submit`. -/
def accepted (s : Config) (u : UnitNum) : Finset Slot :=
  Finset.univ.filter fun sl =>
    ((s.unit u).inflight sl).cookie ≠ none ∧ (s.standing u).filling ≠ some sl

theorem mem_accepted : sl ∈ s.accepted u ↔
    ((s.unit u).inflight sl).cookie ≠ none ∧ (s.standing u).filling ≠ some sl := by
  simp [accepted]

/-- Outside the lock the counted slots are the ones with an accepted request. -/
theorem Books.counted_eq (h : s.Books) (hlock : s.ioLock = none) (u : UnitNum) :
    (s.books u).counted = s.accepted u := by
  have hcounting : (s.standing u).counting = none := by
    by_contra hne
    have hlocked : s.ioLock = some u := (h.locks u).mp (standing_counting hne)
    rw [hlock] at hlocked
    cases hlocked
  ext sl
  rw [UnitView.mem_counted, mem_accepted]
  simp [UnitView.Counted, books, Standing.slots, hcounting]

/-- Outside the lock `inflight_count` is the number of accepted requests of the unit. -/
theorem Books.inflightCount_eq (h : s.Books) (hlock : s.ioLock = none) (u : UnitNum) :
    (s.unit u).inflightCount = (s.accepted u).card := by
  rw [← h.counted_eq hlock u]
  exact (h.units u).count

/-- Outside the lock the shared count is the number of accepted requests of all units. -/
theorem Books.occupiedCount_eq (h : s.Books) (hlock : s.ioLock = none) :
    s.occupiedCount = ∑ u, (s.accepted u).card := by
  rw [h.total]
  exact Finset.sum_congr rfl fun u _ => h.inflightCount_eq hlock u

/-- The free list holds the slots that are neither accepted nor being filled. -/
theorem Books.freeList (h : s.Books) (u : UnitNum) :
    ∃ l, LinkWalk.Walk (s.unit u).inflightNext some (s.unit u).freeHead l none ∧
      l.Nodup ∧ ∀ sl, sl ∈ l ↔ sl ∉ s.accepted u ∧ (s.standing u).filling ≠ some sl := by
  obtain ⟨l, hwalk, hnodup, hmem⟩ := (h.units u).free
  refine ⟨l, hwalk, hnodup, fun sl => (hmem sl).trans ?_⟩
  rw [mem_accepted]
  simp only [UnitView.Free, books, Standing.slots]
  tauto

end Config
end VirtioScsi
