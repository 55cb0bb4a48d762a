import VirtioScsi.QueueInvariant

/-!
# Steps of the request queue

One lemma for each operation says what it did and that the invariant is kept;
later files never unfold an operation.
-/

namespace VirtioScsi
namespace RequestQueue

open RingWindow

variable {α : Type*} {q q' : RequestQueue α} {free : List (BitVec 16)}
  {chain : BitVec 16 → List (BitVec 16)} {sg : ℕ → VringSg}
  {outNum inNum : ℕ} {cookie : α} {env : Virtqueue.IndirectEnv}

/-! ## `AddBuf` -/

/-- `q'` is `q` after one more chain was published. -/
structure AddedTo (q q' : RequestQueue α) (cookie : α) : Prop where
  hist : q'.hist =
    { q.hist with added := q.hist.added ++ [(q.vq.freeHead, cookie)] }
  dev : q'.dev = q.dev
  vring : Virtqueue.Added q.vq q'.vq cookie

theorem AddedTo.added_eq (h : q.AddedTo q' cookie) :
    q'.hist.added = q.hist.added ++ [(q.vq.freeHead, cookie)] := by
  rw [h.hist]

theorem AddedTo.published_eq (h : q.AddedTo q' cookie) :
    q'.hist.published = q.hist.published := by
  rw [h.hist]

theorem addBuf_failed
    (hrc : (q.addBuf sg outNum inNum cookie env).1 ≠ 0) :
    (q.addBuf sg outNum inNum cookie env).2 = q := by
  have hrc' : (q.vq.addBuf sg outNum inNum cookie env).rc ≠ 0 := hrc
  have hvq : (q.vq.addBuf sg outNum inNum cookie env).vq = q.vq :=
    Virtqueue.addBuf_failed rfl hrc'
  unfold addBuf
  simp only [hrc', if_false, hvq]

theorem Inv.addBuf (hi : q.Inv free chain) (hpos : 1 ≤ outNum + inNum)
    (hrc : (q.addBuf sg outNum inNum cookie env).1 = 0) :
    q.AddedTo (q.addBuf sg outNum inNum cookie env).2 cookie ∧
      q.vq.cookies q.vq.freeHead = none ∧
      ∃ cells rest, free = cells ++ rest ∧
        (q.addBuf sg outNum inNum cookie env).2.Inv rest
          (Function.update chain q.vq.freeHead cells) := by
  have hrc' : (q.vq.addBuf sg outNum inNum cookie env).rc = 0 := hrc
  obtain ⟨hadd, hfresh, -, cells, rest, hfree, htable⟩ :=
    hi.table.addBuf hpos rfl hrc'
  have howners := hi.owners.addBuf hi.ledger hfresh hadd
  have hroom : q.hist.live.length < q.vq.num := by
    have hle := howners.live_le htable
    have hlive := History.live_addBuf hi.ledger (q.vq.freeHead, cookie)
    dsimp only at hle
    rw [hlive, List.length_append, List.length_singleton, hadd.setup.num] at hle
    omega
  unfold RequestQueue.addBuf
  simp only [hrc', if_true]
  refine ⟨⟨rfl, rfl, hadd⟩, hfresh, cells, rest, hfree, htable, ?_, howners, ?_⟩
  · exact hi.ledger.addBuf _
  · exact hi.rings.addBuf hi.ledger hroom hadd

/-! ## `GetBuf` -/

/-- `q'` is `q` after the completion of chain `serial`, `x`, was taken. -/
structure TakenFrom (q q' : RequestQueue α) (serial : ℕ)
    (x : BitVec 16 × α) (len : BitVec 32) : Prop where
  published : q.hist.published[q.hist.returned.length]? = some (serial, len)
  added : q.hist.added[serial]? = some x
  hist : q'.hist = { q.hist with returned := q.hist.returned ++ [(x.2, len)] }
  dev : q'.dev = q.dev
  vring : Virtqueue.Taken q.vq q'.vq x.1

theorem TakenFrom.added_eq {serial : ℕ} {x : BitVec 16 × α} {len : BitVec 32}
    (h : q.TakenFrom q' serial x len) : q'.hist.added = q.hist.added := by
  rw [h.hist]

theorem TakenFrom.published_eq {serial : ℕ} {x : BitVec 16 × α} {len : BitVec 32}
    (h : q.TakenFrom q' serial x len) : q'.hist.published = q.hist.published := by
  rw [h.hist]

theorem Inv.getBuf_empty (hi : q.Inv free chain)
    (hempty : q.hist.returned.length = q.hist.published.length) :
    q.getBuf = some (none, q) := by
  unfold RequestQueue.getBuf
  rw [Virtqueue.getBuf_empty (hi.used_empty_iff.mpr hempty)]
  rfl

/-- With a completion published, `VirtQueue_GetBuf` takes the oldest one and keeps the
invariant. -/
theorem Inv.getBuf_nonempty (hi : q.Inv free chain)
    (hne : q.hist.returned.length ≠ q.hist.published.length) :
    ∃ serial x len q', q.getBuf = some (some x.2, q') ∧
      q.TakenFrom q' serial x len ∧
      q'.Inv ((chain x.1).reverse ++ free) chain := by
  have hlt : q.hist.returned.length < q.hist.published.length :=
    lt_of_le_of_ne hi.ledger.returned_le hne
  set p := q.hist.published[q.hist.returned.length] with hp
  have hnext : q.hist.published[q.hist.returned.length]? = some p :=
    List.getElem?_eq_getElem hlt
  have hdrop := List.drop_eq_getElem_cons hlt
  rw [← hp] at hdrop
  have hlive := hi.ledger.next_live hnext
  obtain ⟨x, hadded⟩ : ∃ x, q.hist.added[p.1]? = some x :=
    ⟨_, List.getElem?_eq_getElem (History.mem_live.mp hlive).1⟩
  have hcookie := hi.owners.cookie_live hlive hadded
  -- The window of the used ring gives the entry `GetBuf` looks at.
  have hring := hi.rings.usedRing
  rw [hdrop, List.map_cons] at hring
  have hentry := hring.head
  simp only [Function.comp_apply, decodeUsed, usedEntry, hadded,
    Option.map_some, Prod.mk.injEq, Option.some.injEq] at hentry
  have hcell : q.vq.lastUsedIdx.toNat % q.vq.num =
      q.hist.returned.length % q.vq.num := by
    rw [hi.rings.lastUsedIdx]
    exact counter_cell hi.rings.num_dvd _
  obtain ⟨result, hget, hresult, hwritten, htable, htaken⟩ :=
    hi.table.getBuf (fun heq => hne (hi.used_empty_iff.mp heq))
      (by rw [hcell]) hentry.1 hcookie
  rw [hentry.2] at hwritten
  refine ⟨p.1, x, p.2, { q with
      vq := result.vq
      hist := { q.hist with returned := q.hist.returned ++ [(x.2, p.2)] } },
    ?_, ⟨hnext, hadded, rfl, rfl, htaken⟩, ?_⟩
  · unfold RequestQueue.getBuf
    simp only [hget, Option.map_some, hresult, hwritten]
  · exact ⟨htable, hi.ledger.getBuf hnext hadded,
      hi.owners.getBuf hi.ledger hnext hadded htaken,
      hi.rings.getBuf hdrop htaken⟩

/-- `GetBuf` in one statement: it reports an empty ring and changes nothing,
or it takes the oldest published completion. -/
theorem Inv.getBuf (hi : q.Inv free chain) :
    (q.getBuf = some (none, q) ∧
        q.hist.returned.length = q.hist.published.length) ∨
      ∃ serial x len q', q.getBuf = some (some x.2, q') ∧
        q.TakenFrom q' serial x len ∧
        q'.Inv ((chain x.1).reverse ++ free) chain := by
  by_cases hempty : q.hist.returned.length = q.hist.published.length
  · exact .inl ⟨hi.getBuf_empty hempty, hempty⟩
  · exact .inr (hi.getBuf_nonempty hempty)

theorem Inv.setUsedEvent (hi : q.Inv free chain) (event : BitVec 16) :
    Inv { q with vq := q.vq.setUsedEvent event } free chain :=
  ⟨hi.table.of_same rfl rfl rfl rfl rfl rfl rfl, hi.ledger,
    hi.owners.of_same rfl rfl rfl,
    { hi.rings with
      availRing := availRing_event hi.rings.num_pos hi.rings.availRing _ }⟩

/-! ## The device -/

theorem Inv.fetch (hi : q.Inv free chain) (hfetch : q.fetch = some q') :
    ∃ head, (q.hist.added.map Prod.fst)[q.hist.seen.length]? = some head ∧
      q' = { q with
        dev := { q.dev with
          lastAvailIdx := q.dev.lastAvailIdx + 1
          pending := q.dev.pending ++ [(q.hist.seen.length, head)] }
        hist := { q.hist with seen := q.hist.seen ++ [head] } } ∧
      q'.Inv free chain := by
  unfold RequestQueue.fetch at hfetch
  simp only [deviceLoad_two] at hfetch
  split at hfetch
  · exact absurd hfetch (by simp)
  · next hne =>
    rw [hi.avail_empty_iff] at hne
    have hlt : q.hist.seen.length < (q.hist.added.map Prod.fst).length := by
      have hle := hi.ledger.seen_le
      rw [List.length_map]
      omega
    have hdrop := List.drop_eq_getElem_cons hlt
    have hring := hi.rings.availRing
    rw [hdrop] at hring
    have hhead := hring.head
    rw [Function.comp_apply, ← counter_cell hi.rings.num_dvd,
      ← hi.rings.lastAvailIdx] at hhead
    rw [hhead, Option.some.injEq] at hfetch
    have hnext := List.getElem?_eq_getElem hlt
    refine ⟨_, hnext, hfetch.symm, ?_⟩
    rw [← hfetch]
    refine ⟨hi.table, hi.ledger.fetch hnext, ?_, hi.rings.fetch hdrop⟩
    exact hi.owners.of_same rfl rfl rfl

theorem Inv.complete (hi : q.Inv free chain) {i : ℕ} {len : BitVec 32}
    (hcomplete : q.complete i len = some q') :
    ∃ serial head, q.dev.pending[i]? = some (serial, head) ∧
      q'.hist = { q.hist with
        published := q.hist.published ++ [(serial, len)] } ∧
      q'.dev = { q.dev with
        pending := q.dev.pending.eraseIdx i
        batch := q.dev.batch + 1 } ∧
      q'.vq = { q.vq with used := q'.vq.used } ∧
      vr16 q.vq.modern q'.vq.used.idx = vr16 q.vq.modern q.vq.used.idx + 1 ∧
      q'.Inv free chain := by
  unfold RequestQueue.complete at hcomplete
  simp only [deviceLoad_two, deviceStore_two, deviceStore_four] at hcomplete
  split at hcomplete
  · exact absurd hcomplete (by simp)
  · next serial head hpending =>
    rw [Option.some.injEq] at hcomplete
    subst hcomplete
    refine ⟨serial, head, hpending, rfl, rfl, rfl, vr16_vr16 _ _, ?_⟩
    obtain ⟨hlt, heq⟩ := List.getElem?_eq_some_iff.mp hpending
    have hmem : (serial, head) ∈ q.dev.pending := heq ▸ List.getElem_mem hlt
    have hlive := History.live_complete hi.ledger (serial, len)
    refine ⟨hi.table.of_same rfl rfl rfl rfl rfl rfl rfl,
      hi.ledger.complete hpending len, hi.owners.of_same rfl rfl hlive, ?_⟩
    exact hi.rings.complete hi.ledger hi.live_le hmem rfl

theorem Inv.of_notification (hi : q.Inv free chain) (batch : ℕ)
    (isr notified : Bool) (noted : ℕ) :
    Inv { q with dev := { q.dev with
      batch := batch, isr := isr, notified := notified, noted := noted } } free chain := by
  obtain ⟨htable, hledger, howners, hrings⟩ := hi
  refine ⟨htable, hledger, howners.of_same rfl rfl rfl, ?_⟩
  exact ⟨hrings.size, hrings.availIdx, hrings.lastUsedIdx, hrings.usedIdx,
    hrings.lastAvailIdx, hrings.availRing, hrings.usedRing⟩

theorem Inv.kick (hi : q.Inv free chain) : q.kick.Inv free chain :=
  hi.of_notification _ _ _ _

theorem signal_cases (hsignal : q.signal = some q') :
    0 < q.dev.batch ∧ ∃ raise,
      q' = { q with dev := { q.dev with
        batch := 0, isr := q.dev.isr || raise } } ∧
      raise = if q.vq.useEventIdx then
          crossed q.vq.usedEvent (vr16 q.vq.modern q.vq.used.idx) q.dev.batch
        else true := by
  unfold signal at hsignal
  simp only [deviceLoad_two] at hsignal
  split at hsignal
  · exact absurd hsignal (by simp)
  · next hbatch =>
    rw [Option.some.injEq] at hsignal
    exact ⟨Nat.pos_of_ne_zero hbatch, _, hsignal.symm, rfl⟩

theorem Inv.signal (hi : q.Inv free chain) (hsignal : q.signal = some q') :
    q'.Inv free chain := by
  obtain ⟨-, raise, rfl, -⟩ := signal_cases hsignal
  exact hi.of_notification _ _ _ _

theorem Inv.rest (hi : q.Inv free chain) (hrest : q.rest = some q') :
    q'.Inv free chain ∧ q.hist.seen.length = q.hist.added.length ∧
      q' = { q with dev := { q.dev with notified := false } } := by
  unfold RequestQueue.rest at hrest
  simp only [deviceLoad_two] at hrest
  split at hrest
  · next hempty =>
    rw [Option.some.injEq] at hrest
    subst hrest
    exact ⟨hi.of_notification _ _ _ _, hi.avail_empty_iff.mp hempty, rfl⟩
  · exact absurd hrest (by simp)

/-! ## The start -/

/-- `VirtQueue_Allocate` links all descriptors of the table, in order, into the free
list. -/
theorem initial_cells (queueSize : ℕ) (modern useEventIdx useIndirect : Bool)
    (hsize : queueSize < 2 ^ 16) :
    ∃ after, LinkWalk.Walk
      (freeLink (Virtqueue.allocate (α := α) queueSize modern useEventIdx
        useIndirect).desc) id 0 (descriptors queueSize) after := by
  suffices hfrom : ∀ n k, k + n ≤ queueSize →
      ∃ after, LinkWalk.Walk
        (freeLink (Virtqueue.allocate (α := α) queueSize modern useEventIdx
          useIndirect).desc) id
        (if k < queueSize then BitVec.ofNat 16 k else 0)
        ((List.range' k n).map (BitVec.ofNat 16)) after by
    obtain ⟨after, hwalk⟩ := hfrom queueSize 0 (by omega)
    refine ⟨after, ?_⟩
    unfold descriptors
    rw [List.range_eq_range']
    simpa using hwalk
  intro n
  induction n with
  | zero => exact fun k _ => ⟨_, rfl⟩
  | succ n ih =>
      intro k hk
      obtain ⟨after, hwalk⟩ := ih (k + 1) (by omega)
      refine ⟨after, ?_⟩
      rw [List.range'_succ, List.map_cons]
      refine ⟨if_pos (by omega), ?_⟩
      have hlink : freeLink (Virtqueue.allocate (α := α) queueSize modern
          useEventIdx useIndirect).desc (BitVec.ofNat 16 k) =
          if k + 1 < queueSize then BitVec.ofNat 16 (k + 1) else 0 := by
        unfold freeLink Virtqueue.allocate
        simp only [BitVec.toNat_ofNat, Nat.mod_eq_of_lt (show k < 2 ^ 16 by omega),
          counter_succ]
        exact if_congr (by omega) rfl rfl
      rw [hlink]
      exact hwalk

theorem conserved_allocate (queueSize : ℕ)
    (modern useEventIdx useIndirect : Bool) (hsize : queueSize < 2 ^ 16) :
    (Virtqueue.allocate (α := α) queueSize modern useEventIdx
      useIndirect).Conserved (descriptors queueSize) fun _ => [] := by
  constructor
  · exact hsize
  · rw [descriptors_length]
    exact (BitVec.toNat_ofNat _ _).symm ▸ (Nat.mod_eq_of_lt hsize).symm
  · exact initial_cells _ _ _ _ hsize
  · intro h hsome
    exact absurd hsome (by simp [Virtqueue.allocate])
  · intro h hsome
    exact absurd hsome (by simp [Virtqueue.allocate])
  · intro h hsome
    exact absurd hsome (by simp [Virtqueue.allocate])
  · have hnone : Virtqueue.outstandingHeads (Virtqueue.allocate (α := α)
        queueSize modern useEventIdx useIndirect) = [] := by
      unfold Virtqueue.outstandingHeads
      simp [Virtqueue.allocate]
    rw [hnone, List.flatMap_nil, List.append_nil]
    exact List.Perm.refl _

theorem inv_initial {j : ℕ} (modern useEventIdx useIndirect : Bool)
    (hpos : 1 ≤ j) (hle : j ≤ 15) :
    (initial (α := α) (2 ^ j) modern useEventIdx useIndirect).Inv
      (descriptors (2 ^ j)) fun _ => [] := by
  have hsize : 2 ^ j ≤ 2 ^ 15 := Nat.pow_le_pow_right (by norm_num) hle
  constructor
  · exact conserved_allocate _ _ _ _ (by omega)
  · exact ⟨List.prefix_rfl, by simp [initial], by simp [initial], by simp [initial]⟩
  · constructor
    · intro h c
      simp [initial, Virtqueue.allocate, History.live]
    · intro i hi
      simp [initial, History.live] at hi
  · exact ⟨⟨j, hpos, hle, rfl⟩, vr16_zero modern, rfl, vr16_zero modern, rfl,
      Holds.nil, Holds.nil⟩

/-! ## Runs -/

/-- One event of the driver or of the device keeps the invariant. -/
theorem Inv.step {e : Event α} (hi : q.Inv free chain)
    (hstep : q.step e = some q') :
    (∃ free' chain', q'.Inv free' chain') ∧ q'.vq.SameSetup q.vq := by
  cases e with
  | addBuf sg outNum inNum cookie env =>
      simp only [RequestQueue.step] at hstep
      split at hstep
      · next hcount =>
        rw [Option.some.injEq] at hstep
        subst hstep
        by_cases hrc : (q.addBuf sg outNum inNum cookie env).1 = 0
        · obtain ⟨hadd, -, cells, rest, -, hi'⟩ := hi.addBuf hcount.1 hrc
          exact ⟨⟨_, _, hi'⟩, hadd.vring.setup⟩
        · rw [addBuf_failed hrc]
          exact ⟨⟨_, _, hi⟩, .refl _⟩
      · exact absurd hstep (by simp)
  | getBuf =>
      simp only [RequestQueue.step] at hstep
      rcases hi.getBuf with ⟨hget, -⟩ | ⟨serial, x, len, q₁, hget, htake, hi'⟩
      · rw [hget] at hstep
        cases hstep
        exact ⟨⟨_, _, hi⟩, .refl _⟩
      · rw [hget] at hstep
        cases hstep
        exact ⟨⟨_, _, hi'⟩, htake.vring.setup⟩
  | kick =>
      cases hstep
      exact ⟨⟨_, _, hi.kick⟩, .refl _⟩
  | fetch =>
      obtain ⟨head, -, heq, hi'⟩ := hi.fetch hstep
      subst heq
      exact ⟨⟨_, _, hi'⟩, .refl _⟩
  | complete i len =>
      obtain ⟨serial, head, -, -, -, hvq, -, hi'⟩ := hi.complete hstep
      rw [hvq]
      exact ⟨⟨_, _, hi'⟩, ⟨rfl, rfl, rfl, rfl⟩⟩
  | signal =>
      obtain ⟨-, raise, heq, -⟩ := signal_cases hstep
      have hi' := hi.signal hstep
      subst heq
      exact ⟨⟨_, _, hi'⟩, .refl _⟩
  | rest =>
      obtain ⟨hi', -, heq⟩ := hi.rest hstep
      subst heq
      exact ⟨⟨_, _, hi'⟩, .refl _⟩

/-- The invariant holds after every history of a queue that `VirtQueue_Allocate` built. -/
theorem inv_run {j : ℕ} {modern useEventIdx useIndirect : Bool}
    {events : List (Event α)} (hpos : 1 ≤ j) (hle : j ≤ 15)
    (hrun : GuardedRun.run RequestQueue.step
      (initial (2 ^ j) modern useEventIdx useIndirect) events = some q) :
    (∃ free chain, q.Inv free chain) ∧ q.vq.SameSetup
      (Virtqueue.allocate (2 ^ j) modern useEventIdx useIndirect) := by
  refine GuardedRun.invariant_of_step
    (P := fun q : RequestQueue α => (∃ free chain, q.Inv free chain) ∧
      q.vq.SameSetup
        (Virtqueue.allocate (2 ^ j) modern useEventIdx useIndirect))
    ?_ ⟨⟨_, _, inv_initial modern useEventIdx useIndirect hpos hle⟩,
      .refl _⟩ hrun
  rintro s e s' ⟨⟨free, chain, hi⟩, hsetup⟩ hstep
  obtain ⟨hi', hsame⟩ := hi.step hstep
  exact ⟨hi', hsame.trans hsetup⟩

end RequestQueue
end VirtioScsi
