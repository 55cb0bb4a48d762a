import VirtioScsi.QueueSteps

/-!
# Runs of the request queue

What holds after every run from `VirtQueue_Allocate`: descriptors are neither
lost nor shared, and every completion is delivered once, to the cookie of the
chain it belongs to.
-/

namespace VirtioScsi

open LinkWalk

variable {α : Type*}

namespace Virtqueue

/-- The first `num_free` nodes reached from `free_head`. -/
def freeNodes (vq : Virtqueue α) : List (BitVec 16) :=
  List.iterate (freeLink vq.desc) vq.freeHead vq.numFree.toNat

def chainFrom (vq : Virtqueue α) (head : BitVec 16) : List (BitVec 16) :=
  follow (chainLink vq.modern vq.desc) vq.num (some head)

variable {vq : Virtqueue α} {free : List (BitVec 16)}
  {chain : BitVec 16 → List (BitVec 16)} {h : BitVec 16}

theorem Conserved.freeNodes_eq (hc : vq.Conserved free chain) :
    vq.freeNodes = free := by
  obtain ⟨after, hwalk⟩ := hc.freeWalk
  unfold freeNodes
  rw [← hc.freeLength]
  exact hwalk.eq_iterate.symm

theorem Conserved.chain_sublist (hc : vq.Conserved free chain)
    (hsome : (vq.cookies h).isSome) :
    (chain h).Sublist (vq.outstandingHeads.flatMap chain) :=
  List.sublist_flatten_of_mem
    (List.mem_map_of_mem (hc.mem_outstandingHeads.mpr hsome))

theorem Conserved.chain_length_le (hc : vq.Conserved free chain)
    (hsome : (vq.cookies h).isSome) : (chain h).length ≤ vq.num := by
  have hlen := hc.partition.length_eq
  have hle := (hc.chain_sublist hsome).length_le
  rw [List.length_append, descriptors_length] at hlen
  omega

theorem Conserved.chainFrom_eq (hc : vq.Conserved free chain)
    (hsome : (vq.cookies h).isSome) : vq.chainFrom h = chain h :=
  (hc.chainWalk h hsome).eq_follow (hc.chain_length_le hsome)

end Virtqueue

namespace RequestQueue

variable {q : RequestQueue α} {free : List (BitVec 16)}
  {chain : BitVec 16 → List (BitVec 16)} {j : ℕ}
  {modern useEventIdx useIndirect : Bool} {events : List (Event α)}

theorem Inv.outstanding_perm (hi : q.Inv free chain) :
    (q.hist.outstanding.map Prod.fst).Perm q.vq.outstandingHeads := by
  have hadded : ∀ i ∈ q.hist.live, ∃ x, q.hist.added[i]? = some x := by
    intro i hmem
    exact ⟨_, List.getElem?_eq_getElem (History.mem_live.mp hmem).1⟩
  have hnodup : (q.hist.outstanding.map Prod.fst).Nodup := by
    have hmap : (q.hist.outstanding.map Prod.fst).map some =
        q.hist.live.map fun i => (q.hist.added[i]?).map Prod.fst := by
      unfold History.outstanding
      rw [List.map_filterMap, List.map_filterMap, ← List.filterMap_eq_map]
      apply List.filterMap_congr
      intro i hmem
      obtain ⟨x, hx⟩ := hadded i hmem
      simp [hx]
    apply List.Nodup.of_map some
    rw [hmap]
    apply List.Nodup.map_on _ History.live_nodup
    intro i hmem k hk heq
    obtain ⟨x, hx⟩ := hadded i hmem
    obtain ⟨y, hy⟩ := hadded k hk
    rw [hx, hy] at heq
    exact hi.owners.distinct i hmem k hk x y hx hy (Option.some.inj heq)
  rw [List.perm_ext_iff_of_nodup hnodup
    (Virtqueue.outstandingHeads_nodup hi.table.size_le_range)]
  intro h
  rw [hi.table.mem_outstandingHeads, List.mem_map]
  constructor
  · rintro ⟨x, hx, rfl⟩
    obtain ⟨i, hlive, hadd⟩ := History.mem_outstanding.mp hx
    simp [hi.owners.cookie_live hlive hadd]
  · intro hsome
    obtain ⟨c, hc⟩ := Option.isSome_iff_exists.mp hsome
    obtain ⟨i, hlive, hadd⟩ := (hi.owners.cookies h c).mp hc
    exact ⟨(h, c), History.mem_outstanding.mpr ⟨i, hlive, hadd⟩, rfl⟩

theorem getBuf_eq_some {o : Option α} {q' : RequestQueue α}
    (hget : q.getBuf = some (o, q')) :
    ∃ result, q.vq.getBuf = some result ∧ result.cookie = o := by
  unfold RequestQueue.getBuf at hget
  obtain ⟨result, hresult, heq⟩ := Option.map_eq_some_iff.mp hget
  exact ⟨result, hresult, congrArg Prod.fst heq⟩

/-- Two chains are added, the second completes first and is taken back. -/
def sampleRun : List (Event ℕ) :=
  [.addBuf (fun _ => ⟨0x1000, 512⟩) 1 1 7 ⟨none, 0, none⟩,
    .addBuf (fun _ => ⟨0x2000, 512⟩) 1 0 8 ⟨none, 0, none⟩,
    .kick, .fetch, .fetch, .complete 1 36, .signal, .getBuf]

theorem sampleRun_returned :
    (GuardedRun.run step (initial (2 ^ 2) true true false) sampleRun).map
      (fun q => q.hist.returned) = some [(8, 36)] := by
  decide +kernel

/-- Descriptor conservation: the free nodes are distinct and meet no
outstanding chain; the outstanding chains end, are disjoint, and together with
the free nodes use every descriptor; the walk of `GetBuf` ends. -/
theorem descriptors_conserved (hpos : 1 ≤ j) (hle : j ≤ 15)
    (hrun : GuardedRun.run step
      (initial (α := α) (2 ^ j) modern useEventIdx useIndirect) events =
        some q) :
    let heads := q.hist.outstanding.map Prod.fst
    q.vq.freeNodes.Nodup ∧
      (∀ h ∈ heads, q.vq.freeNodes.Disjoint (q.vq.chainFrom h)) ∧
      heads.Pairwise (fun h h' =>
        (q.vq.chainFrom h).Disjoint (q.vq.chainFrom h')) ∧
      (∀ h ∈ heads, (q.vq.chainFrom h).Nodup ∧
        Walk (chainLink q.vq.modern q.vq.desc) some (some h)
          (q.vq.chainFrom h) none) ∧
      q.vq.numFree.toNat + (heads.map fun h => (q.vq.chainFrom h).length).sum =
        2 ^ j ∧
      q.vq.getBuf.isSome := by
  intro heads
  obtain ⟨⟨free, chain, hi⟩, hsetup⟩ := inv_run hpos hle hrun
  have hperm : heads.Perm q.vq.outstandingHeads := hi.outstanding_perm
  have hsome : ∀ h ∈ heads, (q.vq.cookies h).isSome := by
    intro h hmem
    exact hi.table.mem_outstandingHeads.mp (hperm.mem_iff.mp hmem)
  have hchain : ∀ h ∈ heads, q.vq.chainFrom h = chain h := fun h hmem =>
    hi.table.chainFrom_eq (hsome h hmem)
  have hflat : (heads.flatMap q.vq.chainFrom).Perm
      (q.vq.outstandingHeads.flatMap chain) := by
    rw [List.flatMap_congr hchain]
    exact hperm.flatMap_right chain
  have hparts : (q.vq.freeNodes ++ heads.flatMap q.vq.chainFrom).Perm
      (descriptors q.vq.num) := by
    rw [hi.table.freeNodes_eq]
    exact (hflat.append_left free).trans hi.table.partition
  have hnodup : (q.vq.freeNodes ++ heads.flatMap q.vq.chainFrom).Nodup :=
    hparts.nodup_iff.mpr (descriptors_nodup hi.table.size_le_range)
  rw [List.nodup_append] at hnodup
  obtain ⟨hfree, hchains, hdisjoint⟩ := hnodup
  obtain ⟨hchainNodup, hpairwise⟩ := List.nodup_flatMap.mp hchains
  refine ⟨hfree, ?_, hpairwise, ?_, ?_, ?_⟩
  · intro h hmem a ha ha'
    exact hdisjoint a ha a (List.mem_flatMap.mpr ⟨h, hmem, ha'⟩) rfl
  · intro h hmem
    refine ⟨hchainNodup h hmem, ?_⟩
    rw [hchain h hmem]
    exact hi.table.chainWalk h (hsome h hmem)
  · have hlen := hparts.length_eq
    rw [List.length_append, List.length_flatMap, descriptors_length,
      hsetup.num, hi.table.freeNodes_eq, hi.table.freeLength] at hlen
    exact hlen
  · rcases hi.getBuf with ⟨hget, -⟩ | ⟨_, _, _, q', hget, -⟩
    · obtain ⟨result, hresult, -⟩ := getBuf_eq_some hget
      simp [hresult]
    · obtain ⟨result, hresult, -⟩ := getBuf_eq_some hget
      simp [hresult]

theorem descriptors_conserved_sampleRun :
    ∃ q, GuardedRun.run step (initial (2 ^ 2) true true false) sampleRun =
        some q ∧ q.vq.freeNodes.Nodup ∧
      q.vq.numFree.toNat + ((q.hist.outstanding.map Prod.fst).map fun h =>
        (q.vq.chainFrom h).length).sum = 4 := by
  obtain ⟨q, hrun, -⟩ := Option.map_eq_some_iff.mp sampleRun_returned
  have hdone := descriptors_conserved (by decide) (by decide) hrun
  exact ⟨q, hrun, hdone.1, hdone.2.2.2.2.1⟩

theorem Inv.cookies_perm (hi : q.Inv free chain) :
    (q.hist.returned.map Prod.fst ++ q.hist.outstanding.map Prod.snd).Perm
      (q.hist.added.map Prod.snd) := by
  have hperm := hi.ledger.consumed_append_live.map fun i =>
    (q.hist.added[i]?).map Prod.snd
  have hall : (List.range q.hist.added.length).map
      (fun i => (q.hist.added[i]?).map Prod.snd) =
      (q.hist.added.map Prod.snd).map some := by
    apply List.ext_getElem
    · simp
    · intro i hi₁ hi₂
      simp at hi₂
      simp [hi₂]
  have hconsumed : q.hist.consumed.map
      (fun i => (q.hist.added[i]?).map Prod.snd) =
      (q.hist.returned.map Prod.fst).map some := by
    have hreturned := congrArg (List.map (Option.map Prod.fst))
      hi.ledger.returned
    simp only [List.map_map, Function.comp_def, Option.map_map,
      Option.map_some] at hreturned
    unfold History.consumed
    rw [List.map_map, List.map_map]
    exact hreturned.symm
  have hlive : q.hist.live.map (fun i => (q.hist.added[i]?).map Prod.snd) =
      (q.hist.outstanding.map Prod.snd).map some := by
    unfold History.outstanding
    rw [List.map_filterMap, List.map_filterMap, ← List.filterMap_eq_map]
    apply List.filterMap_congr
    intro i hmem
    obtain ⟨x, hx⟩ : ∃ x, q.hist.added[i]? = some x :=
      ⟨_, List.getElem?_eq_getElem (History.mem_live.mp hmem).1⟩
    simp [hx]
  rw [List.map_append, hconsumed, hlive, ← List.map_append, hall] at hperm
  exact (List.map_perm_map_iff (Option.some_injective _)).mp hperm

/-- Exactly-once delivery, on the whole histories.  The device sees the added
heads in order and misses one only while it has not fetched it; it works on or
has published each chain it saw once; the `k`-th completion `GetBuf` returned
is the cookie and length of the `k`-th published chain; every added cookie is
returned or still outstanding, once; and `GetBuf` returns NULL exactly when it
has consumed all that was published. -/
theorem delivered_exactly_once (hpos : 1 ≤ j) (hle : j ≤ 15)
    (hrun : GuardedRun.run step
      (initial (α := α) (2 ^ j) modern useEventIdx useIndirect) events =
        some q) :
    q.hist.seen <+: q.hist.added.map Prod.fst ∧
      (q.fetch = none ↔ q.hist.seen = q.hist.added.map Prod.fst) ∧
      (q.hist.published.map Prod.fst ++ q.dev.pending.map Prod.fst).Perm
        (List.range q.hist.seen.length) ∧
      q.hist.returned.map some =
        ((q.hist.published.take q.hist.returned.length).map fun p =>
          (q.hist.added[p.1]?).map fun x => (x.2, p.2)) ∧
      (q.hist.returned.map Prod.fst ++ q.hist.outstanding.map Prod.snd).Perm
        (q.hist.added.map Prod.snd) ∧
      ∃ result, q.vq.getBuf = some result ∧
        (result.cookie = none ↔
          q.hist.returned.length = q.hist.published.length) := by
  obtain ⟨⟨free, chain, hi⟩, -⟩ := inv_run hpos hle hrun
  refine ⟨hi.ledger.seen, ?_, hi.ledger.fetched, hi.ledger.returned, ?_, ?_⟩
  · have hprefix := hi.ledger.seen
    have hfetch : q.fetch = none ↔
        q.dev.lastAvailIdx = vr16 q.vq.modern q.vq.avail.idx := by
      unfold fetch
      simp
    rw [hfetch, hi.avail_empty_iff]
    constructor
    · intro hlen
      exact hprefix.eq_of_length (by simpa using hlen)
    · intro heq
      rw [heq, List.length_map]
  · exact hi.cookies_perm
  · rcases hi.getBuf with ⟨hget, hempty⟩ | ⟨serial, x, len, q', hget, htake, -⟩
    · obtain ⟨result, hresult, hcookie⟩ := getBuf_eq_some hget
      exact ⟨result, hresult, by simp [hcookie, hempty]⟩
    · obtain ⟨result, hresult, hcookie⟩ := getBuf_eq_some hget
      obtain ⟨hlt, -⟩ := List.getElem?_eq_some_iff.mp htake.published
      exact ⟨result, hresult, by simp [hcookie, hlt.ne]⟩

theorem delivered_exactly_once_sampleRun :
    ∃ q, GuardedRun.run step (initial (2 ^ 2) true true false) sampleRun =
        some q ∧ q.hist.returned = [(8, 36)] ∧
      q.hist.seen <+: q.hist.added.map Prod.fst := by
  obtain ⟨q, hrun, hreturned⟩ := Option.map_eq_some_iff.mp sampleRun_returned
  exact ⟨q, hrun, hreturned,
    (delivered_exactly_once (by decide) (by decide) hrun).1⟩

end RequestQueue
end VirtioScsi
