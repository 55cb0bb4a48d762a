import VirtioScsi.QueueOperations
import VirtioScsi.RequestQueue

/-!
# The invariant of the request queue

The history is tied to the queue in three parts: the ledger (what the device
saw, published and what `GetBuf` returned, all by serial number), the rings
(the 16-bit counters are the lengths of the histories, and the windows of the
rings hold what is yet to be consumed), and the owners (the cookie array is
the set of outstanding chains).  Every operation preserves all three together
with the conservation of descriptors.
-/

namespace VirtioScsi

open RingWindow

variable {α : Type*}

namespace History

variable {hist : History α} {i : ℕ} {pending : List (ℕ × BitVec 16)}

/-- A request is live from the moment it is added until its completion is consumed. -/
theorem mem_live : i ∈ hist.live ↔ i < hist.added.length ∧ i ∉ hist.consumed := by
  unfold live
  rw [List.mem_filter, List.mem_range, decide_eq_true_iff]

theorem mem_outstanding {x : BitVec 16 × α} :
    x ∈ hist.outstanding ↔ ∃ i ∈ hist.live, hist.added[i]? = some x := by
  unfold outstanding
  rw [List.mem_filterMap]

theorem live_nodup : hist.live.Nodup :=
  List.nodup_range.filter _

/-- What the device and `GetBuf` did with the added chains. -/
structure Ledger (hist : History α) (pending : List (ℕ × BitVec 16)) : Prop where
  seen : hist.seen <+: hist.added.map Prod.fst
  pendingHead : ∀ p ∈ pending, hist.seen[p.1]? = some p.2
  fetched : (hist.published.map Prod.fst ++ pending.map Prod.fst).Perm
    (List.range hist.seen.length)
  returned : hist.returned.map some =
    (hist.published.take hist.returned.length).map fun p =>
      (hist.added[p.1]?).map fun x => (x.2, p.2)

theorem Ledger.seen_le (hl : hist.Ledger pending) :
    hist.seen.length ≤ hist.added.length := by
  simpa using hl.seen.length_le

theorem Ledger.returned_le (hl : hist.Ledger pending) :
    hist.returned.length ≤ hist.published.length := by
  have hlen := congrArg List.length hl.returned
  rw [List.length_map, List.length_map, List.length_take] at hlen
  omega

theorem Ledger.published_le (hl : hist.Ledger pending) :
    hist.published.length + pending.length = hist.seen.length := by
  simpa using hl.fetched.length_eq

theorem Ledger.published_lt (hl : hist.Ledger pending) {p : ℕ × BitVec 32}
    (hp : p ∈ hist.published) : p.1 < hist.seen.length := by
  rw [← List.mem_range, ← hl.fetched.mem_iff]
  exact List.mem_append_left _ (List.mem_map_of_mem hp)

theorem Ledger.pending_lt (hl : hist.Ledger pending) {p : ℕ × BitVec 16}
    (hp : p ∈ pending) : p.1 < hist.seen.length := by
  rw [← List.mem_range, ← hl.fetched.mem_iff]
  exact List.mem_append_right _ (List.mem_map_of_mem hp)

theorem Ledger.published_nodup (hl : hist.Ledger pending) :
    (hist.published.map Prod.fst).Nodup :=
  (List.nodup_append.mp (hl.fetched.nodup_iff.mpr List.nodup_range)).1

theorem Ledger.consumed_nodup (hl : hist.Ledger pending) :
    hist.consumed.Nodup := by
  unfold consumed
  rw [List.map_take]
  exact hl.published_nodup.sublist (List.take_sublist _ _)

theorem Ledger.consumed_lt (hl : hist.Ledger pending)
    (hi : i ∈ hist.consumed) : i < hist.seen.length := by
  unfold consumed at hi
  obtain ⟨p, hp, rfl⟩ := List.mem_map.mp hi
  exact hl.published_lt (List.mem_of_mem_take hp)

theorem Ledger.consumed_length (hl : hist.Ledger pending) :
    hist.consumed.length = hist.returned.length := by
  unfold consumed
  rw [List.length_map, List.length_take]
  exact Nat.min_eq_left hl.returned_le

/-- Every request added is either consumed or live, and none is both. -/
theorem Ledger.consumed_append_live (hl : hist.Ledger pending) :
    (hist.consumed ++ hist.live).Perm (List.range hist.added.length) := by
  have hdisjoint : ∀ a ∈ hist.consumed, ∀ b ∈ hist.live, a ≠ b := by
    intro a ha b hb hab
    exact (mem_live.mp hb).2 (hab ▸ ha)
  rw [List.perm_ext_iff_of_nodup
    (List.nodup_append.mpr ⟨hl.consumed_nodup, live_nodup, hdisjoint⟩)
    List.nodup_range]
  intro i
  rw [List.mem_append, List.mem_range, mem_live]
  constructor
  · rintro (hi | ⟨hi, -⟩)
    · exact (hl.consumed_lt hi).trans_le hl.seen_le
    · exact hi
  · intro hi
    by_cases hmem : i ∈ hist.consumed
    · exact .inl hmem
    · exact .inr ⟨hi, hmem⟩

theorem Ledger.live_length (hl : hist.Ledger pending) :
    hist.returned.length + hist.live.length = hist.added.length := by
  have hlen := hl.consumed_append_live.length_eq
  rwa [List.length_append, hl.consumed_length, List.length_range] at hlen

/-- The device works on live requests only. -/
theorem Ledger.pending_live (hl : hist.Ledger pending) {p : ℕ × BitVec 16}
    (hp : p ∈ pending) : p.1 ∈ hist.live := by
  rw [mem_live]
  refine ⟨(hl.pending_lt hp).trans_le hl.seen_le, ?_⟩
  intro hmem
  have hnodup := hl.fetched.nodup_iff.mpr List.nodup_range
  have hpublished : p.1 ∈ hist.published.map Prod.fst := by
    unfold consumed at hmem
    rw [List.map_take] at hmem
    exact List.mem_of_mem_take hmem
  exact (List.nodup_append.mp hnodup).2.2 _ hpublished _
    (List.mem_map_of_mem hp) rfl

theorem Ledger.added_of_pending (hl : hist.Ledger pending)
    {p : ℕ × BitVec 16} (hp : p ∈ pending) :
    ∃ cookie, hist.added[p.1]? = some (p.2, cookie) := by
  have hlt := hl.pending_lt hp
  have hseen := hl.pendingHead p hp
  obtain ⟨unseen, hsplit⟩ := hl.seen
  have hprefix := congrArg (fun l => l[p.1]?) hsplit
  rw [List.getElem?_append_left hlt, hseen, List.getElem?_map] at hprefix
  obtain ⟨x, hx, hhead⟩ := Option.map_eq_some_iff.mp hprefix.symm
  exact ⟨x.2, by rw [hx, ← hhead]⟩

theorem Ledger.next_live (hl : hist.Ledger pending) {p : ℕ × BitVec 32}
    (hnext : hist.published[hist.returned.length]? = some p) :
    p.1 ∈ hist.live := by
  rw [mem_live]
  obtain ⟨hlt, heq⟩ := List.getElem?_eq_some_iff.mp hnext
  refine ⟨(hl.published_lt (heq ▸ List.getElem_mem hlt)).trans_le hl.seen_le, ?_⟩
  intro hmem
  unfold consumed at hmem
  rw [List.map_take] at hmem
  have hdrop : p.1 ∈ (hist.published.map Prod.fst).drop hist.returned.length := by
    rw [List.drop_eq_getElem_cons (by simpa using hlt), List.getElem_map, heq]
    exact List.mem_cons_self
  have hnodup := hl.published_nodup
  rw [← List.take_append_drop hist.returned.length
    (hist.published.map Prod.fst)] at hnodup
  exact (List.nodup_append.mp hnodup).2.2 _ hmem _ hdrop rfl

/-! ## Ledger steps -/

theorem Ledger.addBuf (hl : hist.Ledger pending) (x : BitVec 16 × α) :
    History.Ledger { hist with added := hist.added ++ [x] } pending := by
  refine ⟨?_, hl.pendingHead, hl.fetched, ?_⟩
  · rw [List.map_append]
    exact hl.seen.trans (List.prefix_append _ _)
  · refine hl.returned.trans (List.map_congr_left ?_)
    intro p hp
    have hlt := (hl.published_lt (List.mem_of_mem_take hp)).trans_le hl.seen_le
    rw [List.getElem?_append_left hlt]

theorem Ledger.fetch (hl : hist.Ledger pending) {head : BitVec 16}
    (hnext : (hist.added.map Prod.fst)[hist.seen.length]? = some head) :
    History.Ledger { hist with seen := hist.seen ++ [head] }
      (pending ++ [(hist.seen.length, head)]) := by
  refine ⟨?_, ?_, ?_, hl.returned⟩
  · obtain ⟨hlt, heq⟩ := List.getElem?_eq_some_iff.mp hnext
    have htake := List.prefix_iff_eq_take.mp hl.seen
    show hist.seen ++ [head] <+: hist.added.map Prod.fst
    rw [← heq]
    nth_rewrite 1 [htake]
    rw [List.take_concat_get' _ _ hlt]
    exact List.take_prefix _ _
  · intro p hp
    rcases List.mem_append.mp hp with hold | hnew
    · rw [List.getElem?_append_left (hl.pending_lt hold)]
      exact hl.pendingHead p hold
    · rw [List.mem_singleton.mp hnew]
      simp
  · rw [List.map_append, ← List.append_assoc, List.length_append]
    simp only [List.map_cons, List.map_nil, List.length_cons, List.length_nil]
    rw [List.range_succ]
    exact hl.fetched.append_right _

theorem Ledger.complete (hl : hist.Ledger pending) {serial : ℕ}
    {head : BitVec 16} (hi : pending[i]? = some (serial, head))
    (len : BitVec 32) :
    History.Ledger
      { hist with published := hist.published ++ [(serial, len)] }
      (pending.eraseIdx i) := by
  obtain ⟨hlt, heq⟩ := List.getElem?_eq_some_iff.mp hi
  refine ⟨hl.seen, ?_, ?_, ?_⟩
  · intro p hp
    exact hl.pendingHead p (List.mem_of_mem_eraseIdx hp)
  · have herase := (List.getElem_cons_eraseIdx_perm hlt).map Prod.fst
    rw [heq, List.map_cons] at herase
    refine List.Perm.trans ?_ hl.fetched
    rw [List.map_append, List.append_assoc]
    exact herase.append_left _
  · rw [List.take_append_of_le_length hl.returned_le]
    exact hl.returned

theorem Ledger.getBuf (hl : hist.Ledger pending) {p : ℕ × BitVec 32}
    {x : BitVec 16 × α}
    (hnext : hist.published[hist.returned.length]? = some p)
    (hadded : hist.added[p.1]? = some x) :
    History.Ledger
      { hist with returned := hist.returned ++ [(x.2, p.2)] } pending := by
  refine ⟨hl.seen, hl.pendingHead, hl.fetched, ?_⟩
  obtain ⟨hlt, heq⟩ := List.getElem?_eq_some_iff.mp hnext
  have htake : hist.published.take (hist.returned.length + 1) =
      hist.published.take hist.returned.length ++ [p] := by
    rw [← heq, List.take_concat_get' _ _ hlt]
  show (hist.returned ++ [(x.2, p.2)]).map some = _
  rw [List.map_append, hl.returned, List.length_append]
  simp only [List.length_singleton, htake, List.map_append, List.map_singleton,
    hadded, Option.map_some]

theorem live_complete (hl : hist.Ledger pending) (p : ℕ × BitVec 32) :
    History.live { hist with published := hist.published ++ [p] } = hist.live := by
  unfold live consumed
  rw [List.take_append_of_le_length hl.returned_le]

theorem live_addBuf (hl : hist.Ledger pending) (x : BitVec 16 × α) :
    History.live { hist with added := hist.added ++ [x] } =
      hist.live ++ [hist.added.length] := by
  unfold live
  rw [List.length_append, List.length_singleton, List.range_succ,
    List.filter_append]
  congr 1
  have hfresh : hist.added.length ∉ hist.consumed := fun hmem =>
    absurd (hl.consumed_lt hmem) (Nat.not_lt.mpr hl.seen_le)
  rw [List.filter_singleton]
  exact congrArg (cond · _ _) (decide_eq_true hfresh)

theorem live_getBuf {p : ℕ × BitVec 32} {r : α × BitVec 32}
    (hnext : hist.published[hist.returned.length]? = some p) :
    History.live { hist with returned := hist.returned ++ [r] } =
      hist.live.filter (· ≠ p.1) := by
  obtain ⟨hlt, heq⟩ := List.getElem?_eq_some_iff.mp hnext
  have hconsumed :
      History.consumed { hist with returned := hist.returned ++ [r] } =
        hist.consumed ++ [p.1] := by
    unfold consumed
    rw [List.length_append, List.length_singleton,
      ← List.take_concat_get' _ _ hlt, heq, List.map_append]
    rfl
  unfold live
  rw [hconsumed, List.filter_filter]
  apply List.filter_congr
  intro j _
  simp [not_or, and_comm]

end History

namespace RequestQueue

variable {q : RequestQueue α} {vq' : Virtqueue α} {free : List (BitVec 16)}
  {chain : BitVec 16 → List (BitVec 16)} {h : BitVec 16} {cookie : α}

/-! ## Owners -/

/-- The cookie array is the set of outstanding chains, and no two of them
share a head. -/
structure Owners (q : RequestQueue α) : Prop where
  cookies : ∀ h cookie, q.vq.cookies h = some cookie ↔
    ∃ i ∈ q.hist.live, q.hist.added[i]? = some (h, cookie)
  distinct : ∀ i ∈ q.hist.live, ∀ j ∈ q.hist.live, ∀ x y,
    q.hist.added[i]? = some x → q.hist.added[j]? = some y → x.1 = y.1 → i = j

theorem Owners.cookie_live (ho : q.Owners) {i : ℕ} {x : BitVec 16 × α}
    (hlive : i ∈ q.hist.live) (hadded : q.hist.added[i]? = some x) :
    q.vq.cookies x.1 = some x.2 :=
  (ho.cookies x.1 x.2).mpr ⟨i, hlive, hadded⟩

/-- No more requests are live than the table has descriptors. -/
theorem Owners.live_le (ho : q.Owners) (hc : q.vq.Conserved free chain) :
    q.hist.live.length ≤ q.vq.num := by
  have hlt : ∀ i ∈ q.hist.live, ∃ x, q.hist.added[i]? = some x := by
    intro i hi
    exact ⟨_, List.getElem?_eq_getElem (History.mem_live.mp hi).1⟩
  have hnodup :
      (q.hist.live.map fun i => (q.hist.added[i]?).map Prod.fst).Nodup := by
    apply List.Nodup.map_on _ History.live_nodup
    intro i hi j hj heq
    obtain ⟨x, hx⟩ := hlt i hi
    obtain ⟨y, hy⟩ := hlt j hj
    rw [hx, hy] at heq
    exact ho.distinct i hi j hj x y hx hy (Option.some.inj heq)
  have hsubset : (q.hist.live.map fun i => (q.hist.added[i]?).map Prod.fst) ⊆
      (descriptors q.vq.num).map some := by
    intro o ho'
    obtain ⟨i, hi, rfl⟩ := List.mem_map.mp ho'
    obtain ⟨x, hx⟩ := hlt i hi
    rw [hx]
    refine List.mem_map_of_mem ((mem_descriptors hc.size_le_range).mpr ?_)
    exact hc.inTable x.1 (by simp [ho.cookie_live hi hx])
  have hlen := (List.subperm_of_subset hnodup hsubset).length_le
  simpa using hlen

/-- An added request becomes the owner of the head it was given. -/
theorem Owners.addBuf (ho : q.Owners) (hl : q.hist.Ledger q.dev.pending)
    (hfresh : q.vq.cookies q.vq.freeHead = none)
    (hadd : Virtqueue.Added q.vq vq' cookie) :
    Owners { q with
      vq := vq'
      hist := { q.hist with
        added := q.hist.added ++ [(q.vq.freeHead, cookie)] } } := by
  have hlive := History.live_addBuf hl (q.vq.freeHead, cookie)
  -- A live chain is an old one, or the one just added.
  have hcases : ∀ i ∈ q.hist.live ++ [q.hist.added.length], ∀ x,
      (q.hist.added ++ [(q.vq.freeHead, cookie)])[i]? = some x →
        (i ∈ q.hist.live ∧ q.hist.added[i]? = some x ∧ x.1 ≠ q.vq.freeHead) ∨
          (i = q.hist.added.length ∧ x = (q.vq.freeHead, cookie)) := by
    intro i hi x hx
    rcases List.mem_append.mp hi with hold | hnew
    · rw [List.getElem?_append_left (History.mem_live.mp hold).1] at hx
      refine .inl ⟨hold, hx, ?_⟩
      intro heq
      have hcookie := ho.cookie_live hold hx
      rw [heq, hfresh] at hcookie
      exact absurd hcookie (by simp)
    · rw [List.mem_singleton] at hnew
      subst hnew
      rw [List.getElem?_concat_length, Option.some.injEq] at hx
      exact .inr ⟨rfl, hx.symm⟩
  constructor
  · intro h c
    show vq'.cookies h = some c ↔ _
    rw [hadd.cookies]
    constructor
    · intro hcookie
      by_cases hh : h = q.vq.freeHead
      · subst hh
        rw [Function.update_self, Option.some.injEq] at hcookie
        subst hcookie
        refine ⟨q.hist.added.length, ?_, List.getElem?_concat_length⟩
        rw [hlive]
        exact List.mem_append_right _ (List.mem_singleton_self _)
      · rw [Function.update_of_ne hh] at hcookie
        obtain ⟨i, hi, hx⟩ := (ho.cookies h c).mp hcookie
        refine ⟨i, ?_, ?_⟩
        · rw [hlive]
          exact List.mem_append_left _ hi
        · show (q.hist.added ++ _)[i]? = _
          rw [List.getElem?_append_left (History.mem_live.mp hi).1]
          exact hx
    · rintro ⟨i, hi, hx⟩
      rw [hlive] at hi
      rcases hcases i hi _ hx with ⟨hold, hx', hne⟩ | ⟨-, heq⟩
      · rw [Function.update_of_ne hne]
        exact ho.cookie_live hold hx'
      · rw [Prod.mk.injEq] at heq
        rw [heq.1, heq.2, Function.update_self]
  · intro i hi j hj x y hx hy hxy
    rw [hlive] at hi hj
    rcases hcases i hi x hx with ⟨hi', hx', hxne⟩ | ⟨rfl, rfl⟩
    · rcases hcases j hj y hy with ⟨hj', hy', -⟩ | ⟨rfl, rfl⟩
      · exact ho.distinct i hi' j hj' x y hx' hy' hxy
      · exact absurd hxy hxne
    · rcases hcases j hj y hy with ⟨-, -, hyne⟩ | ⟨rfl, -⟩
      · exact absurd hxy.symm hyne
      · rfl

theorem Owners.getBuf (ho : q.Owners) {p : ℕ × BitVec 32} {x : BitVec 16 × α}
    (hl : q.hist.Ledger q.dev.pending)
    (hnext : q.hist.published[q.hist.returned.length]? = some p)
    (hadded : q.hist.added[p.1]? = some x)
    (htake : Virtqueue.Taken q.vq vq' x.1) :
    Owners { q with
      vq := vq'
      hist := { q.hist with
        returned := q.hist.returned ++ [(x.2, p.2)] } } := by
  have hlive := @History.live_getBuf _ _ _ (x.2, p.2) hnext
  have hpLive := hl.next_live hnext
  have hmem : ∀ i, i ∈ q.hist.live.filter (· ≠ p.1) ↔
      i ∈ q.hist.live ∧ i ≠ p.1 := by
    intro i
    rw [List.mem_filter, decide_eq_true_iff]
  constructor
  · intro h c
    show vq'.cookies h = some c ↔ _
    rw [htake.cookies, hlive]
    by_cases hh : h = x.1
    · subst hh
      rw [Function.update_self]
      constructor
      · intro hnone
        exact absurd hnone (by simp)
      · rintro ⟨i, hi, hx⟩
        obtain ⟨hi, hne⟩ := (hmem i).mp hi
        exact absurd (ho.distinct i hi p.1 hpLive _ _ hx hadded rfl) hne
    · rw [Function.update_of_ne hh, ho.cookies h c]
      constructor
      · rintro ⟨i, hi, hx⟩
        refine ⟨i, (hmem i).mpr ⟨hi, ?_⟩, hx⟩
        rintro rfl
        rw [hadded, Option.some.injEq] at hx
        exact hh (by rw [hx])
      · rintro ⟨i, hi, hx⟩
        exact ⟨i, ((hmem i).mp hi).1, hx⟩
  · intro i hi j hj y z hy hz hyz
    rw [hlive, hmem] at hi hj
    exact ho.distinct i hi.1 j hj.1 y z hy hz hyz

theorem Owners.of_same {q' : RequestQueue α} (ho : q.Owners)
    (hcookies : q'.vq.cookies = q.vq.cookies)
    (hadded : q'.hist.added = q.hist.added)
    (hlive : q'.hist.live = q.hist.live) : q'.Owners := by
  constructor
  · rw [hcookies, hadded, hlive]
    exact ho.cookies
  · rw [hadded, hlive]
    exact ho.distinct

/-! ## Rings -/

/-- A used entry as the driver decodes it. -/
def usedEntry (added : List (BitVec 16 × α)) (p : ℕ × BitVec 32) :
    Option (BitVec 32) × BitVec 32 :=
  ((added[p.1]?).map fun x => x.1.setWidth 32, p.2)

def decodeUsed (modern : Bool) (elem : VringUsedElem) :
    Option (BitVec 32) × BitVec 32 :=
  (some (vr32 modern elem.id), vr32 modern elem.len)

/-- The counters are the lengths of the histories modulo `2 ^ 16`, and the
rings hold the entries not consumed yet. -/
structure Rings (q : RequestQueue α) : Prop where
  size : ∃ j, 1 ≤ j ∧ j ≤ 15 ∧ q.vq.num = 2 ^ j
  availIdx : vr16 q.vq.modern q.vq.avail.idx =
    BitVec.ofNat 16 q.hist.added.length
  lastUsedIdx : q.vq.lastUsedIdx = BitVec.ofNat 16 q.hist.returned.length
  usedIdx : vr16 q.vq.modern q.vq.used.idx =
    BitVec.ofNat 16 q.hist.published.length
  lastAvailIdx : q.dev.lastAvailIdx = BitVec.ofNat 16 q.hist.seen.length
  availRing : Holds (vr16 q.vq.modern ∘ q.vq.avail.ring) q.vq.num
    q.hist.seen.length ((q.hist.added.map Prod.fst).drop q.hist.seen.length)
  usedRing : Holds (decodeUsed q.vq.modern ∘ q.vq.used.ring) q.vq.num
    q.hist.returned.length
    ((q.hist.published.drop q.hist.returned.length).map
      (usedEntry q.hist.added))

theorem Rings.num_pos (hr : q.Rings) : 0 < q.vq.num := by
  obtain ⟨j, -, -, hnum⟩ := hr.size
  rw [hnum]
  positivity

theorem Rings.num_dvd (hr : q.Rings) : q.vq.num ∣ 2 ^ 16 := by
  obtain ⟨j, -, hj, hnum⟩ := hr.size
  rw [hnum]
  exact Nat.pow_dvd_pow 2 (by omega)

theorem availRing_event {ring : ℕ → BitVec 16} {size lo : ℕ}
    {xs : List (BitVec 16)} {f : BitVec 16 → BitVec 16} (hsize : 0 < size)
    (hring : Holds (f ∘ ring) size lo xs) (event : BitVec 16) :
    Holds (f ∘ Function.update ring size event) size lo xs := by
  apply hring.of_eq
  intro i _
  have hcell : (lo + i) % size ≠ size := (Nat.mod_lt _ hsize).ne
  simp only [Function.comp_apply, Function.update_of_ne hcell]

/-- A new available entry lands behind those the device has not fetched yet. -/
theorem Rings.addBuf (hr : q.Rings) (hl : q.hist.Ledger q.dev.pending)
    (hroom : q.hist.live.length < q.vq.num)
    (hadd : Virtqueue.Added q.vq vq' cookie) :
    Rings { q with
      vq := vq'
      hist := { q.hist with
        added := q.hist.added ++ [(q.vq.freeHead, cookie)] } } := by
  have hseen := hl.seen_le
  have hwindow : ((q.hist.added.map Prod.fst).drop q.hist.seen.length).length <
      q.vq.num := by
    have hlive := hl.live_length
    have hret := hl.returned_le
    have hpub := hl.published_le
    rw [List.length_drop, List.length_map]
    omega
  constructor
  · exact hadd.setup.num ▸ hr.size
  · show vr16 vq'.modern vq'.avail.idx = _
    rw [hadd.setup.modern, hadd.availIdx, vr16_vr16, hr.availIdx, counter_succ,
      List.length_append]
    rfl
  · exact hadd.lastUsedIdx.trans hr.lastUsedIdx
  · show vr16 vq'.modern vq'.used.idx = _
    rw [hadd.setup.modern, hadd.used]
    exact hr.usedIdx
  · exact hr.lastAvailIdx
  · show Holds (vr16 vq'.modern ∘ vq'.avail.ring) vq'.num _ _
    have hpush := @Holds.push _ _ _ _ _ q.vq.freeHead hr.availRing hwindow
    have hcell : q.hist.seen.length +
        ((q.hist.added.map Prod.fst).drop q.hist.seen.length).length =
        q.hist.added.length := by
      rw [List.length_drop, List.length_map]
      omega
    rw [hcell] at hpush
    rw [hadd.setup.modern, hadd.setup.num, hadd.availRing, hr.availIdx,
      counter_cell hr.num_dvd, Function.comp_update, vr16_vr16,
      List.map_append, List.drop_append_of_le_length (by simpa using hseen)]
    exact hpush
  · show Holds (decodeUsed vq'.modern ∘ vq'.used.ring) vq'.num _ _
    rw [hadd.setup.modern, hadd.setup.num, hadd.used]
    have hsame : (q.hist.published.drop q.hist.returned.length).map
        (usedEntry (q.hist.added ++ [(q.vq.freeHead, cookie)])) =
        (q.hist.published.drop q.hist.returned.length).map
          (usedEntry q.hist.added) := by
      apply List.map_congr_left
      intro p hp
      have hlt := (hl.published_lt (List.mem_of_mem_drop hp)).trans_le hseen
      unfold usedEntry
      rw [List.getElem?_append_left hlt]
    show Holds _ _ q.hist.returned.length (List.map _ _)
    rw [hsame]
    exact hr.usedRing

theorem Rings.getBuf (hr : q.Rings) {p : ℕ × BitVec 32} {r : α × BitVec 32}
    {ps : List (ℕ × BitVec 32)}
    (hnext : q.hist.published.drop q.hist.returned.length = p :: ps)
    (htake : Virtqueue.Taken q.vq vq' h) :
    Rings { q with
      vq := vq'
      hist := { q.hist with returned := q.hist.returned ++ [r] } } := by
  constructor
  · exact htake.setup.num ▸ hr.size
  · show vr16 vq'.modern vq'.avail.idx = _
    rw [htake.setup.modern, htake.availIdx]
    exact hr.availIdx
  · show vq'.lastUsedIdx = _
    rw [htake.lastUsedIdx, hr.lastUsedIdx, counter_succ, List.length_append]
    rfl
  · show vr16 vq'.modern vq'.used.idx = _
    rw [htake.setup.modern, htake.used]
    exact hr.usedIdx
  · exact hr.lastAvailIdx
  · show Holds (vr16 vq'.modern ∘ vq'.avail.ring) vq'.num _ _
    rw [htake.setup.modern, htake.setup.num, htake.availRing]
    by_cases hevent : q.vq.useEventIdx = true
    · rw [if_pos hevent]
      exact availRing_event hr.num_pos hr.availRing _
    · rw [if_neg hevent]
      exact hr.availRing
  · show Holds (decodeUsed vq'.modern ∘ vq'.used.ring) vq'.num
      (q.hist.returned ++ [r]).length
      ((q.hist.published.drop (q.hist.returned ++ [r]).length).map _)
    have hring := hr.usedRing
    rw [hnext, List.map_cons] at hring
    have hrest : q.hist.published.drop (q.hist.returned.length + 1) = ps := by
      rw [← List.drop_drop, hnext]
      rfl
    rw [htake.setup.modern, htake.setup.num, htake.used, List.length_append,
      List.length_singleton, hrest]
    exact hring.pop

theorem Rings.fetch (hr : q.Rings) {head : BitVec 16} {heads : List (BitVec 16)}
    {pending : List (ℕ × BitVec 16)}
    (hnext : (q.hist.added.map Prod.fst).drop q.hist.seen.length = head :: heads) :
    Rings { q with
      dev := { q.dev with
        lastAvailIdx := q.dev.lastAvailIdx + 1
        pending := pending }
      hist := { q.hist with seen := q.hist.seen ++ [head] } } := by
  refine ⟨hr.size, hr.availIdx, hr.lastUsedIdx, hr.usedIdx, ?_, ?_, hr.usedRing⟩
  · show q.dev.lastAvailIdx + 1 = _
    rw [hr.lastAvailIdx, counter_succ, List.length_append]
    rfl
  · show Holds (vr16 q.vq.modern ∘ q.vq.avail.ring) q.vq.num
      (q.hist.seen ++ [head]).length
      ((q.hist.added.map Prod.fst).drop (q.hist.seen ++ [head]).length)
    have hring := hr.availRing
    rw [hnext] at hring
    have hrest : (q.hist.added.map Prod.fst).drop (q.hist.seen.length + 1) =
        heads := by
      rw [← List.drop_drop, hnext]
      rfl
    rw [List.length_append, List.length_singleton, hrest]
    exact hring.pop

/-- A new used entry lands behind those the driver has not consumed yet. -/
theorem Rings.complete (hr : q.Rings) (hl : q.hist.Ledger q.dev.pending)
    {serial : ℕ} {head : BitVec 16} {len : BitVec 32} {dev : Device}
    (hroom : q.hist.live.length ≤ q.vq.num)
    (hpending : (serial, head) ∈ q.dev.pending)
    (hdev : dev.lastAvailIdx = q.dev.lastAvailIdx) :
    Rings { q with
      vq := { q.vq with used := { q.vq.used with
        ring := Function.update q.vq.used.ring
          ((vr16 q.vq.modern q.vq.used.idx).toNat % q.vq.num)
          ⟨vr32 q.vq.modern (head.setWidth 32), vr32 q.vq.modern len⟩
        idx := vr16 q.vq.modern (vr16 q.vq.modern q.vq.used.idx + 1) } }
      dev := dev
      hist := { q.hist with
        published := q.hist.published ++ [(serial, len)] } } := by
  have hret := hl.returned_le
  refine ⟨hr.size, hr.availIdx, hr.lastUsedIdx, ?_, ?_, hr.availRing, ?_⟩
  · show vr16 q.vq.modern (vr16 q.vq.modern _) = _
    rw [vr16_vr16, hr.usedIdx, counter_succ, List.length_append]
    rfl
  · exact hdev.trans hr.lastAvailIdx
  · show Holds (decodeUsed q.vq.modern ∘ Function.update _ _ _) q.vq.num
      q.hist.returned.length
      (((q.hist.published ++ [(serial, len)]).drop q.hist.returned.length).map
        (usedEntry q.hist.added))
    have hwindow : ((q.hist.published.drop q.hist.returned.length).map
        (usedEntry q.hist.added)).length < q.vq.num := by
      have hlive := hl.live_length
      have hpub := hl.published_le
      have hseen := hl.seen_le
      have hpos := List.length_pos_of_mem hpending
      rw [List.length_map, List.length_drop]
      omega
    have hpush := @Holds.push _ _ _ _ _ (usedEntry q.hist.added (serial, len))
      hr.usedRing hwindow
    have hcell : q.hist.returned.length +
        ((q.hist.published.drop q.hist.returned.length).map
          (usedEntry q.hist.added)).length = q.hist.published.length := by
      rw [List.length_map, List.length_drop]
      omega
    rw [hcell] at hpush
    obtain ⟨cookie, hadded⟩ := hl.added_of_pending hpending
    have hentry : decodeUsed q.vq.modern
        ⟨vr32 q.vq.modern (head.setWidth 32), vr32 q.vq.modern len⟩ =
        usedEntry q.hist.added (serial, len) := by
      simp [decodeUsed, usedEntry, hadded]
    rw [Function.comp_update, hentry, hr.usedIdx, counter_cell hr.num_dvd,
      List.drop_append_of_le_length hret, List.map_append, List.map_singleton]
    exact hpush

/-! ## The invariant -/

structure Inv (q : RequestQueue α) (free : List (BitVec 16))
    (chain : BitVec 16 → List (BitVec 16)) : Prop where
  table : q.vq.Conserved free chain
  ledger : q.hist.Ledger q.dev.pending
  owners : q.Owners
  rings : q.Rings

theorem Inv.live_le (hi : q.Inv free chain) :
    q.hist.live.length ≤ q.vq.num :=
  hi.owners.live_le hi.table

/-- The sixteen-bit indices can tell apart any two positions that matter. -/
theorem Inv.counter_bound (hi : q.Inv free chain) :
    q.hist.added.length - q.hist.returned.length < 2 ^ 16 := by
  have hlive := hi.ledger.live_length
  have hle := hi.live_le
  have hsize := hi.table.size
  omega

/-- Comparing the sixteen-bit indices decides whether a completion is waiting. -/
theorem Inv.used_empty_iff (hi : q.Inv free chain) :
    q.vq.lastUsedIdx = vr16 q.vq.modern q.vq.used.idx ↔
      q.hist.returned.length = q.hist.published.length := by
  rw [hi.rings.lastUsedIdx, hi.rings.usedIdx]
  apply counter_eq_iff hi.ledger.returned_le
  have hbound := hi.counter_bound
  have hpub := hi.ledger.published_le
  have hseen := hi.ledger.seen_le
  omega

theorem Inv.avail_empty_iff (hi : q.Inv free chain) :
    q.dev.lastAvailIdx = vr16 q.vq.modern q.vq.avail.idx ↔
      q.hist.seen.length = q.hist.added.length := by
  rw [hi.rings.lastAvailIdx, hi.rings.availIdx]
  apply counter_eq_iff hi.ledger.seen_le
  have hbound := hi.counter_bound
  have hret := hi.ledger.returned_le
  have hpub := hi.ledger.published_le
  omega

end RequestQueue

end VirtioScsi
