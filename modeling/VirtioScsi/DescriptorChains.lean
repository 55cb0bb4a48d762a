import VirtioScsi.LinkWalk
import VirtioScsi.Virtqueue

/-!
# Descriptor chains

The descriptor table is split between the free list, threaded through native
links from `free_head`, and the chains of the outstanding requests, threaded
through NEXT flags and links in the device's byte order.  This file states the
split and shows what the two loops over the table do: the direct loop of
`AddBuf` turns a prefix of the free list into a chain, and the walk of
`GetBuf` turns a chain back into a prefix of the free list.
-/

namespace VirtioScsi

open LinkWalk

variable {α : Type*}

def descriptors (num : ℕ) : List (BitVec 16) :=
  (List.range num).map (BitVec.ofNat 16)

theorem mem_descriptors {num : ℕ} (hnum : num ≤ 2 ^ 16) {i : BitVec 16} :
    i ∈ descriptors num ↔ i.toNat < num := by
  unfold descriptors
  rw [List.mem_map]
  constructor
  · rintro ⟨k, hk, rfl⟩
    rw [List.mem_range] at hk
    rw [BitVec.toNat_ofNat, Nat.mod_eq_of_lt (by omega)]
    exact hk
  · intro hi
    exact ⟨i.toNat, List.mem_range.mpr hi, by simp⟩

theorem descriptors_nodup {num : ℕ} (hnum : num ≤ 2 ^ 16) :
    (descriptors num).Nodup := by
  unfold descriptors
  apply List.Nodup.map_on _ List.nodup_range
  intro a ha b hb heq
  rw [List.mem_range] at ha hb
  have hnat := congrArg BitVec.toNat heq
  rw [BitVec.toNat_ofNat, BitVec.toNat_ofNat, Nat.mod_eq_of_lt (by omega),
    Nat.mod_eq_of_lt (by omega)] at hnat
  exact hnat

@[simp] theorem descriptors_length (num : ℕ) :
    (descriptors num).length = num := by
  simp [descriptors]

/-! ## Links -/

def freeLink (desc : BitVec 16 → VringDesc) (i : BitVec 16) : BitVec 16 :=
  (desc i).next

/-- The link of a descriptor in flight: followed only under NEXT. -/
def chainLink (modern : Bool) (desc : BitVec 16 → VringDesc) (i : BitVec 16) :
    Option (BitVec 16) :=
  if vr16 modern (desc i).flags &&& vringDescFNext = 0 then none
  else some (vr16 modern (desc i).next)


theorem segmentFlags_and_next (outNum total n : ℕ) :
    Virtqueue.segmentFlags outNum total n &&& vringDescFNext =
      if n < total - 1 then vringDescFNext else 0 := by
  unfold Virtqueue.segmentFlags
  by_cases hout : outNum ≤ n <;> by_cases hlast : n < total - 1 <;>
    simp only [hout, hlast, if_true, if_false] <;> decide

/-! ## The direct loop of `AddBuf` -/

/-- A descriptor that carries segment `n` of a scatter-gather list. -/
structure Carries (modern : Bool) (sg : ℕ → VringSg) (outNum total n : ℕ)
    (d : VringDesc) : Prop where
  addr : d.addr = vr64 modern ((sg n).addr.setWidth 64)
  len : d.len = vr32 modern (sg n).len
  flags : d.flags = vr16 modern (Virtqueue.segmentFlags outNum total n)

/-- From segment `n` on, the loop writes the chain `cells` over the free-list
prefix it started on, leaves every other descriptor alone, and hands on the
link that followed the prefix.  The induction is on the prefix: each turn
reads the link of a cell the earlier turns did not touch. -/
theorem writeChain_spec {modern : Bool} {sg : ℕ → VringSg}
    {outNum total n : ℕ} {idx after : BitVec 16}
    {desc : BitVec 16 → VringDesc} {cells : List (BitVec 16)}
    (hwalk : Walk (freeLink desc) id idx cells after)
    (hnodup : cells.Nodup) (htotal : n + cells.length = total) :
    let result := Virtqueue.writeChain modern sg outNum total cells.length n
      idx desc
    result.2 = after ∧
      (∀ i, i ∉ cells → result.1 i = desc i) ∧
      (∀ j (hj : j < cells.length),
        Carries modern sg outNum total (n + j) (result.1 cells[j])) ∧
      (cells ≠ [] →
        Walk (chainLink modern result.1) some (some idx) cells none) := by
  induction cells generalizing n idx desc with
  | nil => exact ⟨hwalk, fun _ _ => rfl, by simp, by simp⟩
  | cons a cells ih =>
      obtain ⟨hidx, hrest⟩ := hwalk
      have hidx : idx = a := hidx
      subst hidx
      obtain ⟨hfresh, hnodupRest⟩ := List.nodup_cons.mp hnodup
      simp only [List.length_cons, Virtqueue.writeChain]
      set written : VringDesc :=
        { addr := vr64 modern ((sg n).addr.setWidth 64)
          len := vr32 modern (sg n).len
          flags := vr16 modern (Virtqueue.segmentFlags outNum total n)
          next := if n < total - 1 then vr16 modern (desc idx).next
            else (desc idx).next } with hwritten
      have hwalk' : Walk (freeLink (Function.update desc idx written)) id
          (desc idx).next cells after := by
        apply hrest.congr
        intro b hb
        unfold freeLink
        rw [Function.update_of_ne (ne_of_mem_of_not_mem hb hfresh)]
      obtain ⟨hafter, hframe, hcarries, hchain⟩ :=
        ih hwalk' hnodupRest (n := n + 1)
          (by simpa [Nat.add_assoc, Nat.add_comm 1] using htotal)
      have hself :
          (Virtqueue.writeChain modern sg outNum total cells.length (n + 1)
            (desc idx).next (Function.update desc idx written)).1 idx =
          written := by
        rw [hframe idx hfresh, Function.update_self]
      refine ⟨hafter, ?_, ?_, ?_⟩
      · intro i hi
        rw [List.mem_cons, not_or] at hi
        rw [hframe i hi.2, Function.update_of_ne hi.1]
      · intro j hj
        cases j with
        | zero =>
            rw [List.getElem_cons_zero, hself]
            exact ⟨rfl, rfl, rfl⟩
        | succ j =>
            have hj' : j < cells.length := by simpa using hj
            have hnext := hcarries j hj'
            rw [List.getElem_cons_succ, show n + (j + 1) = n + 1 + j by omega]
            exact hnext
      · intro _
        refine ⟨rfl, ?_⟩
        have hflags : vr16 modern written.flags &&& vringDescFNext =
            if n < total - 1 then vringDescFNext else 0 := by
          rw [hwritten]
          simp only [vr16_vr16]
          exact segmentFlags_and_next outNum total n
        unfold chainLink
        rw [hself, hflags]
        cases cells with
        | nil =>
            have hlast : ¬ n < total - 1 := by
              simp only [List.length_cons, List.length_nil] at htotal
              omega
            simp [hlast]
        | cons b cells =>
            have hmore : n < total - 1 := by
              simp only [List.length_cons] at htotal
              omega
            have hne : vringDescFNext ≠ 0 := by decide
            have hlink : vr16 modern written.next = (desc idx).next := by
              rw [hwritten]
              simp [hmore]
            simp only [hmore, if_true, hne, if_false, hlink]
            exact hchain (by simp)

/-! ## The walk of `GetBuf` -/

/-- Walking a chain off the table pushes its descriptors, last one first, on
the free list.  The induction is on the chain; each turn moves its first
descriptor to the front of the free list. -/
theorem freeChain_spec {modern : Bool} {idx freeHead after : BitVec 16}
    {desc : BitVec 16 → VringDesc} {cells free : List (BitVec 16)}
    {fuel freed : ℕ}
    (hchain : Walk (chainLink modern desc) some (some idx) cells none)
    (hfree : Walk (freeLink desc) id freeHead free after)
    (hnodup : (cells ++ free).Nodup) (hfuel : cells.length ≤ fuel) :
    ∃ desc' freeHead',
      Virtqueue.freeChain modern fuel idx desc freeHead freed =
        some (desc', freeHead', freed + cells.length) ∧
      (∀ i, i ∉ cells → desc' i = desc i) ∧
      Walk (freeLink desc') id freeHead' (cells.reverse ++ free) after := by
  induction cells generalizing idx desc freeHead free fuel freed with
  | nil => exact absurd hchain (by simp)
  | cons a cells ih =>
      obtain ⟨hidx, hrest⟩ := hchain
      have hidx : idx = a := Option.some.inj hidx
      subst hidx
      cases fuel with
      | zero => simp at hfuel
      | succ fuel =>
          rw [List.cons_append, List.nodup_cons] at hnodup
          obtain ⟨hfresh, hnodup⟩ := hnodup
          rw [List.mem_append, not_or] at hfresh
          set cleared : VringDesc :=
            { addr := 0, len := 0, flags := 0, next := freeHead }
          have hfree' : Walk (freeLink (Function.update desc idx cleared)) id
              idx (idx :: free) after := by
            have hpush := hfree.push hfresh.2
            apply hpush.congr
            intro b hb
            by_cases hbi : b = idx
            · subst hbi
              simp [freeLink, cleared]
            · simp [freeLink, Function.update_of_ne hbi]
          simp only [Virtqueue.freeChain]
          by_cases hlast : vr16 modern (desc idx).flags &&& vringDescFNext = 0
          · have hnil : cells = [] := by
              rw [chainLink, if_pos hlast] at hrest
              cases cells with
              | nil => rfl
              | cons b cells => exact absurd hrest.1 (by simp)
            subst hnil
            refine ⟨_, _, if_pos hlast, ?_, hfree'⟩
            intro i hi
            rw [List.mem_singleton] at hi
            exact Function.update_of_ne hi _ _
          · rw [chainLink, if_neg hlast] at hrest
            have hchain' :
                Walk (chainLink modern (Function.update desc idx cleared)) some
                  (some (vr16 modern (desc idx).next)) cells none := by
              apply hrest.congr
              intro b hb
              unfold chainLink
              rw [Function.update_of_ne (ne_of_mem_of_not_mem hb hfresh.1)]
            have hnodup' : (cells ++ idx :: free).Nodup := by
              rw [List.nodup_middle, List.nodup_cons, List.mem_append, not_or]
              exact ⟨hfresh, hnodup⟩
            obtain ⟨desc', freeHead', heq, hframe, hwalk⟩ :=
              @ih _ _ _ _ fuel (freed + 1) hchain' hfree' hnodup'
                (by simpa using hfuel)
            refine ⟨desc', freeHead', ?_, ?_, ?_⟩
            · rw [if_neg hlast, heq, List.length_cons]
              congr 3
              omega
            · intro i hi
              rw [List.mem_cons, not_or] at hi
              rw [hframe i hi.2, Function.update_of_ne hi.1]
            · simpa using hwalk

/-! ## Conservation of descriptors -/

namespace Virtqueue

/-- The heads whose cookie `GetBuf` has not returned yet. -/
def outstandingHeads (vq : Virtqueue α) : List (BitVec 16) :=
  (descriptors vq.num).filter fun h => (vq.cookies h).isSome

/-- The table is the free list and the chains of the outstanding heads, each
descriptor once. -/
structure Conserved (vq : Virtqueue α) (free : List (BitVec 16))
    (chain : BitVec 16 → List (BitVec 16)) : Prop where
  size : vq.num < 2 ^ 16
  freeLength : free.length = vq.numFree.toNat
  freeWalk : ∃ after, Walk (freeLink vq.desc) id vq.freeHead free after
  chainWalk : ∀ h, (vq.cookies h).isSome →
    Walk (chainLink vq.modern vq.desc) some (some h) (chain h) none
  indirectChain : ∀ h, (vq.indirectTables h).isSome → chain h = [h]
  inTable : ∀ h, (vq.cookies h).isSome → h.toNat < vq.num
  partition :
    (free ++ vq.outstandingHeads.flatMap chain).Perm (descriptors vq.num)

theorem Conserved.size_le_range {vq : Virtqueue α}
    {free : List (BitVec 16)} {chain : BitVec 16 → List (BitVec 16)}
    (hc : vq.Conserved free chain) : vq.num ≤ 2 ^ 16 :=
  hc.size.le

variable {vq : Virtqueue α} {free : List (BitVec 16)}
  {chain : BitVec 16 → List (BitVec 16)} {h : BitVec 16} {cookie : α}

theorem Conserved.mem_outstandingHeads (hc : vq.Conserved free chain) :
    h ∈ vq.outstandingHeads ↔ (vq.cookies h).isSome := by
  unfold outstandingHeads
  rw [List.mem_filter, mem_descriptors hc.size_le_range]
  exact ⟨fun hmem => hmem.2, fun hsome => ⟨hc.inTable h hsome, hsome⟩⟩

theorem outstandingHeads_nodup (hnum : vq.num ≤ 2 ^ 16) :
    vq.outstandingHeads.Nodup :=
  (descriptors_nodup hnum).filter _

theorem Conserved.nodup (hc : vq.Conserved free chain) :
    (free ++ vq.outstandingHeads.flatMap chain).Nodup :=
  hc.partition.nodup_iff.mpr (descriptors_nodup hc.size_le_range)

theorem Conserved.head_mem_chain (hc : vq.Conserved free chain)
    (hsome : (vq.cookies h).isSome) : h ∈ chain h := by
  have hwalk := hc.chainWalk h hsome
  cases hchain : chain h with
  | nil => rw [hchain] at hwalk; simp at hwalk
  | cons a cells =>
      rw [hchain] at hwalk
      rw [Option.some.inj hwalk.1]
      exact List.mem_cons_self

theorem Conserved.cookie_of_free (hc : vq.Conserved free chain)
    (hfree : h ∈ free) : vq.cookies h = none := by
  by_contra hne
  have hsome : (vq.cookies h).isSome := Option.isSome_iff_ne_none.mpr hne
  have hchain : h ∈ vq.outstandingHeads.flatMap chain :=
    List.mem_flatMap.mpr
      ⟨h, hc.mem_outstandingHeads.mpr hsome, hc.head_mem_chain hsome⟩
  exact (List.nodup_append.mp hc.nodup).2.2 h hfree h hchain rfl

theorem outstandingHeads_insert {vq' : Virtqueue α} (hnum : vq.num ≤ 2 ^ 16)
    (hlt : h.toNat < vq.num) (hnone : vq.cookies h = none)
    (hsize : vq'.num = vq.num)
    (hcookies : vq'.cookies = Function.update vq.cookies h (some cookie)) :
    vq'.outstandingHeads.Perm (h :: vq.outstandingHeads) := by
  have hfresh : h ∉ vq.outstandingHeads := by
    unfold outstandingHeads
    simp [hnone]
  rw [List.perm_ext_iff_of_nodup
    (outstandingHeads_nodup (hsize ▸ hnum))
    (List.nodup_cons.mpr ⟨hfresh, outstandingHeads_nodup hnum⟩)]
  intro i
  unfold outstandingHeads
  rw [List.mem_filter, List.mem_cons, List.mem_filter, hsize, hcookies]
  by_cases hi : i = h
  · subst hi
    simp [mem_descriptors hnum, hlt]
  · simp [hi]

theorem Conserved.of_same {vq' : Virtqueue α} (hc : vq.Conserved free chain)
    (hnum : vq'.num = vq.num) (hdesc : vq'.desc = vq.desc)
    (hhead : vq'.freeHead = vq.freeHead) (hfree : vq'.numFree = vq.numFree)
    (hcookies : vq'.cookies = vq.cookies)
    (htables : vq'.indirectTables = vq.indirectTables)
    (hmodern : vq'.modern = vq.modern) : vq'.Conserved free chain := by
  have hheads : vq'.outstandingHeads = vq.outstandingHeads := by
    unfold outstandingHeads
    rw [hnum, hcookies]
  constructor
  · rw [hnum]; exact hc.size
  · rw [hfree]; exact hc.freeLength
  · rw [hdesc, hhead]; exact hc.freeWalk
  · rw [hcookies, hmodern, hdesc]; exact hc.chainWalk
  · rw [htables]; exact hc.indirectChain
  · rw [hcookies, hnum]; exact hc.inTable
  · rw [hheads, hnum]; exact hc.partition

end Virtqueue

end VirtioScsi
