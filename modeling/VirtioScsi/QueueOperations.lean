import VirtioScsi.DescriptorChains
import VirtioScsi.RingWindow

/-!
# What `AddBuf` and `GetBuf` do to a conserved table

Both operations move one chain across the split of the descriptor table.  The
two movements are stated once, for any change of the table with the right
frame; the direct path, the indirect path and the two ways of freeing a chain
are instances.
-/

namespace VirtioScsi
namespace Virtqueue

open LinkWalk

variable {α : Type*} {vq vq' : Virtqueue α} {free cells rest : List (BitVec 16)}
  {chain : BitVec 16 → List (BitVec 16)} {h : BitVec 16} {cookie : α}
  {sg : ℕ → VringSg} {outNum total : ℕ}

structure SameSetup (vq' vq : Virtqueue α) : Prop where
  num : vq'.num = vq.num
  modern : vq'.modern = vq.modern
  useEventIdx : vq'.useEventIdx = vq.useEventIdx
  useIndirect : vq'.useIndirect = vq.useIndirect

theorem SameSetup.refl (vq : Virtqueue α) : SameSetup vq vq :=
  ⟨rfl, rfl, rfl, rfl⟩

theorem SameSetup.trans {vq'' : Virtqueue α} (h₁ : SameSetup vq'' vq')
    (h₂ : SameSetup vq' vq) : SameSetup vq'' vq :=
  ⟨h₁.num.trans h₂.num, h₁.modern.trans h₂.modern,
    h₁.useEventIdx.trans h₂.useEventIdx, h₁.useIndirect.trans h₂.useIndirect⟩

/-! ## A chain leaves the free list -/

/-- Cutting a prefix off the free list makes it the chain of a new head. -/
theorem Conserved.occupy {table : Option IndirectTable}
    (hc : vq.Conserved (cells ++ rest) chain) (hcells : cells ≠ [])
    (hsize : vq'.num = vq.num) (hmodern : vq'.modern = vq.modern)
    (hframe : ∀ i, i ∉ cells → vq'.desc i = vq.desc i)
    (hchain :
      Walk (chainLink vq.modern vq'.desc) some (some vq.freeHead) cells none)
    (hrest : Walk (freeLink vq.desc) id vq.freeHead cells vq'.freeHead)
    (hfree : vq'.numFree.toNat = rest.length)
    (hcookies :
      vq'.cookies = Function.update vq.cookies vq.freeHead (some cookie))
    (htables :
      vq'.indirectTables = Function.update vq.indirectTables vq.freeHead table)
    (htable : table.isSome → cells = [vq.freeHead]) :
    vq'.Conserved rest (Function.update chain vq.freeHead cells) := by
  have hnodup := hc.nodup
  obtain ⟨after, hwalk⟩ := hc.freeWalk
  have hhead : vq.freeHead ∈ cells := by
    cases cells with
    | nil => exact absurd rfl hcells
    | cons a cells =>
        rw [show vq.freeHead = a from hrest.1]
        exact List.mem_cons_self
  have hfresh : vq.cookies vq.freeHead = none :=
    hc.cookie_of_free (List.mem_append_left _ hhead)
  have hlt : vq.freeHead.toNat < vq.num := by
    rw [← mem_descriptors hc.size_le_range, ← hc.partition.mem_iff]
    exact List.mem_append_left _ (List.mem_append_left _ hhead)
  have hne : ∀ i, (vq.cookies i).isSome → i ≠ vq.freeHead := by
    intro i hsome heq
    rw [heq, hfresh] at hsome
    simp at hsome
  -- No outstanding chain meets the cells taken off the free list.
  have hdisjoint : ∀ i, (vq.cookies i).isSome → ∀ a ∈ chain i, a ∉ cells := by
    intro i hsome a ha hmem
    have hflat : a ∈ vq.outstandingHeads.flatMap chain :=
      List.mem_flatMap.mpr ⟨i, hc.mem_outstandingHeads.mpr hsome, ha⟩
    exact (List.nodup_append.mp hnodup).2.2 a (List.mem_append_left _ hmem)
      a hflat rfl
  have hheads : vq'.outstandingHeads.Perm (vq.freeHead :: vq.outstandingHeads) :=
    outstandingHeads_insert hc.size_le_range hlt hfresh hsize hcookies
  constructor
  · rw [hsize]
    exact hc.size
  · exact hfree.symm
  · rw [walk_append] at hwalk
    obtain ⟨mid, hfirst, hsecond⟩ := hwalk
    have hmid : mid = vq'.freeHead := hfirst.end_unique hrest
    subst hmid
    refine ⟨after, hsecond.congr ?_⟩
    intro a ha
    have hnot : a ∉ cells := by
      intro hmem
      exact (List.nodup_append.mp (List.nodup_append.mp hnodup).1).2.2
        a hmem a ha rfl
    unfold freeLink
    rw [hframe a hnot]
  · intro i hsome
    rw [hcookies] at hsome
    by_cases hi : i = vq.freeHead
    · subst hi
      rw [Function.update_self, hmodern]
      exact hchain
    · rw [Function.update_of_ne hi] at hsome ⊢
      rw [hmodern]
      apply (hc.chainWalk i hsome).congr
      intro a ha
      unfold chainLink
      rw [hframe a (hdisjoint i hsome a ha)]
  · intro i hsome
    rw [htables] at hsome
    by_cases hi : i = vq.freeHead
    · subst hi
      rw [Function.update_self] at hsome ⊢
      exact htable hsome
    · rw [Function.update_of_ne hi] at hsome ⊢
      exact hc.indirectChain i hsome
  · intro i hsome
    rw [hcookies] at hsome
    rw [hsize]
    by_cases hi : i = vq.freeHead
    · rw [hi]
      exact hlt
    · rw [Function.update_of_ne hi] at hsome
      exact hc.inTable i hsome
  · have hflat :
        vq.outstandingHeads.flatMap (Function.update chain vq.freeHead cells) =
          vq.outstandingHeads.flatMap chain := by
      apply List.flatMap_congr
      intro i hi
      exact Function.update_of_ne (hne i (hc.mem_outstandingHeads.mp hi)) _ _
    have hperm := List.Perm.flatMap_right
      (Function.update chain vq.freeHead cells) hheads
    rw [List.flatMap_cons, Function.update_self, hflat] at hperm
    rw [hsize]
    calc
      (rest ++ vq'.outstandingHeads.flatMap
          (Function.update chain vq.freeHead cells)).Perm
          (rest ++ (cells ++ vq.outstandingHeads.flatMap chain)) :=
        hperm.append_left rest
      _ = (rest ++ cells) ++ vq.outstandingHeads.flatMap chain := by
        rw [List.append_assoc]
      List.Perm _ ((cells ++ rest) ++ vq.outstandingHeads.flatMap chain) :=
        List.perm_append_comm.append_right _
      List.Perm _ (descriptors vq.num) := hc.partition

/-! ## A chain returns to the free list -/

/-- Prepending the chain of a head to the free list frees exactly its cells. -/
theorem Conserved.release
    (hc : vq.Conserved free chain) (hcookie : vq.cookies h = some cookie)
    (hsize : vq'.num = vq.num) (hmodern : vq'.modern = vq.modern)
    (hframe : ∀ i, i ∉ chain h → vq'.desc i = vq.desc i)
    (hwalk : ∃ after, Walk (freeLink vq'.desc) id vq'.freeHead
      ((chain h).reverse ++ free) after)
    (hfree : vq'.numFree = vq.numFree + BitVec.ofNat 16 (chain h).length)
    (hcookies : vq'.cookies = Function.update vq.cookies h none)
    (htables : vq'.indirectTables = Function.update vq.indirectTables h none) :
    vq'.Conserved ((chain h).reverse ++ free) chain := by
  have hnodup := hc.nodup
  have hsome : (vq.cookies h).isSome := by simp [hcookie]
  have hbefore : vq.outstandingHeads.Perm (h :: vq'.outstandingHeads) := by
    apply @outstandingHeads_insert _ vq' h cookie vq
    · rw [hsize]
      exact hc.size_le_range
    · rw [hsize]
      exact hc.inTable h hsome
    · rw [hcookies, Function.update_self]
    · exact hsize.symm
    · rw [hcookies, Function.update_idem, ← hcookie, Function.update_eq_self]
  have hchains : (chain h ++ vq'.outstandingHeads.flatMap chain).Perm
      (vq.outstandingHeads.flatMap chain) := by
    have hperm := (List.Perm.flatMap_right chain hbefore).symm
    rwa [List.flatMap_cons] at hperm
  have hkept : ∀ i, (vq'.cookies i).isSome → i ≠ h ∧ (vq.cookies i).isSome := by
    intro i hi
    rw [hcookies] at hi
    by_cases heq : i = h
    · subst heq
      simp at hi
    · rw [Function.update_of_ne heq] at hi
      exact ⟨heq, hi⟩
  -- The chains still outstanding are disjoint from the one taken back.
  have hdisjoint : ∀ i, (vq'.cookies i).isSome → ∀ a ∈ chain i, a ∉ chain h := by
    intro i hi a ha hmem
    have hout : i ∈ vq'.outstandingHeads := by
      unfold outstandingHeads
      rw [List.mem_filter, hsize, mem_descriptors hc.size_le_range]
      exact ⟨hc.inTable i (hkept i hi).2, hi⟩
    have hparts : (chain h ++ vq'.outstandingHeads.flatMap chain).Nodup :=
      hchains.nodup_iff.mpr (List.nodup_append.mp hnodup).2.1
    exact (List.nodup_append.mp hparts).2.2 a hmem a
      (List.mem_flatMap.mpr ⟨i, hout, ha⟩) rfl
  have htotal : (chain h).length + free.length ≤ vq.num := by
    have hlen := hc.partition.length_eq
    have hsplit := hchains.length_eq
    rw [List.length_append, descriptors_length] at hlen
    rw [List.length_append] at hsplit
    omega
  have hsizeBound := hc.size
  constructor
  · rw [hsize]
    exact hc.size
  · rw [hfree, BitVec.toNat_add, BitVec.toNat_ofNat, List.length_append,
      List.length_reverse, ← hc.freeLength]
    omega
  · exact hwalk
  · intro i hi
    rw [hmodern]
    apply (hc.chainWalk i (hkept i hi).2).congr
    intro a ha
    unfold chainLink
    rw [hframe a (hdisjoint i hi a ha)]
  · intro i hi
    rw [htables] at hi
    by_cases heq : i = h
    · subst heq
      simp at hi
    · rw [Function.update_of_ne heq] at hi
      exact hc.indirectChain i hi
  · intro i hi
    rw [hsize]
    exact hc.inTable i (hkept i hi).2
  · rw [hsize]
    have hswap : ((chain h).reverse ++ free).Perm (free ++ chain h) :=
      ((List.reverse_perm _).append_right free).trans List.perm_append_comm
    calc
      ((chain h).reverse ++ free ++ vq'.outstandingHeads.flatMap chain).Perm
          (free ++ chain h ++ vq'.outstandingHeads.flatMap chain) :=
        hswap.append_right _
      _ = free ++ (chain h ++ vq'.outstandingHeads.flatMap chain) := by
        rw [List.append_assoc]
      List.Perm _ (free ++ vq.outstandingHeads.flatMap chain) :=
        hchains.append_left free
      List.Perm _ (descriptors vq.num) := hc.partition

/-! ## The two paths of `AddBuf` -/

theorem Conserved.publish (hc : vq.Conserved free chain) (head : BitVec 16) :
    (vq.publish head).Conserved free chain :=
  hc.of_same rfl rfl rfl rfl rfl rfl rfl

theorem Conserved.addBufDirect (hc : vq.Conserved (cells ++ rest) chain)
    (hcells : cells ≠ []) :
    (vq.addBufDirect sg outNum cells.length cookie).Conserved rest
      (Function.update chain vq.freeHead cells) := by
  obtain ⟨after, hwalk⟩ := hc.freeWalk
  obtain ⟨mid, hfirst, -⟩ := walk_append.mp hwalk
  have hnodup : cells.Nodup :=
    (List.nodup_append.mp (List.nodup_append.mp hc.nodup).1).1
  obtain ⟨hafter, hframe, -, hchain⟩ :=
    @writeChain_spec vq.modern sg outNum cells.length 0 _ _ _ _ hfirst hnodup
      (Nat.zero_add _)
  have hfreeLen := hc.freeLength
  rw [List.length_append] at hfreeLen
  unfold Virtqueue.addBufDirect
  apply Conserved.publish
  refine hc.occupy hcells rfl rfl hframe (hchain hcells) ?_ ?_ rfl rfl
    (by simp)
  · show Walk _ id _ _ (writeChain _ _ _ _ _ _ _ _).2
    rw [hafter]
    exact hfirst
  · show (vq.numFree - BitVec.ofNat 16 cells.length).toNat = _
    rw [BitVec.toNat_sub, BitVec.toNat_ofNat]
    have := vq.numFree.isLt
    omega

theorem Conserved.addBufIndirect {virt : ℕ} {phys : BitVec 32} {a : BitVec 16}
    (hc : vq.Conserved (a :: rest) chain) :
    (vq.addBufIndirect sg outNum total cookie virt phys).Conserved
      rest (Function.update chain vq.freeHead [vq.freeHead]) := by
  have hfreeLen := hc.freeLength
  rw [List.length_cons] at hfreeLen
  obtain ⟨after, hwalk⟩ := hc.freeWalk
  have hhead : vq.freeHead = a := hwalk.1
  subst hhead
  have hc : vq.Conserved ([vq.freeHead] ++ rest) chain := hc
  unfold Virtqueue.addBufIndirect
  apply Conserved.publish
  refine hc.occupy (by simp) rfl rfl ?_ ?_ ⟨rfl, rfl⟩ ?_ rfl rfl (by simp)
  · intro i hi
    rw [List.mem_singleton] at hi
    exact Function.update_of_ne hi _ _
  · refine ⟨rfl, ?_⟩
    have hflags : vringDescFIndirect &&& vringDescFNext = 0 := by decide
    simp [chainLink, hflags]
  · show (vq.numFree - 1).toNat = _
    rw [BitVec.toNat_sub]
    have := vq.numFree.isLt
    simp
    omega

/-! ## `AddBuf` -/

/-- What a successful `AddBuf` does outside the descriptor table. -/
structure Added (vq vq' : Virtqueue α) (cookie : α) : Prop where
  setup : SameSetup vq' vq
  cookies : vq'.cookies = Function.update vq.cookies vq.freeHead (some cookie)
  used : vq'.used = vq.used
  lastUsedIdx : vq'.lastUsedIdx = vq.lastUsedIdx
  availIdx : vq'.avail.idx = vr16 vq.modern (vr16 vq.modern vq.avail.idx + 1)
  availRing : vq'.avail.ring = Function.update vq.avail.ring
    ((vr16 vq.modern vq.avail.idx).toNat % vq.num) (vr16 vq.modern vq.freeHead)

theorem addBufDirect_added :
    Added vq (vq.addBufDirect sg outNum total cookie) cookie :=
  ⟨⟨rfl, rfl, rfl, rfl⟩, rfl, rfl, rfl, rfl, rfl⟩

theorem addBufIndirect_added {virt : ℕ} {phys : BitVec 32} :
    Added vq (vq.addBufIndirect sg outNum total cookie virt phys) cookie :=
  ⟨⟨rfl, rfl, rfl, rfl⟩, rfl, rfl, rfl, rfl, rfl⟩

theorem addBufFallback_cases {ops : List ExecOp}
    {result : AddBufResult α}
    (hresult : vq.addBufFallback sg outNum total cookie ops = result) :
    (result.rc = -1 ∧ result.vq = vq) ∨
      (result.rc = 0 ∧ total ≤ vq.numFree.toNat ∧
        result.vq = vq.addBufDirect sg outNum total cookie) := by
  unfold addBufFallback at hresult
  by_cases hroom : vq.numFree.toNat < total
  · rw [if_pos hroom] at hresult
    subst hresult
    exact .inl ⟨rfl, rfl⟩
  · rw [if_neg hroom] at hresult
    subst hresult
    exact .inr ⟨rfl, Nat.le_of_not_lt hroom, rfl⟩

/-- The outcomes of `VirtQueue_AddBuf`: full, direct, indirect, or a table refused on
the way. -/
theorem addBuf_cases {inNum : ℕ} {env : IndirectEnv} {result : AddBufResult α}
    (hresult : vq.addBuf sg outNum inNum cookie env = result) :
    (result.rc = -1 ∧ result.vq = vq) ∨
      (result.rc = 0 ∧ outNum + inNum ≤ vq.numFree.toNat ∧
        result.vq = vq.addBufDirect sg outNum (outNum + inNum) cookie) ∨
      (result.rc = 0 ∧ 1 ≤ vq.numFree.toNat ∧
        ∃ virt phys, env.itbl = some virt ∧ env.itblDma = some phys ∧
          result.vq =
            vq.addBufIndirect sg outNum (outNum + inNum) cookie virt phys) := by
  unfold addBuf at hresult
  dsimp only at hresult
  split at hresult
  · split at hresult
    · subst hresult
      exact .inl ⟨rfl, rfl⟩
    · next hroom =>
      split at hresult
      · exact (addBufFallback_cases hresult).imp_right Or.inl
      · next virt hvirt =>
        split at hresult
        · split at hresult
          · next phys hphys =>
            subst hresult
            exact .inr (.inr ⟨rfl, by omega, virt, phys, hvirt, hphys, rfl⟩)
          · exact (addBufFallback_cases hresult).imp_right Or.inl
        · exact (addBufFallback_cases hresult).imp_right Or.inl
  · exact (addBufFallback_cases hresult).imp_right Or.inl

theorem addBuf_failed {inNum : ℕ} {env : IndirectEnv} {result : AddBufResult α}
    (hresult : vq.addBuf sg outNum inNum cookie env = result)
    (hrc : result.rc ≠ 0) : result.vq = vq := by
  rcases addBuf_cases hresult with ⟨-, hsame⟩ | ⟨hok, -⟩ | ⟨hok, -⟩
  · exact hsame
  · exact absurd hok hrc
  · exact absurd hok hrc

/-- `VirtQueue_AddBuf` neither loses nor duplicates a descriptor. -/
theorem Conserved.addBuf {inNum : ℕ} {env : IndirectEnv}
    {result : AddBufResult α} (hc : vq.Conserved free chain)
    (hpos : 1 ≤ outNum + inNum)
    (hresult : vq.addBuf sg outNum inNum cookie env = result)
    (hrc : result.rc = 0) :
    Added vq result.vq cookie ∧ vq.cookies vq.freeHead = none ∧
      vq.freeHead.toNat < vq.num ∧
      ∃ cells rest, free = cells ++ rest ∧
        result.vq.Conserved rest (Function.update chain vq.freeHead cells) := by
  have hfreeLen := hc.freeLength
  have hhead : ∀ a l, free = a :: l → vq.freeHead = a := by
    intro a l hfree
    obtain ⟨after, hwalk⟩ := hc.freeWalk
    rw [hfree] at hwalk
    exact hwalk.1
  have hfacts : free ≠ [] → vq.cookies vq.freeHead = none ∧
      vq.freeHead.toNat < vq.num := by
    intro hne
    obtain ⟨a, l, hfree⟩ := List.exists_cons_of_ne_nil hne
    have hmem : vq.freeHead ∈ free := by
      rw [hfree, hhead a l hfree]
      exact List.mem_cons_self
    refine ⟨hc.cookie_of_free hmem, ?_⟩
    rw [← mem_descriptors hc.size_le_range, ← hc.partition.mem_iff]
    exact List.mem_append_left _ hmem
  rcases addBuf_cases hresult with ⟨hfail, -⟩ | ⟨-, hroom, hvq⟩ |
      ⟨-, hroom, virt, phys, -, -, hvq⟩
  · rw [hfail] at hrc
    exact absurd hrc (by decide)
  · have hlen : (free.take (outNum + inNum)).length = outNum + inNum := by
      rw [List.length_take]
      omega
    have hcells : free.take (outNum + inNum) ≠ [] := by
      intro hnil
      rw [hnil, List.length_nil] at hlen
      omega
    have hne : free ≠ [] := fun hnil => hcells (by rw [hnil, List.take_nil])
    rw [← List.take_append_drop (outNum + inNum) free] at hc
    have hdone := @Conserved.addBufDirect _ _ _ _ _ cookie sg outNum hc hcells
    rw [hlen, ← hvq] at hdone
    refine ⟨hvq ▸ addBufDirect_added, (hfacts hne).1, (hfacts hne).2, _, _,
      (List.take_append_drop _ _).symm, hdone⟩
  · cases hfree : free with
    | nil =>
        rw [hfree, List.length_nil] at hfreeLen
        omega
    | cons a l =>
        have hne : free ≠ [] := by simp [hfree]
        rw [hfree] at hc
        rw [hvq]
        refine ⟨addBufIndirect_added, (hfacts hne).1, (hfacts hne).2,
          [vq.freeHead], l, ?_, hc.addBufIndirect⟩
        rw [hhead a l hfree]
        rfl

/-! ## `GetBuf` -/

/-- What `GetBuf` does outside the descriptor table when it takes the chain of
`h`. -/
structure Taken (vq vq' : Virtqueue α) (h : BitVec 16) : Prop where
  setup : SameSetup vq' vq
  cookies : vq'.cookies = Function.update vq.cookies h none
  used : vq'.used = vq.used
  lastUsedIdx : vq'.lastUsedIdx = vq.lastUsedIdx + 1
  availIdx : vq'.avail.idx = vq.avail.idx
  availRing : vq'.avail.ring = if vq.useEventIdx then
    Function.update vq.avail.ring vq.num
      (vr16 vq.modern (vq.lastUsedIdx + 1)) else vq.avail.ring

theorem getBuf_empty (hempty : vq.lastUsedIdx = vr16 vq.modern vq.used.idx) :
    vq.getBuf = some ⟨none, none, vq, []⟩ := by
  unfold getBuf
  rw [if_pos hempty]

theorem Conserved.finishGetBuf {desc : BitVec 16 → VringDesc}
    {freeHead : BitVec 16} (hc : vq.Conserved free chain)
    (hcookie : vq.cookies h = some cookie)
    (hframe : ∀ i, i ∉ chain h → desc i = vq.desc i)
    (hwalk : ∃ after, Walk (freeLink desc) id freeHead
      ((chain h).reverse ++ free) after) :
    let vq' := Virtqueue.finishGetBuf
      { vq with
        cookies := Function.update vq.cookies h none
        indirectTables := Function.update vq.indirectTables h none }
      desc freeHead (chain h).length
    vq'.Conserved ((chain h).reverse ++ free) chain ∧ Taken vq vq' h := by
  unfold Virtqueue.finishGetBuf
  cases hevent : vq.useEventIdx with
  | true =>
      simp only [if_true]
      refine ⟨hc.release hcookie rfl rfl hframe hwalk rfl rfl rfl, ?_⟩
      exact ⟨⟨rfl, rfl, hevent.symm, rfl⟩, rfl, rfl, rfl, rfl,
        by rw [if_pos hevent]; rfl⟩
  | false =>
      simp only [Bool.false_eq_true, if_false]
      refine ⟨hc.release hcookie rfl rfl hframe hwalk rfl rfl rfl, ?_⟩
      exact ⟨⟨rfl, rfl, hevent.symm, rfl⟩, rfl, rfl, rfl, rfl,
        by simp [hevent]⟩

/-- `GetBuf` on a used entry that names an outstanding head returns its cookie
and the length, and puts its chain back. -/
theorem Conserved.getBuf {elem : VringUsedElem} (hc : vq.Conserved free chain)
    (hnonempty : vq.lastUsedIdx ≠ vr16 vq.modern vq.used.idx)
    (helem : vq.used.ring (vq.lastUsedIdx.toNat % vq.num) = elem)
    (hid : vr32 vq.modern elem.id = h.setWidth 32)
    (hcookie : vq.cookies h = some cookie) :
    ∃ result, vq.getBuf = some result ∧ result.cookie = some cookie ∧
      result.written = some (vr32 vq.modern elem.len) ∧
      result.vq.Conserved ((chain h).reverse ++ free) chain ∧
      Taken vq result.vq h := by
  have hsome : (vq.cookies h).isSome := by simp [hcookie]
  have hlt := hc.inTable h hsome
  have hhead : (h.setWidth 32).setWidth 16 = h := by
    apply BitVec.eq_of_toNat_eq
    simp only [BitVec.toNat_setWidth]
    have := h.isLt
    omega
  have hvalid : ¬ vq.num ≤ (h.setWidth 32).toNat := by
    simp only [BitVec.toNat_setWidth]
    have := h.isLt
    omega
  have hnodup : (chain h ++ free).Nodup := by
    have hmem : h ∈ vq.outstandingHeads := hc.mem_outstandingHeads.mpr hsome
    have hall := hc.nodup
    rw [List.nodup_append] at hall ⊢
    refine ⟨(List.nodup_flatMap.mp hall.2.1).1 h hmem, hall.1, ?_⟩
    intro a ha b hb hab
    exact hall.2.2 b hb a (List.mem_flatMap.mpr ⟨h, hmem, ha⟩) hab.symm
  obtain ⟨after, hfree⟩ := hc.freeWalk
  unfold Virtqueue.getBuf
  rw [if_neg hnonempty]
  simp only [helem, hid, if_neg hvalid, hhead]
  cases htable : vq.indirectTables h with
  | some table =>
      have hchain : chain h = [h] := hc.indirectChain h (by simp [htable])
      rw [hchain] at hnodup
      have hfresh : h ∉ free := (List.nodup_cons.mp hnodup).1
      have hpushed : Walk (freeLink (Function.update vq.desc h
          { addr := 0, len := 0, flags := 0, next := vq.freeHead })) id h
          (h :: free) after := by
        apply (hfree.push hfresh).congr
        intro b hb
        by_cases hbh : b = h
        · subst hbh
          simp [freeLink]
        · simp [freeLink, Function.update_of_ne hbh]
      have hdone := @Conserved.finishGetBuf _ _ _ _ _ _
        (Function.update vq.desc h
          { addr := 0, len := 0, flags := 0, next := vq.freeHead }) h hc hcookie
        (by
          intro i hi
          rw [hchain, List.mem_singleton] at hi
          exact Function.update_of_ne hi _ _)
        ⟨after, by rw [hchain]; exact hpushed⟩
      rw [hchain] at hdone ⊢
      exact ⟨_, rfl, hcookie, rfl, hdone⟩
  | none =>
      have hfuel : (chain h).length ≤ walkBound := by
        have hlen := hc.partition.length_eq
        have hmem : h ∈ vq.outstandingHeads := hc.mem_outstandingHeads.mpr hsome
        have hsub : (chain h).Sublist (vq.outstandingHeads.flatMap chain) :=
          List.sublist_flatten_of_mem (List.mem_map_of_mem hmem)
        have hle := hsub.length_le
        have hsize := hc.size
        rw [List.length_append, descriptors_length] at hlen
        unfold walkBound
        omega
      obtain ⟨desc', freeHead', heq, hframe, hwalk⟩ :=
        @freeChain_spec _ _ _ _ _ _ _ _ 0 (hc.chainWalk h hsome) hfree hnodup
          hfuel
      rw [Nat.zero_add] at heq
      have hdone := hc.finishGetBuf hcookie hframe ⟨after, hwalk⟩
      simp only [heq, Option.map_some]
      exact ⟨_, rfl, hcookie, rfl, hdone⟩

end Virtqueue
end VirtioScsi
