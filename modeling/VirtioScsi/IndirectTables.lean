import VirtioScsi.QueueRuns
import VirtioScsi.AddBufRollback

/-!
# The books of the indirect tables

An indirect table passes from `AddBuf` to the device and from there to
`GetBuf`.  Its address is kept in `indirect_tables[]`, its size only in the
ring descriptor, in the device's byte order.  The Exec calls of a run are
replayed as a balance: besides its own memory the queue holds, at every moment,
the table and the mapping of each outstanding head that has one recorded.
`VirtQueue_Free` gives back the queue's own memory and no table.
-/

namespace VirtioScsi

open ResourceTrace LinkWalk

variable {α : Type*}

namespace Virtqueue

/-- The size of a head's table, as `GetBuf` reads it off the ring. -/
def tableSize (vq : Virtqueue α) (head : BitVec 16) : ℕ :=
  (vr32 vq.modern (vq.desc head).len).toNat

/-- What `indirect_tables[head]` stands for. -/
def recorded (vq : Virtqueue α) (head : BitVec 16) : List ExecResource :=
  match vq.indirectTables head with
  | none => []
  | some itbl => [.dma itbl.virt (vq.tableSize head), .memory itbl.virt]

def recordedTables (vq : Virtqueue α) : List ExecResource :=
  vq.outstandingHeads.flatMap vq.recorded

/-- Tables are recorded for outstanding heads only, and the ring still has the
size each of them was mapped with. -/
structure TablesKnown (vq : Virtqueue α) : Prop where
  heads : ∀ h, (vq.indirectTables h).isSome → (vq.cookies h).isSome
  sizes : ∀ h itbl, vq.indirectTables h = some itbl →
    vq.tableSize h = 16 * itbl.entries.length

variable {vq vq' : Virtqueue α} {free cells rest : List (BitVec 16)}
  {chain : BitVec 16 → List (BitVec 16)} {h i : BitVec 16} {cookie : α}
  {sg : ℕ → VringSg} {outNum inNum total : ℕ} {env : IndirectEnv}

theorem recorded_none (hnone : vq.indirectTables h = none) : vq.recorded h = [] := by
  unfold recorded
  rw [hnone]

theorem recorded_some {itbl : IndirectTable} (hsome : vq.indirectTables h = some itbl) :
    vq.recorded h = [.dma itbl.virt (vq.tableSize h), .memory itbl.virt] := by
  unfold recorded
  rw [hsome]

theorem recordedTables_eq_nil_iff (hk : vq.TablesKnown) (hc : vq.Conserved free chain) :
    vq.recordedTables = [] ↔ ∀ h, vq.indirectTables h = none := by
  unfold recordedTables
  rw [List.flatMap_eq_nil_iff]
  constructor
  · intro hnil h
    cases htable : vq.indirectTables h with
    | none => rfl
    | some itbl =>
        have hsome := hk.heads h (by simp [htable])
        have hrec := hnil h (hc.mem_outstandingHeads.mpr hsome)
        rw [recorded_some htable] at hrec
        cases hrec
  · intro hnone h _
    exact recorded_none (hnone h)

/-! ## One head more or less -/

/-- Nothing about the tables changes for the heads of `vq`. -/
structure TablesKept (vq vq' : Virtqueue α) : Prop where
  modern : vq'.modern = vq.modern
  desc : ∀ i, (vq.cookies i).isSome → vq'.desc i = vq.desc i
  tables : ∀ i, (vq.cookies i).isSome → vq'.indirectTables i = vq.indirectTables i

theorem TablesKept.tableSize_eq (hkept : TablesKept vq vq')
    (hsome : (vq.cookies i).isSome) : vq'.tableSize i = vq.tableSize i := by
  unfold tableSize
  rw [hkept.modern, hkept.desc i hsome]

theorem TablesKept.recorded_eq (hkept : TablesKept vq vq')
    (hsome : (vq.cookies i).isSome) : vq'.recorded i = vq.recorded i := by
  unfold recorded
  rw [hkept.tables i hsome, hkept.tableSize_eq hsome]

theorem recordedTables_insert (hsize : vq.num ≤ 2 ^ 16) (hlt : h.toNat < vq.num)
    (hfresh : vq.cookies h = none) (hnum : vq'.num = vq.num)
    (hcookies : vq'.cookies = Function.update vq.cookies h (some cookie))
    (hkept : TablesKept vq vq') :
    vq'.recordedTables.Perm (vq'.recorded h ++ vq.recordedTables) := by
  have hheads : vq'.outstandingHeads.Perm (h :: vq.outstandingHeads) :=
    outstandingHeads_insert hsize hlt hfresh hnum hcookies
  have hsame : vq.outstandingHeads.flatMap vq'.recorded = vq.recordedTables := by
    apply List.flatMap_congr
    intro i hi
    apply hkept.recorded_eq
    unfold outstandingHeads at hi
    exact (List.mem_filter.mp hi).2
  have hperm := List.Perm.flatMap_right vq'.recorded hheads
  rwa [List.flatMap_cons, hsame] at hperm

theorem TablesKnown.insert {table : Option IndirectTable} (hk : vq.TablesKnown)
    (hcookies : vq'.cookies = Function.update vq.cookies h (some cookie))
    (htables : vq'.indirectTables = Function.update vq.indirectTables h table)
    (hkept : TablesKept vq vq')
    (hsize : ∀ itbl, table = some itbl → vq'.tableSize h = 16 * itbl.entries.length) :
    vq'.TablesKnown := by
  constructor
  · intro i hsome
    rw [htables] at hsome
    rw [hcookies]
    by_cases hi : i = h
    · rw [hi, Function.update_self]
      rfl
    · rw [Function.update_of_ne hi] at hsome ⊢
      exact hk.heads i hsome
  · intro i itbl hsome
    rw [htables] at hsome
    by_cases hi : i = h
    · rw [hi, Function.update_self] at hsome
      rw [hi]
      exact hsize itbl hsome
    · rw [Function.update_of_ne hi] at hsome
      rw [hkept.tableSize_eq (hk.heads i (by simp [hsome]))]
      exact hk.sizes i itbl hsome

/-! ## `AddBuf` -/

theorem addBufFallback_books {ops : List ExecOp} {result : AddBufResult α}
    (hops : AllReleased (resources ops))
    (hresult : vq.addBufFallback sg outNum total cookie ops = result) :
    AllReleased (resources result.ops) ∧
      (result.vq = vq ∨
        total ≤ vq.numFree.toNat ∧ result.vq = vq.addBufDirect sg outNum total cookie) := by
  unfold addBufFallback at hresult
  by_cases hroom : vq.numFree.toNat < total
  · rw [if_pos hroom] at hresult
    subst hresult
    exact ⟨hops, .inl rfl⟩
  · rw [if_neg hroom] at hresult
    subst hresult
    exact ⟨hops, .inr ⟨Nat.le_of_not_lt hroom, rfl⟩⟩

/-- `VirtQueue_AddBuf` records the table it allocated, or has released it again. -/
theorem addBuf_books {result : AddBufResult α}
    (hresult : vq.addBuf sg outNum inNum cookie env = result) :
    (AllReleased (resources result.ops) ∧
        (result.vq = vq ∨ outNum + inNum ≤ vq.numFree.toNat ∧
          result.vq = vq.addBufDirect sg outNum (outNum + inNum) cookie)) ∨
      (1 ≤ vq.numFree.toNat ∧ ∃ virt phys,
        balance 0 (resources result.ops) =
          some {.dma virt (16 * (outNum + inNum)), .memory virt} ∧
        result.vq = vq.addBufIndirect sg outNum (outNum + inNum) cookie virt phys) := by
  have hnone : AllReleased (resources []) := balance_nil _
  unfold addBuf at hresult
  dsimp only at hresult
  split at hresult
  · split at hresult
    · subst hresult
      exact .inl ⟨hnone, .inl rfl⟩
    · next hroom =>
      split at hresult
      · exact .inl (addBufFallback_books hnone hresult)
      · next virt hvirt =>
        split at hresult
        · split at hresult
          · next phys hphys =>
            subst hresult
            refine .inr ⟨by omega, virt, phys, ?_, rfl⟩
            simp [resources, ExecOp.resource]
          · refine .inl (addBufFallback_books ?_ hresult)
            simp [resources, ExecOp.resource, AllReleased]
        · refine .inl (addBufFallback_books ?_ hresult)
          simp [resources, ExecOp.resource, AllReleased]
  · exact .inl (addBufFallback_books hnone hresult)

theorem Conserved.head_free (hc : vq.Conserved free chain) (hne : free ≠ []) :
    vq.freeHead ∈ free := by
  obtain ⟨after, hwalk⟩ := hc.freeWalk
  obtain ⟨a, l, hfree⟩ := List.exists_cons_of_ne_nil hne
  rw [hfree] at hwalk ⊢
  rw [show vq.freeHead = a from hwalk.1]
  exact List.mem_cons_self

theorem Conserved.addBufDirect_kept (hc : vq.Conserved free chain) (hpos : 1 ≤ total)
    (hroom : total ≤ vq.numFree.toNat) :
    TablesKept vq (vq.addBufDirect sg outNum total cookie) := by
  have hlen : (free.take total).length = total := by
    rw [List.length_take, hc.freeLength]
    omega
  obtain ⟨after, hwalk⟩ := hc.freeWalk
  rw [← List.take_append_drop total free] at hwalk
  obtain ⟨mid, hfirst, -⟩ := walk_append.mp hwalk
  have hnodup : (free.take total).Nodup :=
    (List.nodup_append.mp hc.nodup).1.sublist (List.take_sublist _ _)
  have hspec := @writeChain_spec vq.modern sg outNum (free.take total).length 0 _ _ _ _ hfirst
    hnodup (Nat.zero_add _)
  obtain ⟨-, hframe, -, -⟩ := hspec
  rw [hlen] at hframe
  have hhead : vq.freeHead ∈ free := by
    apply hc.head_free
    intro hnil
    rw [hnil, List.take_nil, List.length_nil] at hlen
    omega
  -- An outstanding head is not free, so the loop does not reach it.
  have hout : ∀ i, (vq.cookies i).isSome → i ∉ free := by
    intro i hsome hfree
    rw [hc.cookie_of_free hfree] at hsome
    cases hsome
  refine ⟨rfl, ?_, ?_⟩
  · intro i hsome
    exact hframe i fun hmem => hout i hsome (List.mem_of_mem_take hmem)
  · intro i hsome
    have hne : i ≠ vq.freeHead := by
      intro heq
      rw [heq] at hsome
      exact hout _ hsome hhead
    exact Function.update_of_ne hne _ _

theorem addBufIndirect_kept {virt : ℕ} {phys : BitVec 32}
    (hfresh : vq.cookies vq.freeHead = none) :
    TablesKept vq (vq.addBufIndirect sg outNum total cookie virt phys) := by
  have hne : ∀ i, (vq.cookies i).isSome → i ≠ vq.freeHead := by
    intro i hsome heq
    rw [heq, hfresh] at hsome
    cases hsome
  refine ⟨rfl, ?_, ?_⟩
  · intro i hsome
    exact Function.update_of_ne (hne i hsome) _ _
  · intro i hsome
    exact Function.update_of_ne (hne i hsome) _ _

theorem addBufIndirect_tableSize {virt : ℕ} {phys : BitVec 32}
    (htotal : total ≤ maxSgEntries) :
    (vq.addBufIndirect sg outNum total cookie virt phys).tableSize vq.freeHead =
      16 * total := by
  have hbound : maxSgEntries = 64 := rfl
  show (vr32 vq.modern (Function.update vq.desc vq.freeHead _ vq.freeHead).len).toNat = _
  rw [Function.update_self, vr32_vr32, BitVec.toNat_ofNat]
  omega

/-! ## `GetBuf` -/

theorem finishGetBuf_tables (vq : Virtqueue α) (desc : BitVec 16 → VringDesc)
    (freeHead : BitVec 16) (freed : ℕ) :
    (vq.finishGetBuf desc freeHead freed).cookies = vq.cookies ∧
      SameSetup (vq.finishGetBuf desc freeHead freed) vq ∧
      (vq.finishGetBuf desc freeHead freed).indirectTables = vq.indirectTables ∧
      (vq.finishGetBuf desc freeHead freed).desc = desc := by
  unfold finishGetBuf
  cases hevent : vq.useEventIdx
  · exact ⟨rfl, ⟨rfl, rfl, hevent.symm, rfl⟩, rfl, rfl⟩
  · exact ⟨rfl, ⟨rfl, rfl, hevent.symm, rfl⟩, rfl, rfl⟩

/-- `VirtQueue_GetBuf` releases the table of the request it returns and no other. -/
theorem getBuf_books {result : GetBufResult α} (hget : vq.getBuf = some result)
    (hsome : result.cookie.isSome) :
    ∃ h, result.cookie = vq.cookies h ∧ SameSetup result.vq vq ∧
      result.vq.cookies = Function.update vq.cookies h none ∧
      result.vq.indirectTables = Function.update vq.indirectTables h none ∧
      ((∃ itbl, vq.indirectTables h = some itbl ∧
          result.ops = [.endDMA itbl.virt (vq.tableSize h), .freeVec itbl.virt] ∧
          ∀ i, i ≠ h → result.vq.desc i = vq.desc i) ∨
        (vq.indirectTables h = none ∧ result.ops = [] ∧
          ∃ freeHead freed, freeChain vq.modern walkBound h vq.desc vq.freeHead 0 =
            some (result.vq.desc, freeHead, freed))) := by
  unfold getBuf at hget
  dsimp only at hget
  split at hget
  · rw [Option.some.injEq] at hget
    subst hget
    cases hsome
  split at hget
  · rw [Option.some.injEq] at hget
    subst hget
    cases hsome
  split at hget
  · next itbl htable =>
    rw [Option.some.injEq] at hget
    subst hget
    obtain ⟨hcookies, hsetup, htables, hdesc⟩ := finishGetBuf_tables _ _ _ _
    refine ⟨_, rfl, hsetup.trans ⟨rfl, rfl, rfl, rfl⟩, hcookies, htables,
      .inl ⟨itbl, htable, rfl, ?_⟩⟩
    intro i hi
    rw [hdesc]
    exact Function.update_of_ne hi _ _
  · next htable =>
    obtain ⟨⟨desc, freeHead, freed⟩, hchain, rfl⟩ := Option.map_eq_some_iff.mp hget
    obtain ⟨hcookies, hsetup, htables, hdesc⟩ := finishGetBuf_tables _ _ _ _
    refine ⟨_, rfl, hsetup.trans ⟨rfl, rfl, rfl, rfl⟩, hcookies, htables,
      .inr ⟨htable, rfl, freeHead, freed, ?_⟩⟩
    rw [hdesc]
    exact hchain

theorem Conserved.head_not_mem_chain (hc : vq.Conserved free chain)
    (hi : (vq.cookies i).isSome) (hh : (vq.cookies h).isSome) (hne : i ≠ h) :
    i ∉ chain h := by
  have hflat := (List.nodup_append.mp hc.nodup).2.1
  have hpair := (List.nodup_flatMap.mp hflat).2
  have hsymm : Std.Symm (Function.onFun List.Disjoint chain) :=
    ⟨fun _ _ hab => List.Disjoint.symm hab⟩
  have hdisjoint : List.Disjoint (chain i) (chain h) :=
    hpair.forall (hc.mem_outstandingHeads.mpr hi) (hc.mem_outstandingHeads.mpr hh) hne
  exact fun hmem => hdisjoint (hc.head_mem_chain hi) hmem

theorem Conserved.freeChain_kept {desc : BitVec 16 → VringDesc} {freeHead : BitVec 16}
    {freed : ℕ} (hc : vq.Conserved free chain) (hh : (vq.cookies h).isSome)
    (hwalk : freeChain vq.modern walkBound h vq.desc vq.freeHead 0 =
      some (desc, freeHead, freed))
    (hi : (vq.cookies i).isSome) (hne : i ≠ h) : desc i = vq.desc i := by
  have hmem := hc.mem_outstandingHeads.mpr hh
  obtain ⟨after, hfree⟩ := hc.freeWalk
  have hnodup : (chain h ++ free).Nodup := by
    have hall := hc.nodup
    rw [List.nodup_append] at hall ⊢
    refine ⟨(List.nodup_flatMap.mp hall.2.1).1 h hmem, hall.1, ?_⟩
    intro a ha b hb hab
    exact hall.2.2 b hb a (List.mem_flatMap.mpr ⟨h, hmem, ha⟩) hab.symm
  have hfuel : (chain h).length ≤ walkBound := by
    have hlen := hc.chain_length_le hh
    have hsize := hc.size
    unfold walkBound
    omega
  obtain ⟨desc', freeHead', heq, hframe, -⟩ :=
    @freeChain_spec _ _ _ _ _ _ _ _ 0 (hc.chainWalk h hh) hfree hnodup hfuel
  rw [heq, Option.some.injEq, Prod.mk.injEq] at hwalk
  rw [← hwalk.1]
  exact hframe i (hc.head_not_mem_chain hi hh hne)

/-! ## One step of the books -/

/-- The calls turn the recorded tables of `vq` into those of `vq'`. -/
structure KeepsBooks (vq vq' : Virtqueue α) (ops : List ExecOp) : Prop where
  known : vq'.TablesKnown
  held : balance (vq.recordedTables : Multiset ExecResource) (resources ops) =
    some (vq'.recordedTables : Multiset ExecResource)

theorem KeepsBooks.of_same (hk : vq.TablesKnown) (hsetup : SameSetup vq' vq)
    (hdesc : vq'.desc = vq.desc) (hcookies : vq'.cookies = vq.cookies)
    (htables : vq'.indirectTables = vq.indirectTables) : vq.KeepsBooks vq' [] := by
  have hsize : vq'.tableSize = vq.tableSize := by
    funext i
    unfold tableSize
    rw [hsetup.modern, hdesc]
  have hone : vq'.recorded = vq.recorded := by
    funext i
    unfold recorded
    rw [htables, hsize]
  have hrec : vq'.recordedTables = vq.recordedTables := by
    unfold recordedTables outstandingHeads
    rw [hsetup.num, hcookies, hone]
  constructor
  · constructor
    · rw [htables, hcookies]
      exact hk.heads
    · rw [htables, hsize]
      exact hk.sizes
  · rw [hrec]
    exact balance_nil _

theorem balance_of_released {ops : List ExecOp} (hops : AllReleased (resources ops))
    (base : Multiset ExecResource) : balance base (resources ops) = some base := by
  have hframe := balance_frame hops base
  rwa [zero_add] at hframe

/-- Adding a request keeps the tables in use and the recorded ones equal. -/
theorem Conserved.addBuf_keeps {result : AddBufResult α} (hc : vq.Conserved free chain)
    (hk : vq.TablesKnown) (hpos : 1 ≤ outNum + inNum) (hmax : outNum + inNum ≤ maxSgEntries)
    (hresult : vq.addBuf sg outNum inNum cookie env = result) :
    vq.KeepsBooks result.vq result.ops := by
  have hlen := hc.freeLength
  have hsize := hc.size_le_range
  have hfacts : 1 ≤ vq.numFree.toNat →
      vq.cookies vq.freeHead = none ∧ vq.freeHead.toNat < vq.num := by
    intro hroom
    have hmem : vq.freeHead ∈ free := by
      apply hc.head_free
      intro hnil
      rw [hnil, List.length_nil] at hlen
      omega
    refine ⟨hc.cookie_of_free hmem, ?_⟩
    rw [← mem_descriptors hsize, ← hc.partition.mem_iff]
    exact List.mem_append_left _ hmem
  rcases addBuf_books hresult with ⟨hops, hvq | ⟨hroom, hvq⟩⟩ | ⟨hroom, virt, phys, hops, hvq⟩
  · rw [hvq]
    exact ⟨hk, balance_of_released hops _⟩
  · obtain ⟨hfresh, hlt⟩ := hfacts (by omega)
    have hkept : TablesKept vq result.vq := by
      rw [hvq]
      exact hc.addBufDirect_kept hpos hroom
    have htables :
        result.vq.indirectTables = Function.update vq.indirectTables vq.freeHead none := by
      rw [hvq]
      rfl
    have hadded : Added vq result.vq cookie := hvq ▸ addBufDirect_added
    have hperm := recordedTables_insert hsize hlt hfresh hadded.setup.num hadded.cookies hkept
    rw [recorded_none (by rw [htables, Function.update_self]), List.nil_append] at hperm
    refine ⟨hk.insert hadded.cookies htables hkept (fun _ h => by cases h), ?_⟩
    rw [Multiset.coe_eq_coe.mpr hperm]
    exact balance_of_released hops _
  · obtain ⟨hfresh, hlt⟩ := hfacts hroom
    have hkept : TablesKept vq result.vq := by
      rw [hvq]
      exact addBufIndirect_kept hfresh
    have htables : result.vq.indirectTables = Function.update vq.indirectTables vq.freeHead
        (some ⟨virt, indirectEntries vq.modern sg outNum (outNum + inNum)⟩) := by
      rw [hvq]
      rfl
    have htable : result.vq.tableSize vq.freeHead = 16 * (outNum + inNum) := by
      rw [hvq]
      exact addBufIndirect_tableSize hmax
    have hadded : Added vq result.vq cookie := hvq ▸ addBufIndirect_added
    have hperm := recordedTables_insert hsize hlt hfresh hadded.setup.num hadded.cookies hkept
    rw [recorded_some (by rw [htables, Function.update_self]), htable] at hperm
    refine ⟨hk.insert hadded.cookies htables hkept ?_, ?_⟩
    · intro itbl hitbl
      rw [htable, ← Option.some.inj hitbl]
      simp [indirectEntries]
    · have hframe := balance_frame hops (vq.recordedTables : Multiset ExecResource)
      rw [zero_add] at hframe
      rw [Multiset.coe_eq_coe.mpr hperm]
      exact hframe

theorem Conserved.getBuf_keeps {result : GetBufResult α} (hc : vq.Conserved free chain)
    (hk : vq.TablesKnown) (hget : vq.getBuf = some result) (hsome : result.cookie.isSome) :
    vq.KeepsBooks result.vq result.ops := by
  obtain ⟨h, hcookie, hsetup, hcookies, htables, hcase⟩ := getBuf_books hget hsome
  rw [hcookie] at hsome
  obtain ⟨cookie, hc'⟩ := Option.isSome_iff_exists.mp hsome
  have hdesc : ∀ i, (vq.cookies i).isSome → i ≠ h → result.vq.desc i = vq.desc i := by
    intro i hi hne
    rcases hcase with ⟨itbl, -, -, hframe⟩ | ⟨-, -, freeHead, freed, hwalk⟩
    · exact hframe i hne
    · exact hc.freeChain_kept hsome hwalk hi hne
  have hother : ∀ i, (result.vq.cookies i).isSome → i ≠ h ∧ (vq.cookies i).isSome := by
    intro i hi
    rw [hcookies] at hi
    by_cases heq : i = h
    · rw [heq, Function.update_self] at hi
      cases hi
    · rw [Function.update_of_ne heq] at hi
      exact ⟨heq, hi⟩
  -- Read backwards, the step adds the head `h`.
  have hkept : TablesKept result.vq vq := by
    refine ⟨hsetup.modern.symm, ?_, ?_⟩
    · intro i hi
      exact (hdesc i (hother i hi).2 (hother i hi).1).symm
    · intro i hi
      rw [htables, Function.update_of_ne (hother i hi).1]
  have hperm : vq.recordedTables.Perm (vq.recorded h ++ result.vq.recordedTables) := by
    refine @recordedTables_insert _ result.vq vq h cookie ?_ ?_ ?_ hsetup.num.symm ?_ hkept
    · rw [hsetup.num]
      exact hc.size_le_range
    · rw [hsetup.num]
      exact hc.inTable h hsome
    · rw [hcookies, Function.update_self]
    · rw [hcookies, Function.update_idem, ← hc', Function.update_eq_self]
  constructor
  · constructor
    · intro i hi
      rw [htables] at hi
      rw [hcookies]
      by_cases heq : i = h
      · rw [heq, Function.update_self] at hi
        cases hi
      · rw [Function.update_of_ne heq] at hi ⊢
        exact hk.heads i hi
    · intro i itbl hi
      rw [htables] at hi
      by_cases heq : i = h
      · rw [heq, Function.update_self] at hi
        cases hi
      · rw [Function.update_of_ne heq] at hi
        have hold : (vq.cookies i).isSome := hk.heads i (by simp [hi])
        have hnew : (result.vq.cookies i).isSome := by
          rw [hcookies, Function.update_of_ne heq]
          exact hold
        rw [← hkept.tableSize_eq hnew]
        exact hk.sizes i itbl hi
  · rw [Multiset.coe_eq_coe.mpr hperm, ← Multiset.coe_add]
    rcases hcase with ⟨itbl, hitbl, hops, -⟩ | ⟨hnone, hops, -⟩
    · rw [recorded_some hitbl, hops]
      exact balance_releases
        [ExecResource.dma itbl.virt (vq.tableSize h), .memory itbl.virt] _
    · rw [recorded_none hnone, hops]
      exact balance_releases [] _

end Virtqueue

/-! ## Runs and their end -/

section Runs

open Virtqueue

namespace RequestQueue

variable {q q' : RequestQueue α} {free : List (BitVec 16)}
  {chain : BitVec 16 → List (BitVec 16)} {e : Event α}

/-- What a step asks of Exec; the device asks nothing. -/
def execOps (q : RequestQueue α) : Event α → List ExecOp
  | .addBuf sg outNum inNum cookie env => (q.vq.addBuf sg outNum inNum cookie env).ops
  | .getBuf =>
      match q.vq.getBuf with
      | some result => result.ops
      | none => []
  | _ => []

theorem Inv.getBuf_result {o : Option α × RequestQueue α} (hi : q.Inv free chain)
    (hget : q.getBuf = some o) :
    ∃ result, q.vq.getBuf = some result ∧ o.2.vq = result.vq ∧
      (result = ⟨none, none, q.vq, []⟩ ∨ result.cookie.isSome) := by
  rcases hi.getBuf with ⟨-, hempty⟩ | ⟨serial, x, len, q₁, hget₁, -, -⟩
  · have hnull := Virtqueue.getBuf_empty (hi.used_empty_iff.mpr hempty)
    rw [hi.getBuf_empty hempty, Option.some.injEq] at hget
    subst hget
    exact ⟨_, hnull, rfl, .inl rfl⟩
  · obtain ⟨result, hresult, hpair⟩ := Option.map_eq_some_iff.mp hget
    refine ⟨result, hresult, by rw [← hpair], .inr ?_⟩
    rw [hget₁, Option.some.injEq] at hget
    have hcookie : result.cookie = some x.2 := by
      rw [← hget] at hpair
      exact congrArg Prod.fst hpair
    rw [hcookie]
    rfl

theorem Inv.step_keeps (hi : q.Inv free chain) (hk : q.vq.TablesKnown)
    (hstep : q.step e = some q') : q.vq.KeepsBooks q'.vq (q.execOps e) := by
  cases e with
  | addBuf sg outNum inNum cookie env =>
      simp only [RequestQueue.step] at hstep
      split at hstep
      · next hcount =>
        rw [Option.some.injEq] at hstep
        subst hstep
        exact hi.table.addBuf_keeps hk hcount.1 hcount.2 rfl
      · cases hstep
  | getBuf =>
      obtain ⟨o, hget, rfl⟩ := Option.map_eq_some_iff.mp hstep
      obtain ⟨result, hresult, hvq, hcase⟩ := hi.getBuf_result hget
      have hops : q.execOps .getBuf = result.ops := by
        unfold execOps
        rw [hresult]
      rw [hops, hvq]
      rcases hcase with rfl | hsome
      · exact .of_same hk (.refl _) rfl rfl rfl
      · exact hi.table.getBuf_keeps hk hresult hsome
  | kick =>
      cases hstep
      exact .of_same hk (.refl _) rfl rfl rfl
  | fetch =>
      obtain ⟨head, -, heq, -⟩ := hi.fetch hstep
      subst heq
      exact .of_same hk (.refl _) rfl rfl rfl
  | complete i len =>
      obtain ⟨serial, head, -, -, -, hvq, -, -⟩ := hi.complete hstep
      rw [hvq]
      exact .of_same hk ⟨rfl, rfl, rfl, rfl⟩ rfl rfl rfl
  | signal =>
      obtain ⟨-, raise, heq, -⟩ := signal_cases hstep
      subst heq
      exact .of_same hk (.refl _) rfl rfl rfl
  | rest =>
      obtain ⟨-, -, heq⟩ := hi.rest hstep
      subst heq
      exact .of_same hk (.refl _) rfl rfl rfl

end RequestQueue

/-- The memory and the ring mapping of a queue, as `VirtQueue_Allocate` and
the init functions leave them. -/
structure QueueMemory where
  desc : ℕ
  memSize : ℕ
  dmaEntries : ℕ
  memBlock : ℕ
  cookies : ℕ
  indirectTables : ℕ
  vq : ℕ
deriving DecidableEq, Repr

namespace QueueMemory

def owned (mem : QueueMemory) : List ExecResource :=
  (if 0 < mem.dmaEntries then [.dma mem.desc mem.memSize] else []) ++
    [.memory mem.indirectTables, .memory mem.cookies, .memory mem.memBlock, .memory mem.vq]

def free (mem : QueueMemory) : List ExecOp :=
  (if 0 < mem.dmaEntries then [.endDMA mem.desc mem.memSize] else []) ++
    [.freeVec mem.indirectTables, .freeVec mem.cookies, .freeVec mem.memBlock, .freeVec mem.vq]

theorem resources_free (mem : QueueMemory) :
    resources mem.free = mem.owned.map .release := by
  unfold free owned
  by_cases hmapped : 0 < mem.dmaEntries
  · rw [if_pos hmapped, if_pos hmapped]
    rfl
  · rw [if_neg hmapped, if_neg hmapped]
    rfl

end QueueMemory

/-- A queue with everything its driver has asked of Exec so far. -/
structure TracedQueue (α : Type*) where
  queue : RequestQueue α
  ops : List ExecOp

namespace TracedQueue

variable {t : TracedQueue α} {mem : QueueMemory} {j : ℕ}
  {modern useEventIdx useIndirect : Bool} {events : List (RequestQueue.Event α)}

def initial (queueSize : ℕ) (modern useEventIdx useIndirect : Bool) : TracedQueue α where
  queue := .initial queueSize modern useEventIdx useIndirect
  ops := []

def step (t : TracedQueue α) (e : RequestQueue.Event α) : Option (TracedQueue α) :=
  (t.queue.step e).map fun q => ⟨q, t.ops ++ t.queue.execOps e⟩

/-- Beyond its own memory the queue holds the recorded tables of the
outstanding heads and no others; a completion ends the mapping of its table
with the size it was started with and frees it. -/
structure Accounted (mem : QueueMemory) (t : TracedQueue α) : Prop where
  known : t.queue.vq.TablesKnown
  held : balance (mem.owned : Multiset ExecResource) (resources t.ops) =
    some ((mem.owned : Multiset ExecResource) + t.queue.vq.recordedTables)
  taken : ∀ result, t.queue.vq.getBuf = some result →
    result.ops = [] ∨ ∃ h itbl, t.queue.vq.indirectTables h = some itbl ∧
      result.ops = [.endDMA itbl.virt (16 * itbl.entries.length), .freeVec itbl.virt] ∧
      result.vq.indirectTables h = none

/-- The books of a whole life: kept at every moment of the run, and settled by
`VirtQueue_Free` after it. -/
structure TablesSettled (mem : QueueMemory) (start : TracedQueue α)
    (events : List (RequestQueue.Event α)) (t : TracedQueue α) : Prop where
  always : ∀ before after t₁, before ++ after = events →
    GuardedRun.run step start before = some t₁ → t₁.Accounted mem
  freed : balance (mem.owned : Multiset ExecResource) (resources (t.ops ++ mem.free)) = some 0

structure Kept (mem : QueueMemory) (t : TracedQueue α) : Prop where
  inv : ∃ free chain, t.queue.Inv free chain
  known : t.queue.vq.TablesKnown
  held : balance (mem.owned : Multiset ExecResource) (resources t.ops) =
    some ((mem.owned : Multiset ExecResource) + t.queue.vq.recordedTables)

theorem kept_initial (mem : QueueMemory) (hpos : 1 ≤ j) (hle : j ≤ 15) :
    (initial (α := α) (2 ^ j) modern useEventIdx useIndirect).Kept mem := by
  have hinv := RequestQueue.inv_initial (α := α) modern useEventIdx useIndirect hpos hle
  have hknown : (Virtqueue.allocate (α := α) (2 ^ j) modern useEventIdx
      useIndirect).TablesKnown := by
    constructor
    · intro h hsome
      cases hsome
    · intro h itbl hsome
      cases hsome
  refine ⟨⟨_, _, hinv⟩, hknown, ?_⟩
  have hnil := (recordedTables_eq_nil_iff hknown hinv.table).mpr fun h => rfl
  show _ = some ((mem.owned : Multiset ExecResource) +
    (Virtqueue.recordedTables (Virtqueue.allocate (α := α) (2 ^ j) modern useEventIdx
      useIndirect) : Multiset ExecResource))
  rw [hnil, Multiset.coe_nil, add_zero]
  exact balance_nil _

theorem Kept.step {t' : TracedQueue α} {e : RequestQueue.Event α} (hk : t.Kept mem)
    (hstep : t.step e = some t') : t'.Kept mem := by
  obtain ⟨q, hq, rfl⟩ := Option.map_eq_some_iff.mp hstep
  obtain ⟨free, chain, hi⟩ := hk.inv
  have hbooks := hi.step_keeps hk.known hq
  refine ⟨(hi.step hq).1, hbooks.known, ?_⟩
  have hframe := balance_frame hbooks.held (mem.owned : Multiset ExecResource)
  rw [add_comm, add_comm (q.vq.recordedTables : Multiset ExecResource)] at hframe
  show balance _ (resources (t.ops ++ t.queue.execOps e)) = _
  unfold resources
  rw [List.map_append]
  exact balance_trans hk.held hframe

/-- The recorded tables are the tables in use after every run. -/
theorem kept_run (hpos : 1 ≤ j) (hle : j ≤ 15)
    (hrun : GuardedRun.run step (initial (2 ^ j) modern useEventIdx useIndirect) events =
      some t) : t.Kept mem :=
  GuardedRun.invariant_of_step (P := Kept mem) (fun _ _ _ hk hstep => hk.step hstep)
    (kept_initial mem hpos hle) hrun

theorem Kept.accounted (hk : t.Kept mem) : t.Accounted mem := by
  refine ⟨hk.known, hk.held, ?_⟩
  intro result hget
  obtain ⟨free, chain, hi⟩ := hk.inv
  have hmap : t.queue.getBuf.isSome := by
    unfold RequestQueue.getBuf
    rw [hget]
    rfl
  obtain ⟨o, ho⟩ := Option.isSome_iff_exists.mp hmap
  obtain ⟨result', hget', -, hcase⟩ := hi.getBuf_result ho
  rw [hget, Option.some.injEq] at hget'
  subst hget'
  rcases hcase with rfl | hsome
  · exact .inl rfl
  · obtain ⟨h, -, -, -, htables, hcase⟩ := getBuf_books hget hsome
    rcases hcase with ⟨itbl, hitbl, hops, -⟩ | ⟨-, hops, -⟩
    · refine .inr ⟨h, itbl, hitbl, ?_, ?_⟩
      · rw [hops, hk.known.sizes h itbl hitbl]
      · rw [htables, Function.update_self]
    · exact .inl hops

/-- `VirtQueue_Free` returns the queue's own memory; the recorded tables stay
behind. -/
theorem Kept.after_free (hk : t.Kept mem) :
    balance (mem.owned : Multiset ExecResource) (resources (t.ops ++ mem.free)) =
      some (t.queue.vq.recordedTables : Multiset ExecResource) := by
  unfold resources
  rw [List.map_append]
  refine balance_trans hk.held ?_
  rw [← resources, mem.resources_free]
  exact balance_releases mem.owned _

/-- The books are kept at every moment of every run; `VirtQueue_Free` settles
them exactly if no table is recorded when it is called. -/
theorem tables_settled_iff (mem : QueueMemory) (hpos : 1 ≤ j) (hle : j ≤ 15)
    (hrun : GuardedRun.run step (initial (2 ^ j) modern useEventIdx useIndirect) events =
      some t) :
    TablesSettled mem (initial (2 ^ j) modern useEventIdx useIndirect) events t ↔
      ∀ h, t.queue.vq.indirectTables h = none := by
  have hk : t.Kept mem := kept_run hpos hle hrun
  obtain ⟨free, chain, hi⟩ := hk.inv
  rw [← recordedTables_eq_nil_iff hk.known hi.table]
  constructor
  · intro hsettled
    have hfreed := hsettled.freed
    rw [hk.after_free, Option.some.injEq, Multiset.coe_eq_zero] at hfreed
    exact hfreed
  · intro hnil
    constructor
    · intro before after t₁ hsplit hrun₁
      exact (kept_run hpos hle hrun₁).accounted
    · rw [hk.after_free, hnil]
      rfl

end TracedQueue

end Runs

section Sample

open TracedQueue

def sampleQueueMemory : QueueMemory where
  desc := 0x4000
  memSize := 0x2046
  dmaEntries := 1
  memBlock := 0x3f20
  cookies := 0x8000
  indirectTables := 0x8100
  vq := 0x8200

/-- A request with an indirect table that the device never completes. -/
def sampleTimedOut : List (RequestQueue.Event ℕ) :=
  [.addBuf (fun _ => ⟨0x1000, 512⟩) 1 1 7 ⟨some 0x9000, 1, some 0x5000⟩, .kick, .fetch]

theorem sampleTimedOut_ops :
    (GuardedRun.run step (initial (2 ^ 2) true true true) sampleTimedOut).map ops =
      some [.allocVec 0x9000 32, .startDMA 0x9000 32, .allocSysObject 1, .freeSysObject 1] := by
  decide +kernel

/-- Freeing a queue with a timed-out request on it: the table of that request is never
released. -/
theorem tables_settled_iff_sampleTimedOut :
    ∃ t, GuardedRun.run step (initial (2 ^ 2) true true true) sampleTimedOut = some t ∧
      (TablesSettled sampleQueueMemory (initial (2 ^ 2) true true true) sampleTimedOut t ↔
        ∀ h, t.queue.vq.indirectTables h = none) := by
  obtain ⟨t, hrun, -⟩ := Option.map_eq_some_iff.mp sampleTimedOut_ops
  exact ⟨t, hrun, tables_settled_iff sampleQueueMemory (by decide) (by decide) hrun⟩

/-- The table and its mapping outlive the queue. -/
theorem tables_settled_fails_sampleTimedOut :
    ∃ t, GuardedRun.run step (initial (2 ^ 2) true true true) sampleTimedOut = some t ∧
      ¬ TablesSettled sampleQueueMemory (initial (2 ^ 2) true true true) sampleTimedOut t := by
  obtain ⟨t, hrun, hops⟩ := Option.map_eq_some_iff.mp sampleTimedOut_ops
  refine ⟨t, hrun, ?_⟩
  intro hsettled
  have hfreed := hsettled.freed
  rw [hops] at hfreed
  revert hfreed
  decide +kernel

end Sample

end VirtioScsi
