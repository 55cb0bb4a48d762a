import VirtioScsi.DeviceView
import VirtioScsi.IndirectTables
import VirtioScsi.CellMemory

/-!
# Chains the driver has handed over

The device may look at a chain any time until `GetBuf` takes its completion.
Meanwhile other chains are added and taken back in the same table, indirect
tables come and go, and memory changes.  What the device reads from a chain
stays the scatter-gather list it was added with.
-/

namespace VirtioScsi

open LinkWalk CellMemory Virtqueue

variable {α : Type*}

/-! ## What a read depends on -/

/-- The cells of an indirect table of `n` entries. -/
def tableCells (addr : BitVec 64) (n : ℕ) : List (BitVec 64) :=
  (List.range n).map fun i => addr + 16 * BitVec.ofNat 64 i

/-- The cells outside the descriptor table that belong to a head. -/
def indirectCells (modern : Bool) (table : BitVec 16 → VringDesc) (head : BitVec 16) :
    List (BitVec 64) :=
  let d := deviceDesc modern (table head)
  if d.flags &&& vringDescFIndirect ≠ 0 then tableCells d.addr (d.len.toNat / 16) else []

section Frame

variable {modern : Bool} {table table' : BitVec 16 → VringDesc} {size fuel : ℕ}
  {mem mem' : BitVec 64 → VringDesc} {idx head : BitVec 16} {cells : List (BitVec 16)}

theorem readChain_congr (hsame : ∀ i : BitVec 16, i.toNat < size → table' i = table i) :
    readChain modern table' size fuel idx = readChain modern table size fuel idx := by
  induction fuel generalizing idx with
  | zero => rfl
  | succ fuel ih =>
      unfold readChain
      by_cases hin : size ≤ idx.toNat
      · simp only [hin, if_true]
      · rw [hsame idx (Nat.lt_of_not_le hin)]
        simp only [ih]

theorem readChain_congr_walk
    (hwalk : Walk (chainLink modern table) some (some idx) cells none)
    (hsame : ∀ i ∈ cells, table' i = table i) :
    readChain modern table' size fuel idx = readChain modern table size fuel idx := by
  induction cells generalizing idx fuel with
  | nil => exact absurd hwalk (by simp)
  | cons a cells ih =>
      obtain ⟨hidx, hrest⟩ := hwalk
      have hidx : idx = a := Option.some.inj hidx
      subst hidx
      cases fuel with
      | zero => rfl
      | succ fuel =>
          unfold readChain
          rw [hsame idx List.mem_cons_self]
          by_cases hlast : vr16 modern (table idx).flags &&& vringDescFNext = 0
          · have hend : (deviceDesc modern (table idx)).flags &&& vringDescFNext = 0 := by
              simpa [deviceDesc] using hlast
            simp only [hend, ne_eq, not_true_eq_false, if_false]
          · unfold chainLink at hrest
            rw [if_neg hlast] at hrest
            have hnext : (deviceDesc modern (table idx)).next =
                vr16 modern (table idx).next := by
              simp [deviceDesc]
            have htail := @ih fuel _ hrest fun i hi =>
              hsame i (List.mem_cons_of_mem _ hi)
            simp only [hnext, htail]

/-- A head reads the same if its chain and its indirect table are the same. -/
theorem readBuffers_congr
    (hwalk : Walk (chainLink modern table) some (some head) cells none)
    (hsame : ∀ i ∈ cells, table' i = table i)
    (hmem : ∀ cell ∈ indirectCells modern table head, mem' cell = mem cell) :
    readBuffers modern table' size mem' head = readBuffers modern table size mem head := by
  have hhead : table' head = table head := by
    cases cells with
    | nil => exact absurd hwalk (by simp)
    | cons a cells =>
        rw [Option.some.inj hwalk.1]
        exact hsame a List.mem_cons_self
  unfold readBuffers
  rw [hhead]
  by_cases hindirect : (deviceDesc modern (table head)).flags &&& vringDescFIndirect ≠ 0
  · rw [if_pos hindirect, if_pos hindirect]
    apply readChain_congr
    intro i hi
    apply hmem
    unfold indirectCells
    rw [if_pos hindirect]
    refine List.mem_map.mpr ⟨i.toNat, List.mem_range.mpr hi, ?_⟩
    rw [BitVec.ofNat_toNat]
  · rw [if_neg hindirect, if_neg hindirect]
    exact readChain_congr_walk hwalk hsame

theorem tableCells_nodup (addr : BitVec 64) {n : ℕ} (hn : n ≤ maxSgEntries) :
    (tableCells addr n).Nodup := by
  have hbound : maxSgEntries = 64 := rfl
  apply List.Nodup.map_on _ List.nodup_range
  intro i hi k hk hsame
  rw [List.mem_range] at hi hk
  have hsixteen : (16 : BitVec 64).toNat = 16 := rfl
  have hoffset := congrArg BitVec.toNat (add_left_cancel hsame)
  simp only [BitVec.toNat_mul, BitVec.toNat_ofNat, hsixteen] at hoffset
  omega

theorem tableCells_getElem (addr : BitVec 64) {n i : ℕ} (hi : i < (tableCells addr n).length) :
    (tableCells addr n)[i] = addr + 16 * BitVec.ofNat 64 i := by
  simp [tableCells]

end Frame

/-! ## What the operations leave alone -/

namespace Virtqueue

variable {vq : Virtqueue α} {free : List (BitVec 16)} {chain : BitVec 16 → List (BitVec 16)}
  {cookie : α} {sg : ℕ → VringSg} {outNum inNum : ℕ} {env : IndirectEnv}
  {mem : BitVec 64 → VringDesc} {h i : BitVec 16}

theorem Conserved.not_free_of_mem_chain (hc : vq.Conserved free chain)
    (hh : (vq.cookies h).isSome) (hi : i ∈ chain h) : i ∉ free := by
  intro hfree
  have hflat : i ∈ vq.outstandingHeads.flatMap chain :=
    List.mem_flatMap.mpr ⟨h, hc.mem_outstandingHeads.mpr hh, hi⟩
  exact (List.nodup_append.mp hc.nodup).2.2 i hfree i hflat rfl

theorem Conserved.chain_disjoint {h' : BitVec 16} (hc : vq.Conserved free chain)
    (hh : (vq.cookies h).isSome) (hh' : (vq.cookies h').isSome) (hne : h ≠ h')
    (hi : i ∈ chain h) : i ∉ chain h' := by
  have hflat := (List.nodup_append.mp hc.nodup).2.1
  have hsymm : Std.Symm (Function.onFun List.Disjoint chain) :=
    ⟨fun _ _ hab => List.Disjoint.symm hab⟩
  have hdisjoint : List.Disjoint (chain h) (chain h') :=
    (List.nodup_flatMap.mp hflat).2.forall (hc.mem_outstandingHeads.mpr hh)
      (hc.mem_outstandingHeads.mpr hh') hne
  exact fun hi' => hdisjoint hi hi'

/-- A successful `AddBuf` writes to free descriptors only, and a device that
looks at the new head reads the scatter-gather list. -/
theorem Conserved.addBuf_contents {result : AddBufResult α} (hc : vq.Conserved free chain)
    (hpos : 1 ≤ outNum + inNum) (hmax : outNum + inNum ≤ maxSgEntries)
    (hadd : vq.addBuf sg outNum inNum cookie env = result) (hrc : result.rc = 0)
    (hmem : ∀ itbl, result.vq.indirectTables vq.freeHead = some itbl →
      ∀ phys, env.itblDma = some phys → ∀ n (hn : n < itbl.entries.length),
        mem (phys.setWidth 64 + 16 * BitVec.ofNat 64 n) = itbl.entries[n]) :
    (∀ i, i ∉ free → result.vq.desc i = vq.desc i) ∧
      readBuffers vq.modern result.vq.desc vq.num mem vq.freeHead =
        some ((List.range (outNum + inNum)).map (segment sg outNum)) := by
  rcases addBuf_cases hadd with ⟨hfail, -⟩ | ⟨-, hroom, hvq⟩ |
      ⟨-, hroom, virt, phys, -, hphys, hvq⟩
  · rw [hfail] at hrc
    exact absurd hrc (by decide)
  · have hlen : (free.take (outNum + inNum)).length = outNum + inNum := by
      rw [List.length_take, hc.freeLength]
      omega
    have hne : free.take (outNum + inNum) ≠ [] := by
      intro hnil
      rw [hnil, List.length_nil] at hlen
      omega
    rw [← List.take_append_drop (outNum + inNum) free] at hc
    obtain ⟨after, hwalk⟩ := hc.freeWalk
    obtain ⟨mid, hfirst, -⟩ := walk_append.mp hwalk
    have hnodup : (free.take (outNum + inNum)).Nodup :=
      (List.nodup_append.mp (List.nodup_append.mp hc.nodup).1).1
    obtain ⟨-, hframe, -, -⟩ :=
      @writeChain_spec vq.modern sg outNum (free.take (outNum + inNum)).length 0 _ _ _ _
        hfirst hnodup (Nat.zero_add _)
    have hread := @Conserved.readBuffers_direct _ _ _ _ _ cookie sg outNum mem hc hne
    rw [hlen] at hframe hread
    rw [hvq]
    exact ⟨fun i hi => hframe i fun hmem' => hi (List.mem_of_mem_take hmem'), hread⟩
  · have hne : free ≠ [] := by
      intro hnil
      have hlen := hc.freeLength
      rw [hnil, List.length_nil] at hlen
      omega
    rw [hvq] at hmem ⊢
    constructor
    · intro i hi
      exact Function.update_of_ne (ne_of_mem_of_not_mem (hc.head_free hne) hi).symm _ _
    · apply readBuffers_indirect hpos hmax
      intro n hn
      exact hmem _ (Function.update_self _ _ _) phys hphys n hn

/-- `GetBuf` writes to the descriptors of the chain it takes back only. -/
theorem Conserved.getBuf_frame {result : GetBufResult α} (hc : vq.Conserved free chain)
    (hh : (vq.cookies h).isSome) (hget : vq.getBuf = some result)
    (hsome : result.cookie.isSome)
    (htaken : result.vq.cookies = Function.update vq.cookies h none) (hi : i ∉ chain h) :
    result.vq.desc i = vq.desc i := by
  obtain ⟨h', hcookie, -, hcookies, -, hbooks⟩ := getBuf_books hget hsome
  have hsame : h' = h := by
    by_contra hne
    have hnone := congrFun (htaken.symm.trans hcookies) h'
    rw [Function.update_self, Function.update_of_ne hne] at hnone
    rw [hcookie, hnone] at hsome
    cases hsome
  subst hsame
  rcases hbooks with ⟨-, -, -, hkept⟩ | ⟨-, -, freeHead, freed, hwalk⟩
  · exact hkept i (ne_of_mem_of_not_mem (hc.head_mem_chain hh) hi).symm
  · obtain ⟨after, hfree⟩ := hc.freeWalk
    have hmem := hc.mem_outstandingHeads.mpr hh
    have hnodup : (chain h' ++ free).Nodup := by
      have hall := hc.nodup
      rw [List.nodup_append] at hall ⊢
      refine ⟨(List.nodup_flatMap.mp hall.2.1).1 h' hmem, hall.1, ?_⟩
      intro a ha b hb hab
      exact hall.2.2 b hb a (List.mem_flatMap.mpr ⟨h', hmem, ha⟩) hab.symm
    have hfuel : (chain h').length ≤ walkBound := by
      have hlen := hc.chain_length_le hh
      have hsize := hc.size
      unfold walkBound
      omega
    obtain ⟨desc', freeHead', heq, hframe, -⟩ :=
      @freeChain_spec _ _ _ _ _ _ _ _ 0 (hc.chainWalk h' hh) hfree hnodup hfuel
    rw [heq, Option.some.injEq, Prod.mk.injEq] at hwalk
    rw [← hwalk.1]
    exact hframe i hi

end Virtqueue

/-! ## The queue and the memory it shares -/

/-- The request queue with the memory its indirect tables lie in, as
descriptors by physical address.  `lists` records what each chain was added
with. -/
structure SharedQueue (α : Type*) where
  queue : RequestQueue α
  memory : BitVec 64 → VringDesc
  lists : List (List Segment)

namespace SharedQueue

/-- `place` gives the physical address of each entry of the table `AddBuf`
allocates; `outside` is any store that does not come from the queue. -/
inductive Event (α : Type*) where
  | queue (e : RequestQueue.Event α) (place : ℕ → BitVec 64)
  | outside (cell : BitVec 64) (value : VringDesc)

def initial (queueSize : ℕ) (modern useEventIdx useIndirect : Bool)
    (memory : BitVec 64 → VringDesc) : SharedQueue α where
  queue := RequestQueue.initial queueSize modern useEventIdx useIndirect
  memory := memory
  lists := []

/-- The table of the chain at `head`, as `AddBuf` fills it. -/
def fill (memory : BitVec 64 → VringDesc) (vq : Virtqueue α) (head : BitVec 16)
    (place : ℕ → BitVec 64) : BitVec 64 → VringDesc :=
  match vq.indirectTables head with
  | none => memory
  | some itbl => write memory ((List.range itbl.entries.length).map place) itbl.entries

def addBuf (s : SharedQueue α) (sg : ℕ → VringSg) (outNum inNum : ℕ) (cookie : α)
    (env : IndirectEnv) (place : ℕ → BitVec 64) : Int × SharedQueue α :=
  let result := s.queue.addBuf sg outNum inNum cookie env
  (result.1,
    if result.1 = 0 then
      { queue := result.2
        memory := fill s.memory result.2.vq s.queue.vq.freeHead place
        lists := s.lists ++ [(List.range (outNum + inNum)).map (segment sg outNum)] }
    else { s with queue := result.2 })

def step (s : SharedQueue α) : Event α → Option (SharedQueue α)
  | .queue (.addBuf sg outNum inNum cookie env) place =>
      if 1 ≤ outNum + inNum ∧ outNum + inNum ≤ maxSgEntries then
        some (s.addBuf sg outNum inNum cookie env place).2
      else none
  | .queue e _ => (s.queue.step e).map fun queue => { s with queue := queue }
  | .outside cell value => some { s with memory := Function.update s.memory cell value }

/-- A cell of the table of a chain that `GetBuf` has not taken back. -/
def InUse (s : SharedQueue α) (cell : BitVec 64) : Prop :=
  ∃ h ∈ s.queue.vq.outstandingHeads,
    cell ∈ indirectCells s.queue.vq.modern s.queue.vq.desc h

/-- Exec gives a new table memory that is not in use, in one piece, and nobody
else writes to a table in use. -/
def Exclusive (s : SharedQueue α) : Event α → Prop
  | .queue (.addBuf _ outNum inNum _ env) place =>
      ∀ phys, env.itblDma = some phys → ∀ i < outNum + inNum,
        place i = phys.setWidth 64 + 16 * BitVec.ofNat 64 i ∧ ¬ s.InUse (place i)
  | .queue _ _ => True
  | .outside cell _ => ¬ s.InUse cell

instance (s : SharedQueue α) (cell : BitVec 64) : Decidable (s.InUse cell) :=
  List.decidableBEx (fun h => cell ∈ indirectCells s.queue.vq.modern s.queue.vq.desc h)
    s.queue.vq.outstandingHeads

instance (s : SharedQueue α) : (e : Event α) → Decidable (s.Exclusive e)
  | .queue (.addBuf _ outNum inNum _ env) place =>
      match h : env.itblDma with
      | none => isTrue fun phys hphys => absurd (h.symm.trans hphys) (by simp)
      | some phys => decidable_of_iff (∀ i < outNum + inNum,
          place i = phys.setWidth 64 + 16 * BitVec.ofNat 64 i ∧ ¬ s.InUse (place i))
          ⟨fun hfresh phys' hphys => Option.some.inj (h.symm.trans hphys) ▸ hfresh,
            fun hfresh => hfresh phys h⟩
  | .queue .getBuf _ | .queue .kick _ | .queue .fetch _ | .queue (.complete _ _) _
  | .queue .signal _ | .queue .rest _ => isTrue trivial
  | .outside cell _ => inferInstanceAs (Decidable (¬ s.InUse cell))

/-- Every chain is read as it was added until `GetBuf` takes it back. -/
structure Legible (s : SharedQueue α) : Prop where
  inv : ∃ free chain, s.queue.Inv free chain
  lengths : s.lists.length = s.queue.hist.added.length
  reads : ∀ serial ∈ s.queue.hist.live, ∀ x, s.queue.hist.added[serial]? = some x →
    readBuffers s.queue.vq.modern s.queue.vq.desc s.queue.vq.num s.memory x.1 =
      s.lists[serial]?

variable {s s' : SharedQueue α} {sg : ℕ → VringSg} {outNum inNum : ℕ} {cookie : α}
  {env : IndirectEnv} {place : ℕ → BitVec 64}

theorem addBuf_failed (hrc : (s.addBuf sg outNum inNum cookie env place).1 ≠ 0) :
    (s.addBuf sg outNum inNum cookie env place).2 = s := by
  have hrc' : (s.queue.addBuf sg outNum inNum cookie env).1 ≠ 0 := hrc
  unfold addBuf
  dsimp only
  rw [if_neg hrc', RequestQueue.addBuf_failed hrc']

/-- A filled table is in memory where the device looks for it. -/
theorem fill_table {memory : BitVec 64 → VringDesc} {vq : Virtqueue α} {head : BitVec 16}
    {phys : BitVec 64} {itbl : IndirectTable} (htable : vq.indirectTables head = some itbl)
    (hmax : itbl.entries.length ≤ maxSgEntries)
    (hplace : ∀ i < itbl.entries.length, place i = phys + 16 * BitVec.ofNat 64 i) (n : ℕ)
    (hn : n < itbl.entries.length) :
    fill memory vq head place (phys + 16 * BitVec.ofNat 64 n) = itbl.entries[n] := by
  have hcells : (List.range itbl.entries.length).map place =
      tableCells phys itbl.entries.length := by
    apply List.map_congr_left
    intro i hi
    exact hplace i (List.mem_range.mp hi)
  have hcell : n < (tableCells phys itbl.entries.length).length := by
    simpa [tableCells] using hn
  have hwritten := write_getElem memory itbl.entries (tableCells_nodup phys hmax) hcell
  rw [tableCells_getElem] at hwritten
  unfold fill
  rw [htable]
  dsimp only
  rw [hcells, hwritten, List.getElem?_eq_getElem hn]
  rfl

theorem fill_frame {memory : BitVec 64 → VringDesc} {vq : Virtqueue α} {head : BitVec 16}
    {cell : BitVec 64}
    (hout : ∀ itbl, vq.indirectTables head = some itbl →
      ∀ i < itbl.entries.length, cell ≠ place i) :
    fill memory vq head place cell = memory cell := by
  unfold fill
  cases htable : vq.indirectTables head with
  | none => rfl
  | some itbl =>
      apply write_of_notMem
      intro hmem
      obtain ⟨i, hi, hcell⟩ := List.mem_map.mp hmem
      exact hout itbl htable i (List.mem_range.mp hi) hcell.symm

theorem addBuf_table {vq : Virtqueue α} {result : AddBufResult α}
    (hadd : vq.addBuf sg outNum inNum cookie env = result) (hrc : result.rc = 0)
    {itbl : IndirectTable} (htable : result.vq.indirectTables vq.freeHead = some itbl) :
    itbl.entries.length = outNum + inNum ∧ ∃ phys, env.itblDma = some phys := by
  rcases addBuf_cases hadd with ⟨hfail, -⟩ | ⟨-, -, hvq⟩ | ⟨-, -, virt, phys, -, hphys, hvq⟩
  · rw [hfail] at hrc
    exact absurd hrc (by decide)
  · rw [hvq] at htable
    have hnone : (vq.addBufDirect sg outNum (outNum + inNum) cookie).indirectTables
        vq.freeHead = none := Function.update_self _ _ _
    rw [hnone] at htable
    cases htable
  · rw [hvq] at htable
    have hsome : (vq.addBufIndirect sg outNum (outNum + inNum) cookie virt
        phys).indirectTables vq.freeHead = some ⟨virt, indirectEntries vq.modern sg outNum
          (outNum + inNum)⟩ := Function.update_self _ _ _
    rw [hsome, Option.some.injEq] at htable
    subst htable
    exact ⟨by simp [indirectEntries], phys, hphys⟩

/-! ## One step -/

theorem Legible.addBuf (hs : s.Legible) (hpos : 1 ≤ outNum + inNum)
    (hmax : outNum + inNum ≤ maxSgEntries)
    (hexclusive : s.Exclusive (.queue (.addBuf sg outNum inNum cookie env) place))
    (hrc : (s.addBuf sg outNum inNum cookie env place).1 = 0) :
    (s.addBuf sg outNum inNum cookie env place).2.Legible := by
  obtain ⟨free, chain, hi⟩ := hs.inv
  have hrc' : (s.queue.vq.addBuf sg outNum inNum cookie env).rc = 0 := hrc
  obtain ⟨hadded, hfresh, cells, rest, hfree, hi'⟩ := hi.addBuf hpos hrc
  set result := s.queue.vq.addBuf sg outNum inNum cookie env with hresult
  set memory := fill s.memory result.vq s.queue.vq.freeHead place with hmemory
  have hmodern : result.vq.modern = s.queue.vq.modern := hadded.vring.setup.modern
  have hnum : result.vq.num = s.queue.vq.num := hadded.vring.setup.num
  obtain ⟨hframe, hnew⟩ := @Virtqueue.Conserved.addBuf_contents _ _ _ _ _ _ _ _ _ memory
    result hi.table hpos hmax hresult.symm hrc' (by
      intro itbl htable phys hphys n hn
      have hlen := (addBuf_table hresult.symm hrc' htable).1
      apply fill_table htable (by omega)
      intro i hlt
      exact (hexclusive phys hphys i (by omega)).1)
  have hold : ∀ h, (s.queue.vq.cookies h).isSome →
      ∀ cell ∈ indirectCells s.queue.vq.modern s.queue.vq.desc h,
        memory cell = s.memory cell := by
    intro h hsome cell hcell
    apply fill_frame
    intro itbl htable i hlt heq
    obtain ⟨hlen, phys, hphys⟩ := addBuf_table hresult.symm hrc' htable
    apply (hexclusive phys hphys i (by omega)).2
    rw [← heq]
    exact ⟨h, hi.table.mem_outstandingHeads.mpr hsome, hcell⟩
  have hstate : (s.addBuf sg outNum inNum cookie env place).2 =
      { queue := (s.queue.addBuf sg outNum inNum cookie env).2
        memory := memory
        lists := s.lists ++ [(List.range (outNum + inNum)).map (segment sg outNum)] } :=
    if_pos hrc
  rw [hstate]
  refine ⟨⟨_, _, hi'⟩, ?_, ?_⟩
  · show (s.lists ++ _).length = (s.queue.addBuf sg outNum inNum cookie env).2.hist.added.length
    rw [hadded.added_eq, List.length_append, List.length_append, hs.lengths]
    rfl
  · intro serial hlive x hx
    show readBuffers result.vq.modern result.vq.desc result.vq.num memory x.1 =
      (s.lists ++ _)[serial]?
    rw [hmodern, hnum]
    dsimp only at hx hlive
    rw [hadded.hist] at hx hlive
    rw [History.live_addBuf hi.ledger, List.mem_append, List.mem_singleton] at hlive
    rcases hlive with hkept | rfl
    · have hlt := (History.mem_live.mp hkept).1
      rw [List.getElem?_append_left hlt] at hx
      rw [List.getElem?_append_left (hs.lengths ▸ hlt), ← hs.reads serial hkept x hx]
      have hsome : (s.queue.vq.cookies x.1).isSome := by
        rw [hi.owners.cookie_live hkept hx]
        rfl
      apply readBuffers_congr (hi.table.chainWalk x.1 hsome)
      · intro i hmem
        exact hframe i (hi.table.not_free_of_mem_chain hsome hmem)
      · exact hold x.1 hsome
    · rw [List.getElem?_concat_length, Option.some.injEq] at hx
      subst hx
      rw [← hs.lengths, List.getElem?_concat_length]
      exact hnew

theorem Legible.getBuf (hs : s.Legible) {q' : RequestQueue α} {o : Option α}
    (hget : s.queue.getBuf = some (o, q')) : Legible { s with queue := q' } := by
  obtain ⟨free, chain, hi⟩ := hs.inv
  rcases hi.getBuf with ⟨hempty, -⟩ | ⟨serial, x, len, q₁, htake, htaken, hi'⟩
  · rw [hempty, Option.some.injEq, Prod.mk.injEq] at hget
    rw [← hget.2]
    exact hs
  rw [htake, Option.some.injEq, Prod.mk.injEq] at hget
  obtain ⟨rfl, rfl⟩ := hget
  obtain ⟨result, hresult, hcookie⟩ := RequestQueue.getBuf_eq_some htake
  have hvq : q₁.vq = result.vq := by
    unfold RequestQueue.getBuf at htake
    rw [hresult, Option.map_some, Option.some.injEq, Prod.mk.injEq] at htake
    rw [← htake.2]
  have hserial := hi.ledger.next_live htaken.published
  have hhead : (s.queue.vq.cookies x.1).isSome := by
    rw [hi.owners.cookie_live hserial htaken.added]
    rfl
  refine ⟨⟨_, _, hi'⟩, ?_, ?_⟩
  · rw [hs.lengths]
    exact congrArg List.length htaken.added_eq.symm
  · intro other hlive y hy
    dsimp only at hlive hy ⊢
    rw [htaken.hist] at hlive hy
    rw [History.live_getBuf htaken.published, List.mem_filter, decide_eq_true_iff] at hlive
    have hsome : (s.queue.vq.cookies y.1).isSome := by
      rw [hi.owners.cookie_live hlive.1 hy]
      rfl
    have hne : y.1 ≠ x.1 := fun heq =>
      hlive.2 (hi.owners.distinct other hlive.1 serial hserial y x hy htaken.added heq)
    rw [htaken.vring.setup.modern, htaken.vring.setup.num, ← hs.reads other hlive.1 y hy]
    apply readBuffers_congr (hi.table.chainWalk y.1 hsome)
    · intro i hmem
      rw [hvq]
      apply hi.table.getBuf_frame hhead hresult (by rw [hcookie]; rfl)
      · rw [← hvq]
        exact htaken.vring.cookies
      · exact hi.table.chain_disjoint hsome hhead hne hmem
    · intro cell _
      rfl

/-- A step that touches neither the descriptor table nor the chains. -/
theorem Legible.of_same (hs : s.Legible) {q' : RequestQueue α}
    (hinv : ∃ free chain, q'.Inv free chain) (hdesc : q'.vq.desc = s.queue.vq.desc)
    (hsetup : q'.vq.SameSetup s.queue.vq) (hadded : q'.hist.added = s.queue.hist.added)
    (hlive : q'.hist.live = s.queue.hist.live) : Legible { s with queue := q' } := by
  refine ⟨hinv, ?_, ?_⟩
  · rw [hs.lengths]
    exact congrArg List.length hadded.symm
  · intro serial hmem x hx
    dsimp only at hmem hx ⊢
    rw [hlive] at hmem
    rw [hadded] at hx
    rw [hsetup.modern, hsetup.num, hdesc]
    exact hs.reads serial hmem x hx

/-- Every step on exclusive memory leaves the chains readable. -/
theorem Legible.step {e : Event α} (hs : s.Legible) (hexclusive : s.Exclusive e)
    (hstep : s.step e = some s') : s'.Legible := by
  obtain ⟨free, chain, hi⟩ := hs.inv
  cases e with
  | outside cell value =>
      cases hstep
      refine ⟨hs.inv, hs.lengths, ?_⟩
      intro serial hlive x hx
      dsimp only at hlive hx ⊢
      have hsome : (s.queue.vq.cookies x.1).isSome := by
        rw [hi.owners.cookie_live hlive hx]
        rfl
      rw [← hs.reads serial hlive x hx]
      apply readBuffers_congr (hi.table.chainWalk x.1 hsome) (fun _ _ => rfl)
      intro used hused
      apply Function.update_of_ne
      intro heq
      subst heq
      exact hexclusive ⟨x.1, hi.table.mem_outstandingHeads.mpr hsome, hused⟩
  | queue e place =>
      cases e with
      | addBuf sg outNum inNum cookie env =>
          unfold SharedQueue.step at hstep
          dsimp only at hstep
          split_ifs at hstep with hcount
          cases hstep
          by_cases hrc : (s.addBuf sg outNum inNum cookie env place).1 = 0
          · exact hs.addBuf hcount.1 hcount.2 hexclusive hrc
          · rw [addBuf_failed hrc]
            exact hs
      | getBuf =>
          obtain ⟨q', hq, rfl⟩ := Option.map_eq_some_iff.mp hstep
          obtain ⟨⟨o, q₁⟩, hget, rfl⟩ := Option.map_eq_some_iff.mp hq
          exact hs.getBuf hget
      | kick =>
          rw [← Option.some.inj hstep]
          exact hs.of_same ⟨_, _, hi.kick⟩ rfl (.refl _) rfl rfl
      | fetch =>
          obtain ⟨q', hq, rfl⟩ := Option.map_eq_some_iff.mp hstep
          obtain ⟨head, -, heq, hi'⟩ := hi.fetch hq
          subst heq
          exact hs.of_same ⟨_, _, hi'⟩ rfl (.refl _) rfl rfl
      | complete i len =>
          obtain ⟨q', hq, rfl⟩ := Option.map_eq_some_iff.mp hstep
          obtain ⟨serial, head, -, hhist, -, hvq, -, hi'⟩ := hi.complete hq
          apply hs.of_same ⟨_, _, hi'⟩
          · rw [hvq]
          · rw [hvq]
            exact ⟨rfl, rfl, rfl, rfl⟩
          · rw [hhist]
          · rw [hhist]
            exact History.live_complete hi.ledger _
      | signal =>
          obtain ⟨q', hq, rfl⟩ := Option.map_eq_some_iff.mp hstep
          obtain ⟨-, raise, heq, -⟩ := RequestQueue.signal_cases hq
          have hi' := hi.signal hq
          subst heq
          exact hs.of_same ⟨_, _, hi'⟩ rfl (.refl _) rfl rfl
      | rest =>
          obtain ⟨q', hq, rfl⟩ := Option.map_eq_some_iff.mp hstep
          obtain ⟨hi', -, heq⟩ := hi.rest hq
          subst heq
          exact hs.of_same ⟨_, _, hi'⟩ rfl (.refl _) rfl rfl

/-! ## Runs -/

variable {j : ℕ} {modern useEventIdx useIndirect : Bool} {memory : BitVec 64 → VringDesc}
  {events : List (Event α)}

theorem legible_initial (hpos : 1 ≤ j) (hle : j ≤ 15) :
    (initial (α := α) (2 ^ j) modern useEventIdx useIndirect memory).Legible := by
  refine ⟨⟨_, _, RequestQueue.inv_initial modern useEventIdx useIndirect hpos hle⟩, rfl, ?_⟩
  intro serial hlive
  exact absurd hlive (by simp [initial, RequestQueue.initial, History.live])

theorem legible_run (hpos : 1 ≤ j) (hle : j ≤ 15)
    (hobeys : GuardedRun.Obeys step Exclusive
      (initial (2 ^ j) modern useEventIdx useIndirect memory) events)
    (hrun : GuardedRun.run step (initial (2 ^ j) modern useEventIdx useIndirect memory)
      events = some s) : s.Legible :=
  GuardedRun.invariant (fun _ _ _ hs hexclusive hstep => hs.step hexclusive hstep) hobeys
    (legible_initial hpos hle) hrun

theorem Legible.live_reads (hs : s.Legible) {serial : ℕ} (hlive : serial ∈ s.queue.hist.live) :
    ∃ head cookie segments, s.queue.hist.added[serial]? = some (head, cookie) ∧
      s.lists[serial]? = some segments ∧
      readBuffers s.queue.vq.modern s.queue.vq.desc s.queue.vq.num s.memory head =
        some segments := by
  have hlt := (History.mem_live.mp hlive).1
  have hx := List.getElem?_eq_getElem hlt
  have hsegments := List.getElem?_eq_getElem (hs.lengths ▸ hlt)
  exact ⟨_, _, _, hx, hsegments, (hs.reads serial hlive _ hx).trans hsegments⟩

/-- In every run a chain reads, from `AddBuf` until `GetBuf` takes it back, as
the scatter-gather list it was added with; the chains the device works on are
among these. -/
theorem chains_legible (hpos : 1 ≤ j) (hle : j ≤ 15)
    (hobeys : GuardedRun.Obeys step Exclusive
      (initial (2 ^ j) modern useEventIdx useIndirect memory) events)
    (hrun : GuardedRun.run step (initial (2 ^ j) modern useEventIdx useIndirect memory)
      events = some s) :
    (∀ serial ∈ s.queue.hist.live, ∃ head cookie segments,
      s.queue.hist.added[serial]? = some (head, cookie) ∧
        s.lists[serial]? = some segments ∧
        readBuffers s.queue.vq.modern s.queue.vq.desc s.queue.vq.num s.memory head =
          some segments) ∧
      ∀ p ∈ s.queue.dev.pending, p.1 ∈ s.queue.hist.live ∧
        ∃ cookie, s.queue.hist.added[p.1]? = some (p.2, cookie) := by
  have hs := legible_run hpos hle hobeys hrun
  obtain ⟨free, chain, hi⟩ := hs.inv
  constructor
  · intro serial hlive
    exact hs.live_reads hlive
  · intro p hp
    exact ⟨hi.ledger.pending_live hp, hi.ledger.added_of_pending hp⟩

/-- Two requests with tables; the second completes first, its table is freed
and written over while the device still has the first. -/
def sampleSharing : List (Event ℕ) :=
  [.queue (.addBuf (fun n => ⟨BitVec.ofNat 32 (0x1000 * n), 512⟩) 1 2 7 ⟨some 1, 1, some 0x8000⟩)
      (fun i => 0x8000 + 16 * BitVec.ofNat 64 i),
    .queue (.addBuf (fun n => ⟨BitVec.ofNat 32 (0x2000 * n), 512⟩) 2 1 8 ⟨some 2, 1, some 0x9000⟩)
      (fun i => 0x9000 + 16 * BitVec.ofNat 64 i),
    .queue .fetch fun _ => 0, .queue .fetch fun _ => 0,
    .queue (.complete 1 512) fun _ => 0, .queue .getBuf fun _ => 0,
    .outside 0x9000 ⟨0, 0, 0, 0⟩]

/-- Two requests with tables next to each other stay readable. -/
theorem chains_legible_sampleSharing :
    ∃ s, GuardedRun.run step (initial (2 ^ 1) true true true fun _ => ⟨0, 0, 0, 0⟩)
        sampleSharing = some s ∧ s.queue.hist.live = [0] ∧
      ∀ serial ∈ s.queue.hist.live, ∃ head cookie segments,
        s.queue.hist.added[serial]? = some (head, cookie) ∧
          s.lists[serial]? = some segments ∧
          readBuffers s.queue.vq.modern s.queue.vq.desc s.queue.vq.num s.memory head =
            some segments := by
  have hlive : (GuardedRun.run step (initial (2 ^ 1) true true true fun _ => ⟨0, 0, 0, 0⟩)
      sampleSharing).map (fun s => s.queue.hist.live) = some [0] := by
    decide +kernel
  have hobeys : GuardedRun.Obeys step Exclusive
      (initial (2 ^ 1) true true true fun _ => ⟨0, 0, 0, 0⟩) sampleSharing := by
    decide +kernel
  obtain ⟨s, hrun, hs⟩ := Option.map_eq_some_iff.mp hlive
  exact ⟨s, hrun, hs, (chains_legible (by decide) (by decide) hobeys hrun).1⟩

end SharedQueue

end VirtioScsi
