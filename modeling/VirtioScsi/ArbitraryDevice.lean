import VirtioScsi.QueueRuns

/-!
# A device that writes anything

The used ring belongs to the device, and nothing keeps it from writing
arbitrary entries.  `GetBuf` always returns, but it also reports "nothing
there" for an entry it drops, and it puts whatever chain an entry names back
on the free list.
-/

namespace VirtioScsi

open LinkWalk

variable {α : Type*}

namespace Virtqueue

/-! ## The chain walk ends -/

def linked (modern : Bool) (desc : BitVec 16 → VringDesc) : Finset ℕ :=
  (Finset.range (2 ^ 16)).filter fun k =>
    chainLink modern desc (BitVec.ofNat 16 k) ≠ none

theorem mem_linked {modern : Bool} {desc : BitVec 16 → VringDesc}
    {idx : BitVec 16} :
    idx.toNat ∈ linked modern desc ↔ chainLink modern desc idx ≠ none := by
  unfold linked
  rw [Finset.mem_filter, Finset.mem_range, BitVec.ofNat_toNat,
    BitVec.setWidth_eq, and_iff_right idx.isLt]

theorem card_linked_le (modern : Bool) (desc : BitVec 16 → VringDesc) :
    (linked modern desc).card ≤ 2 ^ 16 := by
  unfold linked
  calc
    _ ≤ (Finset.range (2 ^ 16)).card := Finset.card_filter_le _ _
    _ = 2 ^ 16 := Finset.card_range _

theorem card_linked_cleared {modern : Bool} {desc : BitVec 16 → VringDesc}
    {idx : BitVec 16} (link : BitVec 16)
    (hlinked : chainLink modern desc idx ≠ none) :
    (linked modern (Function.update desc idx
      { addr := 0, len := 0, flags := 0, next := link })).card <
        (linked modern desc).card := by
  apply Finset.card_lt_card
  rw [Finset.ssubset_iff_of_subset]
  · refine ⟨idx.toNat, mem_linked.mpr hlinked, ?_⟩
    rw [mem_linked, not_not, chainLink, Function.update_self]
    exact if_pos (by rw [vr16_zero]; decide)
  · intro k hk
    have hlt : k < 2 ^ 16 := Finset.mem_range.mp (Finset.mem_filter.mp hk).1
    have hcell : (BitVec.ofNat 16 k).toNat = k := by
      rw [BitVec.toNat_ofNat, Nat.mod_eq_of_lt hlt]
    rw [← hcell, mem_linked] at hk ⊢
    by_cases hidx : BitVec.ofNat 16 k = idx
    · rw [hidx]
      exact hlinked
    · unfold chainLink at hk ⊢
      rwa [Function.update_of_ne hidx] at hk

/-- The walk ends for every content of the table.  The induction is on the
fuel; each turn that goes on clears one more NEXT flag. -/
theorem freeChain_isSome {modern : Bool} {fuel : ℕ} {idx freeHead : BitVec 16}
    {desc : BitVec 16 → VringDesc} {freed : ℕ}
    (hfuel : (linked modern desc).card < fuel) :
    (freeChain modern fuel idx desc freeHead freed).isSome := by
  induction fuel generalizing idx desc freeHead freed with
  | zero => exact absurd hfuel (Nat.not_lt_zero _)
  | succ fuel ih =>
      simp only [freeChain]
      by_cases hlast : vr16 modern (desc idx).flags &&& vringDescFNext = 0
      · rw [if_pos hlast]
        rfl
      · rw [if_neg hlast]
        have hlinked : chainLink modern desc idx ≠ none := by
          rw [chainLink, if_neg hlast]
          exact Option.some_ne_none _
        have hless := card_linked_cleared freeHead hlinked
        exact ih (by omega)

theorem getBuf_isSome (vq : Virtqueue α) : vq.getBuf.isSome := by
  unfold getBuf
  dsimp only
  split_ifs
  · rfl
  · rfl
  · split
    · rfl
    · rw [Option.isSome_map]
      apply freeChain_isSome
      have hcard := card_linked_le vq.modern vq.desc
      unfold walkBound
      omega

/-! ## "Nothing there" -/

def UsedEmpty (vq : Virtqueue α) : Prop :=
  vq.lastUsedIdx = vr16 vq.modern vq.used.idx

def nextId (vq : Virtqueue α) : BitVec 32 :=
  vr32 vq.modern (vq.used.ring (vq.lastUsedIdx.toNat % vq.num)).id

def NamesCookie (vq : Virtqueue α) : Prop :=
  vq.nextId.toNat < vq.num ∧ (vq.cookies (vq.nextId.setWidth 16)).isSome

def Drops (vq : Virtqueue α) : Prop :=
  ¬ vq.UsedEmpty ∧ ¬ vq.NamesCookie

instance (vq : Virtqueue α) : Decidable vq.UsedEmpty :=
  inferInstanceAs (Decidable (_ = _))

instance (vq : Virtqueue α) : Decidable vq.NamesCookie :=
  inferInstanceAs (Decidable (_ ∧ _))

structure Gets (vq : Virtqueue α) (result : GetBufResult α) : Prop where
  none_of_empty : vq.UsedEmpty → result.cookie = none
  isSome_iff : ¬ vq.UsedEmpty → (result.cookie.isSome ↔ vq.NamesCookie)
  setup : SameSetup result.vq vq
  used : result.vq.used = vq.used
  lastUsedIdx : ¬ vq.UsedEmpty → result.vq.lastUsedIdx = vq.lastUsedIdx + 1

theorem finishGetBuf_used (vq : Virtqueue α) {desc : BitVec 16 → VringDesc}
    {freeHead : BitVec 16} {freed : ℕ} :
    let vq' := vq.finishGetBuf desc freeHead freed
    SameSetup vq' vq ∧ vq'.used = vq.used ∧
      vq'.lastUsedIdx = vq.lastUsedIdx + 1 := by
  unfold finishGetBuf
  dsimp only
  split
  · exact ⟨⟨rfl, rfl, rfl, rfl⟩, rfl, rfl⟩
  · exact ⟨⟨rfl, rfl, rfl, rfl⟩, rfl, rfl⟩

theorem getBuf_gets {vq : Virtqueue α} {result : GetBufResult α}
    (hget : vq.getBuf = some result) : vq.Gets result := by
  by_cases hempty : vq.UsedEmpty
  · rw [getBuf_empty hempty, Option.some.injEq] at hget
    subst hget
    exact ⟨fun _ => rfl, fun h => absurd hempty h, SameSetup.refl vq, rfl,
      fun h => absurd hempty h⟩
  have hnonempty : vq.lastUsedIdx ≠ vr16 vq.modern vq.used.idx := hempty
  unfold getBuf at hget
  rw [if_neg hnonempty] at hget
  dsimp only at hget
  rw [← nextId] at hget
  by_cases hrange : vq.num ≤ vq.nextId.toNat
  · rw [if_pos hrange, Option.some.injEq] at hget
    subst hget
    refine ⟨fun _ => rfl, fun _ => ?_, ⟨rfl, rfl, rfl, rfl⟩, rfl, fun _ => rfl⟩
    simp [NamesCookie, Nat.not_lt.mpr hrange]
  rw [if_neg hrange] at hget
  have hnamed : (vq.cookies (vq.nextId.setWidth 16)).isSome ↔ vq.NamesCookie := by
    rw [NamesCookie, and_iff_right (Nat.lt_of_not_le hrange)]
  cases htable : vq.indirectTables (vq.nextId.setWidth 16) with
  | some itbl =>
      simp only [htable, Option.some.injEq] at hget
      subst hget
      obtain ⟨hsetup, hused, hlast⟩ := finishGetBuf_used { vq with
        cookies := Function.update vq.cookies (vq.nextId.setWidth 16) none
        indirectTables :=
          Function.update vq.indirectTables (vq.nextId.setWidth 16) none }
      exact ⟨fun h => absurd h hempty, fun _ => hnamed,
        hsetup.trans ⟨rfl, rfl, rfl, rfl⟩, hused, fun _ => hlast⟩
  | none =>
      simp only [htable, Option.map_eq_some_iff] at hget
      obtain ⟨⟨desc, freeHead, freed⟩, -, rfl⟩ := hget
      obtain ⟨hsetup, hused, hlast⟩ := finishGetBuf_used { vq with
        cookies := Function.update vq.cookies (vq.nextId.setWidth 16) none
        indirectTables :=
          Function.update vq.indirectTables (vq.nextId.setWidth 16) none }
      exact ⟨fun h => absurd h hempty, fun _ => hnamed,
        hsetup.trans ⟨rfl, rfl, rfl, rfl⟩, hused, fun _ => hlast⟩

/-- `GetBuf` until it returns NULL, with the queue before that last call. -/
def drain : ℕ → Virtqueue α → Option (List α × Virtqueue α)
  | 0, _ => none
  | calls + 1, vq =>
      match vq.getBuf with
      | none => none
      | some result =>
          match result.cookie with
          | none => some ([], vq)
          | some cookie =>
              (drain calls result.vq).map fun (cookies, last) =>
                (cookie :: cookies, last)

/-- The used entries the device published and `GetBuf` did not look at. -/
def pendingUsed (vq : Virtqueue α) : ℕ :=
  (vr16 vq.modern vq.used.idx - vq.lastUsedIdx).toNat

theorem pendingUsed_pos {vq : Virtqueue α} (hempty : ¬ vq.UsedEmpty) :
    0 < vq.pendingUsed := by
  unfold UsedEmpty at hempty
  unfold pendingUsed
  generalize vr16 vq.modern vq.used.idx = used at hempty ⊢
  bv_omega

theorem Gets.pendingUsed {vq : Virtqueue α} {result : GetBufResult α}
    (h : vq.Gets result) (hempty : ¬ vq.UsedEmpty) :
    result.vq.pendingUsed + 1 = vq.pendingUsed := by
  have hpos := pendingUsed_pos hempty
  unfold Virtqueue.pendingUsed at hpos ⊢
  rw [h.setup.modern, h.used, h.lastUsedIdx hempty]
  generalize vr16 vq.modern vq.used.idx = used at hpos ⊢
  bv_omega

theorem getBuf_null_iff {vq : Virtqueue α} {result : GetBufResult α}
    (hget : vq.getBuf = some result) :
    result.cookie = none ↔ vq.UsedEmpty ∨ vq.Drops := by
  have hgets := getBuf_gets hget
  by_cases hempty : vq.UsedEmpty
  · simp [hgets.none_of_empty hempty, hempty]
  · rw [← Option.not_isSome_iff_eq_none, hgets.isSome_iff hempty]
    simp [hempty, Drops]

theorem drain_stops {calls : ℕ} {vq : Virtqueue α}
    (hcalls : vq.pendingUsed < calls) :
    ∃ cookies last, vq.drain calls = some (cookies, last) ∧
      (last.UsedEmpty ∨ last.Drops) := by
  induction calls generalizing vq with
  | zero => exact absurd hcalls (Nat.not_lt_zero _)
  | succ calls ih =>
      obtain ⟨result, hget⟩ := Option.isSome_iff_exists.mp (getBuf_isSome vq)
      simp only [drain, hget]
      cases hcookie : result.cookie with
      | none => exact ⟨[], vq, rfl, (getBuf_null_iff hget).mp hcookie⟩
      | some cookie =>
          have hnonempty : ¬ vq.UsedEmpty := by
            intro hempty
            rw [(getBuf_gets hget).none_of_empty hempty] at hcookie
            cases hcookie
          have hless := (getBuf_gets hget).pendingUsed hnonempty
          obtain ⟨cookies, last, hdrain, hstop⟩ := @ih result.vq (by omega)
          exact ⟨cookie :: cookies, last, by simp [hdrain], hstop⟩

/-- `GetBuf` says "nothing there" only at an empty ring exactly if it does not
drop the entry; a drain loop ends with an empty ring exactly if it does not
stop at such an entry. -/
theorem null_only_when_empty_iff (vq : Virtqueue α) :
    ((∀ result, vq.getBuf = some result → result.cookie = none →
        vq.UsedEmpty) ↔ ¬ vq.Drops) ∧
      ∃ cookies last, vq.drain (vq.pendingUsed + 1) = some (cookies, last) ∧
        (last.UsedEmpty ↔ ¬ last.Drops) := by
  constructor
  · constructor
    · intro hlaw hdrops
      obtain ⟨result, hget⟩ := Option.isSome_iff_exists.mp (getBuf_isSome vq)
      exact hdrops.1 (hlaw result hget ((getBuf_null_iff hget).mpr (.inr hdrops)))
    · intro hkept result hget hnull
      exact ((getBuf_null_iff hget).mp hnull).resolve_right hkept
  · obtain ⟨cookies, last, hdrain, hstop⟩ :=
      @drain_stops _ (vq.pendingUsed + 1) vq (Nat.lt_succ_self _)
    refine ⟨cookies, last, hdrain, ?_⟩
    constructor
    · intro hempty hdrops
      exact hdrops.1 hempty
    · exact hstop.resolve_right

/-- A queue with one chain, for which the device published a bad id before the
completion. -/
def sampleBadId : Virtqueue ℕ :=
  let vq := ((Virtqueue.allocate 4 false false false).addBuf
    (fun _ => ⟨0x1000, 512⟩) 1 1 7 ⟨none, 0, none⟩).vq
  { vq with used :=
    { vq.used with
      idx := 2
      ring := fun i => if i = 0 then ⟨9, 0⟩ else ⟨0, 36⟩ } }

/-- The completion behind the bad id stays in the ring. -/
theorem sampleBadId_not_empty :
    ¬ ∀ result, sampleBadId.getBuf = some result → result.cookie = none →
      sampleBadId.UsedEmpty := by
  intro hlaw
  have hdrops : ¬ sampleBadId.UsedEmpty ∧ ¬ sampleBadId.NamesCookie := by
    decide +kernel
  obtain ⟨result, hget⟩ :=
    Option.isSome_iff_exists.mp (getBuf_isSome sampleBadId)
  exact hdrops.1 (hlaw result hget ((getBuf_null_iff hget).mpr (.inr hdrops)))

/-! ## Runs with arbitrary used rings -/

/-- The driver's calls, and a device that puts anything in the used ring. -/
inductive QueueEvent (α : Type*) where
  | addBuf (sg : ℕ → VringSg) (outNum inNum : ℕ) (cookie : α) (env : IndirectEnv)
  | deviceWrites (used : VringUsed)
  | getBuf

/-- A request has between 1 and 64 segments. -/
def step (vq : Virtqueue α) : QueueEvent α → Option (Virtqueue α)
  | .addBuf sg outNum inNum cookie env =>
      if 1 ≤ outNum + inNum ∧ outNum + inNum ≤ maxSgEntries then
        some (vq.addBuf sg outNum inNum cookie env).vq
      else none
  | .deviceWrites used => some { vq with used := used }
  | .getBuf => vq.getBuf.map GetBufResult.vq

/-- `GetBuf` takes no entry that names a descriptor of the table without a
cookie. -/
def TakesOutstanding (vq : Virtqueue α) : QueueEvent α → Prop
  | .getBuf => ¬ vq.UsedEmpty → vq.nextId.toNat < vq.num → vq.NamesCookie
  | _ => True

instance (vq : Virtqueue α) (e : QueueEvent α) :
    Decidable (vq.TakesOutstanding e) := by
  cases e <;> unfold TakesOutstanding <;> infer_instance

structure BookkeepingSound (num : ℕ) (vq : Virtqueue α) : Prop where
  numFree : vq.numFree.toNat ≤ num
  freeDistinct : vq.freeNodes.Nodup
  freeDisjoint : ∀ h ∈ vq.outstandingHeads,
    vq.freeNodes.Disjoint (vq.chainFrom h)
  chainsDisjoint : vq.outstandingHeads.Pairwise fun h h' =>
    (vq.chainFrom h).Disjoint (vq.chainFrom h')
  walkEnds : vq.getBuf.isSome

theorem Conserved.bookkeepingSound {vq : Virtqueue α}
    {free : List (BitVec 16)} {chain : BitVec 16 → List (BitVec 16)}
    (hc : vq.Conserved free chain) : vq.BookkeepingSound vq.num := by
  have hfree : vq.freeNodes = free := hc.freeNodes_eq
  have hchain : ∀ h ∈ vq.outstandingHeads, vq.chainFrom h = chain h := by
    intro h hmem
    exact hc.chainFrom_eq (hc.mem_outstandingHeads.mp hmem)
  have hnodup := List.nodup_append.mp hc.nodup
  have hlength := hc.partition.length_eq
  rw [List.length_append, descriptors_length, hc.freeLength] at hlength
  constructor
  · omega
  · rw [hfree]
    exact hnodup.1
  · intro h hmem
    rw [hfree, hchain h hmem]
    intro a ha hout
    exact hnodup.2.2 a ha a (List.mem_flatMap.mpr ⟨h, hmem, hout⟩) rfl
  · have hparts := (List.nodup_flatMap.mp hnodup.2.1).2
    exact hparts.imp_of_mem fun h h' hdisjoint => by
      rw [hchain _ h, hchain _ h']
      exact hdisjoint
  · exact getBuf_isSome vq

theorem Conserved.step {vq vq' : Virtqueue α} {e : QueueEvent α}
    (hc : ∃ free chain, vq.Conserved free chain)
    (htakes : vq.TakesOutstanding e) (hstep : vq.step e = some vq') :
    (∃ free chain, vq'.Conserved free chain) ∧ vq'.num = vq.num := by
  obtain ⟨free, chain, hc⟩ := hc
  cases e with
  | addBuf sg outNum inNum cookie env =>
      simp only [Virtqueue.step] at hstep
      by_cases hcount : 1 ≤ outNum + inNum ∧ outNum + inNum ≤ maxSgEntries
      · rw [if_pos hcount, Option.some.injEq] at hstep
        subst hstep
        by_cases hrc : (vq.addBuf sg outNum inNum cookie env).rc = 0
        · obtain ⟨hadded, -, -, cells, rest, -, hdone⟩ :=
            hc.addBuf hcount.1 rfl hrc
          exact ⟨⟨rest, _, hdone⟩, hadded.setup.num⟩
        · rw [addBuf_failed rfl hrc]
          exact ⟨⟨free, chain, hc⟩, rfl⟩
      · rw [if_neg hcount] at hstep
        cases hstep
  | deviceWrites used =>
      simp only [Virtqueue.step] at hstep
      rw [Option.some.injEq] at hstep
      subst hstep
      exact ⟨⟨free, chain, hc.of_same rfl rfl rfl rfl rfl rfl rfl⟩, rfl⟩
  | getBuf =>
      simp only [Virtqueue.step] at hstep
      obtain ⟨result, hget, rfl⟩ := Option.map_eq_some_iff.mp hstep
      refine ⟨?_, (getBuf_gets hget).setup.num⟩
      by_cases hempty : vq.UsedEmpty
      · rw [getBuf_empty hempty, Option.some.injEq] at hget
        subst hget
        exact ⟨free, chain, hc⟩
      by_cases hrange : vq.nextId.toNat < vq.num
      · -- The entry names the head of an outstanding chain.
        obtain ⟨-, hsome⟩ := htakes hempty hrange
        obtain ⟨cookie, hcookie⟩ := Option.isSome_iff_exists.mp hsome
        have hid : vq.nextId = (vq.nextId.setWidth 16).setWidth 32 := by
          have hsize := hc.size
          apply BitVec.eq_of_toNat_eq
          rw [BitVec.toNat_setWidth, BitVec.toNat_setWidth]
          omega
        obtain ⟨result', hget', -, -, hdone, -⟩ :=
          hc.getBuf hempty rfl hid hcookie
        rw [hget, Option.some.injEq] at hget'
        subst hget'
        exact ⟨_, _, hdone⟩
      · -- The entry is dropped, and only `last_used_idx` moves.
        have hnonempty : vq.lastUsedIdx ≠ vr16 vq.modern vq.used.idx := hempty
        unfold Virtqueue.getBuf at hget
        rw [if_neg hnonempty] at hget
        dsimp only at hget
        rw [← nextId, if_pos (Nat.le_of_not_lt hrange), Option.some.injEq] at hget
        subst hget
        exact ⟨free, chain, hc.of_same rfl rfl rfl rfl rfl rfl rfl⟩

/-- The bookkeeping stays sound in every run in which no used entry names a
descriptor of the table that is no outstanding head. -/
theorem bookkeeping_sound {num : ℕ} {modern useEventIdx useIndirect : Bool}
    {events : List (QueueEvent α)} {vq : Virtqueue α} (hnum : num < 2 ^ 16)
    (htakes : GuardedRun.Obeys step TakesOutstanding
      (allocate num modern useEventIdx useIndirect) events)
    (hrun : GuardedRun.run step
      (allocate num modern useEventIdx useIndirect) events = some vq) :
    vq.BookkeepingSound num := by
  have hinv : (∃ free chain, vq.Conserved free chain) ∧ vq.num = num := by
    refine GuardedRun.invariant
      (P := fun vq : Virtqueue α =>
        (∃ free chain, vq.Conserved free chain) ∧ vq.num = num)
      ?_ htakes ?_ hrun
    · rintro vq e vq' ⟨hc, hsame⟩ htake hstep
      obtain ⟨hdone, hkept⟩ := Conserved.step hc htake hstep
      exact ⟨hdone, hkept.trans hsame⟩
    · exact ⟨⟨_, _, RequestQueue.conserved_allocate _ _ _ _ hnum⟩, rfl⟩
  obtain ⟨⟨free, chain, hc⟩, hsame⟩ := hinv
  rw [← hsame]
  exact hc.bookkeepingSound

section Sample

/-- A chain is added, and the device completes it twice. -/
def sampleReplay : List (QueueEvent ℕ) :=
  [.addBuf (fun _ => ⟨0x1000, 512⟩) 1 1 7 ⟨none, 0, none⟩,
    .deviceWrites ⟨0, 2, fun _ => ⟨0, 36⟩⟩, .getBuf, .getBuf]

theorem bookkeeping_sound_sampleReplay :
    ∃ vq : Virtqueue ℕ, GuardedRun.run step (allocate 4 false false false)
        (sampleReplay.take 3) = some vq ∧ vq.BookkeepingSound 4 := by
  have hrun : (GuardedRun.run step (allocate 4 false false false)
      (sampleReplay.take 3)).isSome := by
    decide +kernel
  have htakes : GuardedRun.Obeys step TakesOutstanding
      (allocate 4 false false false) (sampleReplay.take 3) := by
    decide +kernel
  obtain ⟨vq, hvq⟩ := Option.isSome_iff_exists.mp hrun
  exact ⟨vq, hvq, bookkeeping_sound (by decide) htakes hvq⟩

/-- The second completion frees the head of the chain again: five of four
descriptors are free. -/
theorem sampleReplay_not_sound :
    ∃ vq : Virtqueue ℕ, GuardedRun.run step (allocate 4 false false false)
        sampleReplay = some vq ∧ ¬ vq.BookkeepingSound 4 := by
  have hcount : (GuardedRun.run step (allocate 4 false false false)
      sampleReplay).map (fun vq => vq.numFree.toNat) = some 5 := by
    decide +kernel
  obtain ⟨vq, hvq, hfree⟩ := Option.map_eq_some_iff.mp hcount
  refine ⟨vq, hvq, ?_⟩
  intro hsound
  have hle := hsound.numFree
  omega

end Sample

end Virtqueue

end VirtioScsi
