import VirtioScsi.Completions
import VirtioScsi.Ownership

/-!
# Every move keeps the ownership

Each move of the system is a movement of the custody, or none at all.
-/

namespace VirtioScsi
namespace Config

open RequestQueue

variable {s s₁ s' : Config} {u v : UnitNum} {ch : Choice} {e : Event} {p : Pc}
  {sl : Slot} {q' : RequestQueue ReqBuf} {serial : ℕ} {x : BitVec 16 × ReqBuf}
  {len : BitVec 32} {c : Completion}

/-! ## The queue, the lists and the counters -/

theorem Core.fit (h : s.Core) : s.Fit :=
  ⟨h.queue, h.filled⟩

theorem sum_setUnit (s : Config) (u : UnitNum) (d : DevUnit) :
    ∑ v, ((s.setUnit u d).unit v).inflightCount + (s.unit u).inflightCount =
      ∑ v, (s.unit v).inflightCount + d.inflightCount := by
  have hrest : ∑ v ∈ Finset.univ.erase u, ((s.setUnit u d).unit v).inflightCount =
      ∑ v ∈ Finset.univ.erase u, (s.unit v).inflightCount := by
    apply Finset.sum_congr rfl
    intro v hv
    simp [setUnit, Finset.ne_of_mem_erase hv]
  have hnew := Finset.add_sum_erase Finset.univ
    (fun v => ((s.setUnit u d).unit v).inflightCount) (Finset.mem_univ u)
  have hold := Finset.add_sum_erase Finset.univ
    (fun v => (s.unit v).inflightCount) (Finset.mem_univ u)
  simp only [setUnit, Function.update_self] at hnew hrest ⊢
  omega

theorem sum_setUnit_same {d : DevUnit}
    (hd : d.inflightCount = (s.unit u).inflightCount) :
    ∑ v, ((s.setUnit u d).unit v).inflightCount =
      ∑ v, (s.unit v).inflightCount := by
  have hsum := s.sum_setUnit u d
  omega

/-- The counters move together, unless a slot of a unit with none in flight is
released. -/
theorem total_move (h : s.occupiedCount = ∑ v, (s.unit v).inflightCount)
    (hpos : ∀ u ch caller c cu cs r err actual, e = .task u ch →
      s.pc u = .handle caller c (.release cu cs r err actual) → s.ioLock = none →
      0 < (s.unit cu).inflightCount)
    (hm : s.Move e s') :
    s'.occupiedCount = ∑ v, (s'.unit v).inflightCount := by
  cases hm with
  | quiet u ch s' hq =>
      rw [hq.same.1.unit, hq.same.1.occupiedCount]
      exact h
  | pick u ch call c hpc hlock hpending hown =>
      exact h.trans (sum_setUnit_same (s := s) (by rfl)).symm
  | stash u ch caller c hpc =>
      have hcount : (s.stashCookie c).occupiedCount = s.occupiedCount := by
        unfold stashCookie
        split <;> rfl
      have hsum : ∑ v, ((s.stashCookie c).unit v).inflightCount =
          ∑ v, (s.unit v).inflightCount := by
        unfold stashCookie
        split
        · rfl
        · exact sum_setUnit_same rfl
      exact hcount.trans (h.trans hsum.symm)
  | release u ch caller c cu cs r err actual hpc hlock =>
      have hcu := hpos u ch caller c cu cs r err actual rfl hpc hlock
      have hcount : (s.releaseSlot cu cs).occupiedCount = s.occupiedCount - 1 := by
        unfold releaseSlot
        dsimp only
        split <;> rfl
      have hsum : ∑ v, ((s.releaseSlot cu cs).unit v).inflightCount +
          (s.unit cu).inflightCount =
            ∑ v, (s.unit v).inflightCount + ((s.unit cu).inflightCount - 1) := by
        unfold releaseSlot
        dsimp only
        split <;> exact s.sum_setUnit cu _
      show (s.releaseSlot cu cs).occupiedCount =
        ∑ v, ((s.releaseSlot cu cs).unit v).inflightCount
      omega
  | pop u ch r sl hpc hlock hfree =>
      exact h.trans (sum_setUnit_same (s := s) (by rfl)).symm
  | fill u ch r sl sg hpc hsg =>
      exact h.trans (sum_setUnit_same (s := s) (by rfl)).symm
  | addFailed u ch r sl sg hpc hlock =>
      exact h.trans (sum_setUnit_same (s := s) (by rfl)).symm
  | add u ch r sl sg q' hpc hlock hadd hq =>
      exact h.trans (sum_setUnit_same (s := s) (by rfl)).symm
  | account u ch r sl hpc =>
      have hsum := s.sum_setUnit u
        { s.unit u with inflightCount := (s.unit u).inflightCount + 1 }
      show s.occupiedCount + 1 = ∑ v, ((s.setUnit u _).unit v).inflightCount
      dsimp only at hsum ⊢
      omega
  | giveBack u ch r sl err hpc hlock =>
      exact h.trans (sum_setUnit_same (s := s) (by rfl)).symm
  | leave u ch call result hpc hlock =>
      split <;> exact h
  | _ => exact h

/-- The shared count of occupied slots stays the sum of the counts of the units. -/
theorem Core.total_move (h : s.Core) (hm : s.Move e s') :
    s'.occupiedCount = ∑ v, (s'.unit v).inflightCount := by
  refine Config.total_move h.total ?_ hm
  intro u ch caller c cu cs r err actual he hpc hlock
  have hheld : (s.standing u).held = some (.releasing cu cs, c) := by
    rw [standing_of hpc]
    rfl
  have hcounted := h.counted hlock (h.custody.releasing_owned u cu cs c hheld)
  exact (h.units cu).inflightCount_pos hcounted

/-! ## Custody -/

theorem custody_take (hq : s.queue.Ok) (htake : s.queue.TakenFrom q' serial x len) :
    { s with queue := q' }.custody = s.custody.retire serial ∧
      s.custody.live serial ∧ s.custody.cookie serial = some x.2 := by
  obtain ⟨free, chain, hi⟩ := hq
  have hlive : q'.hist.live = s.queue.hist.live.filter (· ≠ serial) := by
    rw [htake.hist]
    exact History.live_getBuf htake.published
  have hadded : q'.hist.added = s.queue.hist.added := by rw [htake.hist]
  refine ⟨?_, hi.ledger.next_live htake.published, ?_⟩
  · simp only [custody, Custody.retire, hadded, hlive, List.mem_filter, decide_eq_true_eq,
      and_comm]
    rfl
  · simp [custody, htake.added]

theorem chainOf_goto (x : User) :
    (s₁.goto u p).chainOf x = if x = .sync u then
        p.standing.awaiting.or (s₁.journal.gaveUp u)
      else
        match x with
        | .slot v sl => if v = u then
            UnitView.slotChain { s₁.view u with st := p.standing } sl
          else s₁.chainOf x
        | _ => s₁.chainOf x := by
  cases x with
  | slot v sl =>
      by_cases hv : v = u
      · subst hv
        simp [chainOf]
      · simp [chainOf, hv, view_goto_of_ne hv]
  | sync v =>
      by_cases hv : v = u
      · subst hv
        simp only [chainOf, view_goto_self, UnitView.syncChain, if_true]
        rfl
      · simp [chainOf, hv, view_goto_of_ne hv]
  | probe n => simp [chainOf, goto]

theorem custody_goto : (s₁.goto u p).custody =
    { s₁.custody.setHeld u p.standing.held with chain := (s₁.goto u p).chainOf } := by
  have hheld : (fun t => ((s₁.goto u p).standing t).held) =
      Function.update (fun t => (s₁.standing t).held) u p.standing.held := by
    funext t
    rw [standing_goto_apply, Function.update_apply]
    split <;> rfl
  unfold custody Custody.setHeld
  rw [hheld]
  rfl

theorem custody_goto_same (hfilling : p.standing.filling = (s₁.standing u).filling)
    (hawaiting : p.standing.awaiting = (s₁.standing u).awaiting) :
    (s₁.goto u p).custody = s₁.custody.setHeld u p.standing.held := by
  have hchain : (s₁.goto u p).chainOf = s₁.chainOf := by
    funext x
    rw [chainOf_goto]
    split
    · next hx =>
      subst hx
      rw [hawaiting]
      rfl
    · cases x with
      | slot v sl =>
          dsimp only
          split
          · next hv =>
            subst hv
            simp only [UnitView.slotChain, chainOf, hfilling]
            rfl
          · rfl
      | sync v => rfl
      | probe n => rfl
  rw [custody_goto, hchain]
  rfl

theorem custody_goto_settle
    (hfilling : p.standing.filling = (s₁.standing u).filling)
    (hawaiting : p.standing.awaiting = none) (hgave : s₁.journal.gaveUp u = none) :
    (s₁.goto u p).custody =
      (s₁.custody.setHeld u p.standing.held).finish (.sync u) := by
  have hchain : (s₁.goto u p).chainOf =
      Function.update s₁.chainOf (.sync u) none := by
    funext x
    rw [chainOf_goto, Function.update_apply, hawaiting, hgave]
    split
    · rfl
    · cases x with
      | slot v sl =>
          dsimp only
          split
          · next hv =>
            subst hv
            simp only [UnitView.slotChain, chainOf, hfilling]
            rfl
          · rfl
      | sync v => rfl
      | probe n => rfl
  rw [custody_goto, hchain]
  rfl

/-- What custody reads of a state, with the tasks as they are. -/
structure SameChains (s s₁ : Config) : Prop where
  standing : s₁.standing = s.standing
  inflight : ∀ v, (s₁.unit v).inflight = (s.unit v).inflight
  pending : ∀ v, (s₁.unit v).doioPending = (s.unit v).doioPending
  gaveUp : s₁.journal.gaveUp = s.journal.gaveUp
  probeChain : s₁.journal.probeChain = s.journal.probeChain
  hist : s₁.queue.hist = s.queue.hist

theorem SameChains.custody (h : SameChains s s₁) : s₁.custody = s.custody := by
  have hchain : s₁.chainOf = s.chainOf := by
    funext x
    cases x with
    | slot v sl =>
        exact UnitView.slotChain_congr (congrFun (h.inflight v) sl)
          (congrArg Standing.filling (congrFun h.standing v))
    | sync v => simp only [chainOf, UnitView.syncChain, view, h.standing, h.gaveUp]
    | probe n => exact congrFun h.probeChain n
  simp only [Config.custody, hchain, h.standing, h.pending, h.hist]

theorem setHeld_self {k : Custody} {t : UnitNum} {o : Option (Hold × Completion)}
    (h : k.held t = o) : k.setHeld t o = k := by
  subst h
  simp [Custody.setHeld]

/-! ## Decoding a cookie -/

theorem reqBufOwner_reqBuf (u : UnitNum) : reqBufOwner (reqBuf u) = some u := by
  revert u
  decide

theorem reqBufOwner_temp (n : ℕ) : reqBufOwner (.temp n) = none := by
  simp [reqBufOwner, reqBuf]

theorem slotChain_eq_some {w : UnitView} {i : ℕ} :
    w.slotChain sl = some i ↔ (w.dev.inflight sl).cookie ≠ none ∧
      w.st.filling ≠ some sl ∧ (w.dev.inflight sl).serial = i := by
  unfold UnitView.slotChain
  split
  · next h => simp only [reduceCtorEq, false_iff]; tauto
  · next h => simp only [Option.some.injEq]; tauto

theorem syncing_of_syncChain {w : UnitView} {i : ℕ} (h : w.syncChain = some i) :
    w.Syncing := by
  unfold UnitView.syncChain at h
  unfold UnitView.Syncing
  by_cases hawaiting : w.st.awaiting = none
  · rw [hawaiting, Option.none_or] at h
    exact .inr (.inr (by simp [h]))
  · exact .inr (.inl hawaiting)

theorem Core.lookup_slot (h : s.Core) {i : ℕ}
    (hchain : s.chainOf (.slot u sl) = some i) :
    ∃ r, s.lookup (.slot u sl) = some (u, sl, r) ∧
      ((s.unit u).inflight sl).ioreq = some r := by
  obtain ⟨hcookie, -, -⟩ := slotChain_eq_some.mp hchain
  obtain ⟨b, hb⟩ := Option.ne_none_iff_exists'.mp hcookie
  obtain ⟨hslot, htag⟩ := (h.units u).cookie sl b hb
  have hrequest : ((s.unit u).inflight sl).ioreq ≠ none := fun hnone =>
    hcookie (((h.units u).request sl).mp hnone)
  obtain ⟨r, hr⟩ := Option.ne_none_iff_exists'.mp hrequest
  refine ⟨r, ?_, hr⟩
  have hid : s.reqId (.slot u sl) = requestId u sl := htag
  have hentry : ((s.unit u).inflight sl).cookie = some (.slot u sl) := hslot ▸ hb
  simp only [lookup, hid, decodeId_requestId, hentry, if_true, hr, Option.map_some]

/-- A cookie that resolves to a slot belongs to the request that slot submitted. -/
theorem Core.slot_of_lookup (h : s.Core) {x : User} {i : ℕ} {cu : UnitNum}
    {cs : Slot} {r : IORequest} (hchain : s.chainOf x = some i)
    (hlookup : s.lookup x.buffer = some (cu, cs, r)) :
    x = .slot cu cs ∧ ((s.unit cu).inflight cs).ioreq = some r := by
  have hentry := lookup_eq_some hlookup
  refine ⟨?_, hentry.2⟩
  have hbuffer : x.buffer = .slot cu cs := ((h.units cu).cookie cs _ hentry.1).1
  cases x with
  | slot v sl =>
      cases hbuffer
      rfl
  | sync v =>
      cases hbuffer
      have hzero := ((h.units cu).exclusive (syncing_of_syncChain hchain)).1
      have hsome := hentry.1
      rw [show ((s.unit cu).inflight 0).cookie = none from hzero] at hsome
      cases hsome
  | probe n => cases hbuffer

/-! ## Movements -/

theorem Core.held_owner (h : s.Core) {t : UnitNum} {st : Hold} {x : User}
    (hheld : s.custody.held t = some (st, c))
    (hchain : s.custody.chain x = some c.serial) : x.buffer = c.cookie := by
  have hcookie := h.custody.chain_cookie x _ hchain
  rw [(h.custody.held_taken t st c hheld).1, Option.some.injEq] at hcookie
  exact hcookie.symm

theorem Core.custody_found (h : s.Core) {t : UnitNum} {cu : UnitNum} {cs : Slot}
    {r : IORequest} (hheld : s.custody.held t = some (.routing, c))
    (hlookup : s.lookup c.cookie = some (cu, cs, r)) :
    s.custody.chain (.slot cu cs) = some c.serial ∧
      ((s.unit cu).inflight cs).ioreq = some r := by
  obtain ⟨x, hx⟩ := h.custody.routing_owned t c hheld
  have hbuffer := h.held_owner hheld hx
  obtain ⟨rfl, hr⟩ := h.slot_of_lookup hx (hbuffer ▸ hlookup)
  exact ⟨hx, hr⟩

theorem Core.custody_foreign (h : s.Core) {t : UnitNum}
    (hheld : s.custody.held t = some (.routing, c))
    (hlookup : s.lookup c.cookie = none) :
    ∃ x, s.custody.chain x = some c.serial ∧ ∀ u sl, x ≠ .slot u sl := by
  obtain ⟨x, hx⟩ := h.custody.routing_owned t c hheld
  refine ⟨x, hx, ?_⟩
  rintro u sl rfl
  have hbuffer := h.held_owner hheld hx
  obtain ⟨r, hr, -⟩ := h.lookup_slot hx
  rw [← hbuffer] at hlookup
  exact absurd (hr.symm.trans hlookup) (by simp)

theorem Core.custody_stash (h : s.Core) {t : UnitNum} {st : Hold} {x : User}
    (hheld : s.custody.held t = some (st, c)) (hx : s.custody.chain x = some c.serial)
    (hslot : ∀ u sl, x ≠ .slot u sl) :
    s.custody.Step ((s.stashCookie c).custody.setHeld t none) := by
  have hbuffer := h.held_owner hheld hx
  unfold stashCookie
  rw [← hbuffer]
  cases x with
  | slot v sl => exact absurd rfl (hslot v sl)
  | sync v =>
      have hcustody : ({ s.setUnit v { s.unit v with doioPending := some c } with
          ioSig := Function.update s.ioSig v true }).custody =
            s.custody.setPending v (some c) := by
        have hview := view_setPending s v (some c)
        have hchain : ({ s.setUnit v { s.unit v with doioPending := some c } with
            ioSig := Function.update s.ioSig v true }).chainOf = s.chainOf := by
          funext y
          cases y with
          | slot w sl => exact congrArg (UnitView.slotChain · sl) (congrFun hview w)
          | sync w => exact congrArg UnitView.syncChain (congrFun hview w)
          | probe n => rfl
        have hpending : (fun w => ((s.setUnit v { s.unit v with
            doioPending := some c }).unit w).doioPending) =
              Function.update (fun w => (s.unit w).doioPending) v (some c) := by
          funext w
          by_cases hw : w = v
          · subst hw
            simp [setUnit]
          · simp [setUnit, hw]
        unfold Config.custody Custody.setPending
        rw [hchain, ← hpending]
        rfl
      simp only [User.buffer, reqBufOwner_reqBuf]
      rw [hcustody]
      exact .stash t v st c hheld hx
  | probe n =>
      simp only [User.buffer, reqBufOwner_temp]
      exact .letGo t st c hheld fun u sl hchain =>
        User.noConfusion (h.custody.chain_inj hx hchain)

theorem Core.custody_release (h : s.Core) {t : UnitNum} {cu : UnitNum} {cs : Slot}
    (hheld : s.custody.held t = some (.releasing cu cs, c)) :
    s.custody.Step
      ((s.releaseSlot cu cs).custody.setHeld t (some (.done, c))) := by
  have hchain := h.custody.releasing_owned t cu cs c hheld
  have hcustody : (s.releaseSlot cu cs).custody = s.custody.finish (.slot cu cs) := by
    have hchains : (s.releaseSlot cu cs).chainOf =
        Function.update s.chainOf (.slot cu cs) none := by
      funext y
      cases y with
      | slot w sl =>
          by_cases hw : w = cu
          · subst hw
            by_cases hsl : sl = cs
            · subst hsl
              simp [chainOf, view_releaseSlot_self, UnitView.slotChain]
            · simp [chainOf, view_releaseSlot_self, UnitView.slotChain, hsl]
          · simp [chainOf, view_releaseSlot_of_ne hw, hw]
      | sync w =>
          by_cases hw : w = cu
          · subst hw
            simp [chainOf, view_releaseSlot_self, UnitView.syncChain]
          · simp [chainOf, view_releaseSlot_of_ne hw]
      | probe n =>
          unfold releaseSlot
          dsimp only
          split <;> simp [chainOf, clearActive, setUnit]
    have hpending : (fun w => ((s.releaseSlot cu cs).unit w).doioPending) =
        fun w => (s.unit w).doioPending := by
      funext w
      unfold releaseSlot
      dsimp only
      by_cases hw : w = cu
      · subst hw
        split <;> simp [clearActive, setUnit]
      · split <;> simp [clearActive, setUnit, hw]
    unfold Config.custody Custody.finish
    rw [hchains, hpending]
    unfold releaseSlot
    dsimp only
    split <;> rfl
  rw [hcustody]
  exact .settle t _ c _ hheld hchain

theorem Core.own_serial (h : s.Core) {mine : ℕ}
    (hmine : s.custody.chain (.sync u) = some mine)
    (htake : s.queue.TakenFrom q' serial x len) (hown : x.2 = reqBuf u) :
    serial = mine := by
  obtain ⟨-, hlive, hcookie⟩ := custody_take h.queue htake
  obtain ⟨y, hy⟩ := h.custody.live_owned serial hlive
  have hbuffer := h.custody.chain_cookie y _ hy
  rw [hcookie, hown, Option.some.injEq] at hbuffer
  have heq : y = .sync u := h.custody.exclusive y (.sync u) _ _ hy hmine hbuffer.symm
  have hserial : s.custody.chain y = some mine := heq ▸ hmine
  rw [hy] at hserial
  exact Option.some.inj hserial

theorem Core.exclusive_of_standing (h : s.Core)
    (hst : (s.standing u).reserved = true ∨ (s.standing u).awaiting ≠ none) :
    ((s.unit u).inflight 0).cookie = none ∧ s.journal.gaveUp u = none := by
  constructor
  · exact ((h.units u).exclusive (hst.elim .inl (.inr ∘ .inl))).1
  · by_contra hne
    obtain ⟨hreserved, hawaiting⟩ := (h.units u).once hne
    rcases hst with hst | hst
    · exact absurd (hreserved.symm.trans hst) (by simp)
    · exact hst hawaiting

theorem Core.gaveUp_of_filling (h : s.Core)
    (hfilling : (s.standing u).filling = some 0) : s.journal.gaveUp u = none := by
  by_contra hne
  exact ((h.units u).exclusive (.inr (.inr hne))).2.1 hfilling

theorem chain_awaiting {mine : ℕ}
    (hawaiting : (s.standing u).awaiting = some mine) :
    s.custody.chain (.sync u) = some mine := by
  simp [Config.custody, chainOf, UnitView.syncChain, view, hawaiting]

theorem Core.custody_own (h : s.Core) {mine : ℕ}
    (hst : s.standing u = { awaiting := some mine })
    (htake : s.queue.TakenFrom q' serial x len) (hserial : serial = mine)
    (hp : p.standing = { held := some (.done, ⟨x.2, serial⟩), reserved := true }) :
    s.custody.Step ({ s with queue := q' }.goto u p).custody := by
  obtain ⟨hcustody, hlive, hcookie⟩ := custody_take h.queue htake
  have hmine : s.custody.chain (.sync u) = some mine := chain_awaiting (by rw [hst])
  have hbuffer := h.custody.chain_cookie (.sync u) _ hmine
  rw [← hserial, hcookie, Option.some.injEq] at hbuffer
  rw [@custody_goto_settle { s with queue := q' }]
  · rw [hcustody, hp, hbuffer]
    refine .own u u serial ?_ hlive (hserial ▸ hmine)
    simp [Config.custody, hst]
  · rw [hp]
    exact (congrArg Standing.filling hst).symm
  · rw [hp]
  · exact (h.exclusive_of_standing (.inr (by simp [hst]))).2

theorem custody_added (hq : s.queue.Ok) {y : User}
    (hadd : s.queue.AddedTo q' y.buffer) :
    { s with queue := q' }.custody =
      { s.custody.issue y s.queue.hist.added.length with
        chain := s.chainOf } := by
  obtain ⟨free, chain, hi⟩ := hq
  have hlive : q'.hist.live = s.queue.hist.live ++ [s.queue.hist.added.length] := by
    rw [hadd.hist]
    exact History.live_addBuf hi.ledger _
  have hcookie : (fun i => (q'.hist.added[i]?).map Prod.snd) =
      Function.update (fun i => (s.queue.hist.added[i]?).map Prod.snd)
        s.queue.hist.added.length (some y.buffer) := by
    funext i
    rw [hadd.hist]
    by_cases hi : i = s.queue.hist.added.length
    · subst hi
      simp
    · rw [Function.update_of_ne hi]
      rcases Nat.lt_or_gt_of_ne hi with hlt | hgt
      · rw [List.getElem?_append_left hlt]
      · rw [List.getElem?_eq_none (by simp; omega), List.getElem?_eq_none (by omega)]
  unfold Config.custody Custody.issue
  simp only [hcookie, hlive, List.mem_append, List.mem_singleton, or_comm]
  rfl

theorem custody_issue {y : User}
    (hfree : ∀ z, z.buffer = y.buffer → s.custody.chain z = none) :
    s.custody.Step (s.custody.issue y s.queue.hist.added.length) :=
  .issue y _ (by simp [Config.custody]) hfree

theorem Core.custody_reply (h : s.Core) {t : UnitNum}
    (hheld : s.custody.held t = some (.done, c)) :
    s.custody.Step (s.custody.setHeld t none) := by
  refine .letGo t .done c hheld ?_
  intro u sl hchain
  rcases h.custody.held_slot hheld hchain with hst | hst <;> cases hst

theorem custody_stay (hs : SameChains s s₁)
    (hheld : p.standing.held = (s.standing u).held)
    (hfilling : p.standing.filling = (s.standing u).filling)
    (hawaiting : p.standing.awaiting = (s.standing u).awaiting) :
    s.custody.Step (s₁.goto u p).custody := by
  rw [custody_goto_same (by rw [hs.standing, hfilling]) (by rw [hs.standing, hawaiting]),
    hs.custody, hheld, show (s.standing u).held = s.custody.held u from rfl,
    setHeld_self rfl]
  exact .stay

theorem custody_slot {d : DevUnit}
    (hunit : s₁.unit = Function.update s.unit u d)
    (hstanding : s₁.standing = s.standing)
    (hgave : s₁.journal.gaveUp = s.journal.gaveUp)
    (hprobe : s₁.journal.probeChain = s.journal.probeChain)
    (hhist : s₁.queue.hist = s.queue.hist)
    (hpending : d.doioPending = (s.unit u).doioPending)
    (hheld : p.standing.held = (s.standing u).held)
    (hawaiting : p.standing.awaiting = (s.standing u).awaiting)
    (hslot : ∀ sl, UnitView.slotChain ⟨p.standing, d, fun _ => 0, none⟩ sl =
      UnitView.slotChain ⟨s.standing u, s.unit u, fun _ => 0, none⟩ sl) :
    s.custody.Step (s₁.goto u p).custody := by
  have hchain : (s₁.goto u p).chainOf = s.chainOf := by
    funext x
    rw [chainOf_goto]
    split
    · next hx =>
      subst hx
      rw [hawaiting, hgave]
      rfl
    · cases x with
      | slot v sl =>
          dsimp only
          split
          · next hv =>
            subst hv
            have hd : (s₁.unit v).inflight = d.inflight := by simp [hunit]
            refine Eq.trans ?_ (hslot sl)
            exact UnitView.slotChain_congr (congrFun hd sl) rfl
          · next hv =>
            have hd : (s₁.unit v).inflight = (s.unit v).inflight := by
              simp [hunit, hv]
            exact UnitView.slotChain_congr (congrFun hd sl)
              (congrArg Standing.filling (congrFun hstanding v))
      | sync v => simp only [chainOf, UnitView.syncChain, view, hstanding, hgave]
      | probe n => exact congrFun hprobe n
  have hpend : (fun v => (s₁.unit v).doioPending) = fun v => (s.unit v).doioPending := by
    funext v
    by_cases hv : v = u
    · subst hv
      simp [hunit, hpending]
    · simp [hunit, hv]
  have hcustody : (s₁.goto u p).custody = s.custody := by
    rw [custody_goto, hchain, hheld]
    unfold Config.custody Custody.setHeld
    simp only [hstanding, hhist, hpend]
    congr 1
    exact Function.update_eq_self u (fun t => (s.standing t).held)
  rw [hcustody]
  exact .stay

theorem Core.custody_add (h : s.Core) {st : Standing}
    (hst : s.standing u = { st with filling := some sl, awaiting := none })
    (hheld : p.standing.held = st.held)
    (hp : p.standing.filling = none ∧ p.standing.awaiting = none)
    (hcookie : ((s.unit u).inflight sl).cookie ≠ none)
    (hadd : s.queue.AddedTo q' (.slot u sl))
    (hunit : s₁.unit = Function.update s.unit u { s.unit u with
      inflight := Function.update (s.unit u).inflight sl
        { (s.unit u).inflight sl with serial := s.queue.hist.added.length } })
    (hstanding : s₁.standing = s.standing) (hqueue : s₁.queue = q')
    (hgave : s₁.journal.gaveUp = s.journal.gaveUp)
    (hprobe : s₁.journal.probeChain = s.journal.probeChain) :
    s.custody.Step (s₁.goto u p).custody := by
  have hzero : sl = 0 → s.journal.gaveUp u = none := by
    rintro rfl
    exact h.gaveUp_of_filling (by rw [hst])
  have hissue := custody_issue (s := s) (y := .slot u sl) (by
    intro z hz
    cases z with
    | slot v sl' =>
        cases hz
        simp [Config.custody, chainOf, UnitView.slotChain, view, hst]
    | sync v =>
        cases hz
        simp [Config.custody, chainOf, UnitView.syncChain, view, hst, hzero]
    | probe n => cases hz)
  have hchain : (s₁.goto u p).chainOf =
      Function.update s.chainOf (.slot u sl) (some s.queue.hist.added.length) := by
    funext x
    rw [chainOf_goto, Function.update_apply]
    cases x with
    | slot v sl' =>
        by_cases hv : v = u
        · subst hv
          by_cases hsl : sl' = sl
          · subst hsl
            simp [UnitView.slotChain, view, hunit, hp.1, hcookie]
          · simp [chainOf, UnitView.slotChain, view, hunit, hp.1, hst, hsl, Ne.symm hsl]
        · have hd : (s₁.unit v).inflight = (s.unit v).inflight := by simp [hunit, hv]
          simp only [reduceCtorEq, if_false, hv, User.slot.injEq, false_and]
          exact UnitView.slotChain_congr (congrFun hd sl')
            (congrArg Standing.filling (congrFun hstanding v))
    | sync v =>
        by_cases hv : v = u
        · subst hv
          simp [chainOf, UnitView.syncChain, view, hp.2, hst, hgave]
        · simp [chainOf, UnitView.syncChain, view, hstanding, hgave, hv]
    | probe n => simp [chainOf, hprobe]
  have hpend : (fun v => (s₁.unit v).doioPending) = fun v => (s.unit v).doioPending := by
    funext v
    by_cases hv : v = u
    · subst hv
      simp [hunit]
    · simp [hunit, hv]
  have hcustody : (s₁.goto u p).custody =
      s.custody.issue (.slot u sl) s.queue.hist.added.length := by
    have hqueued := custody_added (y := .slot u sl) h.queue hadd
    rw [custody_goto, hchain]
    unfold Config.custody Custody.setHeld Custody.issue at *
    simp only [Custody.mk.injEq] at hqueued ⊢
    refine ⟨?_, ?_, ?_, hpend, trivial⟩
    · rw [hqueue]
      exact hqueued.1
    · rw [hqueue]
      exact hqueued.2.1
    · rw [hstanding, hheld, show st.held = (s.standing u).held by rw [hst]]
      exact Function.update_eq_self u (fun t => (s.standing t).held)
  rw [hcustody]
  exact hissue

theorem Core.custody_sync (h : s.Core) (hst : s.standing u = { reserved := true })
    (hp : p.standing.held = none ∧ p.standing.filling = none ∧
      p.standing.awaiting = some s.queue.hist.added.length)
    (hadd : s.queue.AddedTo q' (reqBuf u)) (hunit : s₁.unit = s.unit)
    (hstanding : s₁.standing = s.standing) (hqueue : s₁.queue = q')
    (hjournal : s₁.journal = s.journal) :
    s.custody.Step (s₁.goto u p).custody := by
  obtain ⟨hzero, hgave⟩ := h.exclusive_of_standing (.inl (by rw [hst]))
  have hissue := custody_issue (s := s) (y := .sync u) (by
    intro z hz
    cases z with
    | slot v sl' =>
        cases hz
        exact if_pos (.inl hzero)
    | sync v =>
        cases hz
        simp [Config.custody, chainOf, UnitView.syncChain, view, hst, hgave]
    | probe n => cases hz)
  have hchain : (s₁.goto u p).chainOf =
      Function.update s.chainOf (.sync u) (some s.queue.hist.added.length) := by
    funext x
    rw [chainOf_goto, Function.update_apply]
    cases x with
    | slot v sl' =>
        by_cases hv : v = u
        · subst hv
          simp [chainOf, UnitView.slotChain, view, hunit, hp.2.1, hst]
        · simp only [reduceCtorEq, if_false, hv]
          exact UnitView.slotChain_congr (by rw [view, hunit]; rfl)
            (congrArg Standing.filling (congrFun hstanding v))
    | sync v =>
        by_cases hv : v = u
        · subst hv
          simp [hp.2.2]
        · simp [chainOf, UnitView.syncChain, view, hstanding, hjournal, hv]
    | probe n => simp [chainOf, hjournal]
  have hcustody : (s₁.goto u p).custody =
      s.custody.issue (.sync u) s.queue.hist.added.length := by
    have hqueued := custody_added (y := .sync u) h.queue hadd
    rw [custody_goto, hchain]
    unfold Config.custody Custody.setHeld Custody.issue at *
    simp only [Custody.mk.injEq] at hqueued ⊢
    refine ⟨?_, ?_, ?_, by rw [hunit], trivial⟩
    · rw [hqueue]
      exact hqueued.1
    · rw [hqueue]
      exact hqueued.2.1
    · rw [hstanding, hp.1, show none = (s.standing u).held by rw [hst]]
      exact Function.update_eq_self u (fun t => (s.standing t).held)
  rw [hcustody]
  exact hissue

theorem custody_setPending (s : Config) (u : UnitNum) :
    (s.setUnit u { s.unit u with doioPending := none }).custody =
      s.custody.setPending u none := by
  have hchains : (s.setUnit u { s.unit u with doioPending := none }).chainOf =
      s.chainOf := by
    have hview := view_setPending s u none
    funext x
    cases x with
    | slot v sl => exact congrArg (UnitView.slotChain · sl) (congrFun hview v)
    | sync v => exact congrArg UnitView.syncChain (congrFun hview v)
    | probe n => rfl
  have hpend : (fun v => ((s.setUnit u { s.unit u with
      doioPending := none }).unit v).doioPending) =
        Function.update (fun v => (s.unit v).doioPending) u none := by
    funext v
    by_cases hv : v = u
    · subst hv
      simp [setUnit]
    · simp [setUnit, hv]
  unfold Config.custody Custody.setPending
  rw [hchains, ← hpend]
  rfl

theorem custody_doioCheck_none {call : SyncCall}
    (hst : s.standing u = { awaiting := some call.mine }) :
    (s.doioCheck u call none).custody = s.custody := by
  have hview : ∀ v, ((s.doioCheck u call none).view v).slotChain = (s.view v).slotChain ∧
      ((s.doioCheck u call none).view v).syncChain = (s.view v).syncChain := by
    intro v
    by_cases hv : v = u
    · subst hv
      refine ⟨funext fun sl => UnitView.slotChain_congr rfl ?_, ?_⟩
      · rw [doioCheck, view_goto_self]
        exact (congrArg Standing.filling hst).symm
      · rw [doioCheck, view_goto_self]
        simp [UnitView.syncChain, view, hst, Pc.standing]
    · rw [doioCheck, view_goto_of_ne hv]
      simp [UnitView.syncChain, view, standing, hv]
  have hchain : (s.doioCheck u call none).chainOf = s.chainOf := by
    funext x
    cases x with
    | slot v sl => exact congrFun (hview v).1 sl
    | sync v => exact (hview v).2
    | probe n => rfl
  have hheld : (fun t => ((s.doioCheck u call none).standing t).held) =
      fun t => (s.standing t).held := by
    funext t
    rw [doioCheck, standing_goto_apply]
    split
    · next ht =>
      rw [ht, hst]
      rfl
    · rfl
  unfold Config.custody
  rw [hchain, hheld]
  rfl

theorem chainOf_probe {n : ℕ} {o : Option ℕ} (hview : s₁.view = s.view)
    (hprobe : s₁.journal.probeChain = Function.update s.journal.probeChain n o) :
    s₁.chainOf = Function.update s.chainOf (.probe n) o := by
  funext x
  cases x with
  | slot v sl => simp [chainOf, hview]
  | sync v => simp [chainOf, hview]
  | probe m =>
      by_cases hm : m = n
      · subst hm
        simp [chainOf, hprobe]
      · simp [chainOf, hprobe, hm]

theorem Core.custody_probeAdd {n tries : ℕ} (h : s.Core) (hprobe : s.probe = .attempt n tries)
    (hadd : s.queue.AddedTo q' (.temp n)) (hview : s₁.view = s.view)
    (hstanding : s₁.standing = s.standing) (hunit : s₁.unit = s.unit)
    (hqueue : s₁.queue = q'.kick)
    (hchain : s₁.journal.probeChain = Function.update s.journal.probeChain n
      (some s.queue.hist.added.length)) :
    s.custody.Step s₁.custody := by
  have hfree : s.journal.probeChain n = none := by
    have hprobes := h.probes.2
    rw [hprobe] at hprobes
    exact hprobes.2
  have hissue := custody_issue (s := s) (y := .probe n) (by
    intro z hz
    cases z with
    | slot v sl => cases hz
    | sync v => cases hz
    | probe m =>
        cases hz
        exact hfree)
  have hqueued := custody_added (y := .probe n) h.queue hadd
  have hcustody : s₁.custody = s.custody.issue (.probe n) s.queue.hist.added.length := by
    unfold Config.custody Custody.issue at *
    simp only [Custody.mk.injEq] at hqueued ⊢
    rw [hqueue, hstanding, hunit]
    exact ⟨hqueued.1, hqueued.2.1, rfl, rfl, chainOf_probe hview hchain⟩
  rw [hcustody]
  exact hissue

theorem Core.custody_probeTake {n : ℕ} (h : s.Core)
    (hmine : s.custody.chain (.probe n) = some serial)
    (htake : s.queue.TakenFrom q' serial x len) (hview : s₁.view = s.view)
    (hstanding : s₁.standing = s.standing) (hunit : s₁.unit = s.unit) (hqueue : s₁.queue = q')
    (hchain : s₁.journal.probeChain = Function.update s.journal.probeChain n none) :
    s.custody.Step s₁.custody := by
  obtain ⟨hcustody, hlive, -⟩ := custody_take h.queue htake
  have hfinish : s₁.custody = (s.custody.retire serial).finish (.probe n) := by
    rw [← hcustody]
    unfold Config.custody Custody.finish
    rw [hqueue, hstanding, hunit, chainOf_probe hview hchain]
    rfl
  rw [hfinish]
  exact .probeTake serial n hlive hmine

/-- Seen from custody, every move that respects the synchronous callers is one of the
abstract steps. -/
theorem Core.custody_step (h : s.Core) (hguard : s.SyncExclusive e)
    (hm : s.Move e s') : s.custody.Step s'.custody := by
  cases hm with
  | quiet u ch s' hq =>
      rw [hq.same.1.custody]
      exact .stay
  | harvested u ch hpc hlock hempty =>
      have hst : s.standing u = {} := standing_of hpc
      refine custody_stay (by constructor <;> intros <;> rfl) ?_ ?_ ?_ <;> rw [hst] <;> rfl
  | take u ch caller serial x len q' hpc hlock htake hq hforeign =>
      have hst := hpc.standing
      obtain ⟨hcustody, hlive, hcookie⟩ := custody_take h.queue htake
      rw [@custody_goto_same { s with queue := q' }, hcustody]
      · exact .take u serial x.2 (by simp [Config.custody, hst]) hlive hcookie
      · exact (congrArg Standing.filling hst).symm
      · exact (congrArg Standing.awaiting hst).symm
  | takeOwn u ch call serial x len q' hpc hlock htake hq hown =>
      have hst := hpc.standing
      have hmine : s.custody.chain (.sync u) = some call.mine :=
        chain_awaiting (by rw [hst]; rfl)
      exact h.custody_own hst htake (h.own_serial hmine htake hown) rfl
  | pick u ch call c hpc hlock hpending hown =>
      have hst : s.standing u = { awaiting := some call.mine } := standing_of hpc
      rw [custody_goto_settle, custody_setPending]
      · exact .pick u u c (by simp [Config.custody, hst]) hpending
      · exact (congrArg Standing.filling hst).symm
      · rfl
      · exact (h.exclusive_of_standing (.inr (by simp [hst]))).2
  | found u ch caller c cu cs r hpc hlookup =>
      have hst : s.standing u = (Pc.handle caller c .route).standing := standing_of hpc
      have hheld : s.custody.held u = some (.routing, c) := congrArg Standing.held hst
      have hchain := (h.custody_found hheld hlookup).1
      rw [custody_goto_same]
      · refine .advance u .routing _ c hheld (by simp) ?_ (by simp) ?_
        · rintro v sl heq
          cases heq
          exact hchain
        · intro v sl hv
          have hslot := h.custody.chain_inj hchain hv
          cases hslot
          rfl
      · exact (congrArg Standing.filling hst).symm
      · exact (congrArg Standing.awaiting hst).symm
  | foreign u ch call c hpc hlookup =>
      have hst : s.standing u = (Pc.handle (some call) c .route).standing :=
        standing_of hpc
      have hheld : s.custody.held u = some (.routing, c) := congrArg Standing.held hst
      obtain ⟨x, hx, hslot⟩ := h.custody_foreign hheld hlookup
      rw [custody_goto_same]
      · refine .advance u .routing _ c hheld (by simp) (by simp) (fun _ => ⟨x, hx, hslot⟩) ?_
        intro v sl hv
        exact absurd (h.custody.chain_inj hx hv) (hslot v sl)
      · exact (congrArg Standing.filling hst).symm
      · exact (congrArg Standing.awaiting hst).symm
  | stash u ch caller c hpc =>
      have hstanding : (s.stashCookie c).standing = s.standing := by
        unfold stashCookie
        split <;> rfl
      have hcase : ∃ hold x, s.standing u =
          { held := some (hold, c), awaiting := caller.map SyncCall.mine } ∧
            s.custody.chain x = some c.serial ∧ ∀ v sl, x ≠ .slot v sl := by
        rcases hpc with ⟨rfl, hpc, hlookup⟩ | hpc
        · have hst : s.standing u = (Pc.handle none c .route).standing :=
            standing_of hpc
          obtain ⟨x, hx, hslot⟩ :=
            h.custody_foreign (congrArg Standing.held hst) hlookup
          exact ⟨.routing, x, hst, hx, hslot⟩
        · have hst : s.standing u = (Pc.handle caller c .stash).standing :=
            standing_of hpc
          obtain ⟨x, hx, hslot⟩ :=
            h.custody.stashing_owned u c (congrArg Standing.held hst)
          exact ⟨.stashing, x, hst, hx, hslot⟩
      obtain ⟨hold, x, hst, hx, hslot⟩ := hcase
      rw [custody_goto_same]
      · exact h.custody_stash (congrArg Standing.held hst) hx hslot
      · rw [hstanding]
        exact (congrArg Standing.filling hst).symm
      · rw [hstanding]
        exact (congrArg Standing.awaiting hst).symm
  | release u ch caller c cu cs r err actual hpc hlock =>
      have hstanding : (s.releaseSlot cu cs).standing = s.standing := by
        unfold releaseSlot
        dsimp only
        split <;> rfl
      have hst : s.standing u =
          (Pc.handle caller c (.release cu cs r err actual)).standing := standing_of hpc
      rw [custody_goto_same]
      · exact h.custody_release (congrArg Standing.held hst)
      · rw [hstanding]
        exact (congrArg Standing.filling hst).symm
      · rw [hstanding]
        exact (congrArg Standing.awaiting hst).symm
  | reply u ch caller c r err actual hpc =>
      have hst : s.standing u = (Pc.handle caller c (.reply r err actual)).standing :=
        standing_of hpc
      rw [custody_goto_same]
      · exact h.custody_reply (congrArg Standing.held hst)
      · exact (congrArg Standing.filling hst).symm
      · exact (congrArg Standing.awaiting hst).symm
  | coalesce u ch hpc =>
      have hst : s.standing u = { locked := true } := standing_of hpc
      have hchains : SameChains s { s with
          ioLock := none
          queue := { s.queue with
            vq := if s.queue.vq.useEventIdx && decide
                (2 ≤ (BitVec.ofNat 16 s.occupiedCount).toNat) then
              s.queue.vq.setUsedEvent (s.queue.vq.lastUsedIdx +
                (BitVec.ofNat 16 s.occupiedCount - 1))
            else s.queue.vq } } := by
        constructor <;> intros <;> rfl
      refine custody_stay hchains ?_ ?_ ?_ <;> rw [hst] <;> split <;> rfl
  | pop u ch r sl hpc hlock hfree =>
      have hst : s.standing u = {} := standing_of hpc
      have hnone : ((s.unit u).inflight sl).cookie = none :=
        ((h.units u).head_free hfree).1
      refine custody_slot rfl rfl rfl rfl rfl rfl ?_ ?_ ?_
      · rw [hst]
        rfl
      · rw [hst]
        rfl
      · intro sl'
        simp only [UnitView.slotChain, hst, Pc.standing, SubmitAt.standing]
        grind
  | fillFailed u ch r sl hpc =>
      have hst : s.standing u = { filling := some sl } := standing_of hpc
      refine custody_stay (by constructor <;> intros <;> rfl) ?_ ?_ ?_ <;> rw [hst] <;> rfl
  | fill u ch r sl sg hpc hsg =>
      have hst : s.standing u = { filling := some sl } := standing_of hpc
      refine custody_slot rfl rfl rfl rfl rfl rfl ?_ ?_ ?_
      · rw [hst]
        rfl
      · rw [hst]
        rfl
      · intro sl'
        simp only [UnitView.slotChain, hst, Pc.standing, SubmitAt.standing, prepare,
          Function.update_apply]
        grind
  | addFailed u ch r sl sg hpc hlock =>
      have hst : s.standing u = { filling := some sl, marked := some r } :=
        standing_of hpc
      refine custody_slot rfl rfl rfl rfl rfl rfl ?_ ?_ ?_
      · rw [hst]
        rfl
      · rw [hst]
        rfl
      · intro sl'
        simp only [UnitView.slotChain, hst, Pc.standing, SubmitAt.standing,
          Function.update_apply]
        grind
  | add u ch r sl sg q' hpc hlock hadd hq =>
      have hst : s.standing u = { filling := some sl, marked := some r } :=
        standing_of hpc
      have hcookie := ((h.units u).entry_of_marked (by rw [view, hst])
        (by rw [view, hst])).2
      let st : Standing := { marked := some r }
      have hst' : s.standing u = { st with filling := some sl, awaiting := none } := hst
      exact h.custody_add hst' rfl ⟨rfl, rfl⟩ hcookie hadd rfl rfl rfl rfl rfl
  | account u ch r sl hpc =>
      have hst : s.standing u = { counting := some sl, locked := true } :=
        standing_of hpc
      have hunit : ∀ v, ((s.setUnit u { s.unit u with
          inflightCount := (s.unit u).inflightCount + 1 }).unit v).inflight =
            (s.unit v).inflight ∧
          ((s.setUnit u { s.unit u with
            inflightCount := (s.unit u).inflightCount + 1 }).unit v).doioPending =
              (s.unit v).doioPending := by
        intro v
        by_cases hv : v = u
        · subst hv
          simp [setUnit]
        · simp [setUnit, hv]
      refine custody_stay ⟨rfl, fun v => (hunit v).1, fun v => (hunit v).2, rfl, rfl, rfl⟩
        ?_ ?_ ?_ <;> rw [hst] <;> rfl
  | giveBack u ch r sl err hpc hlock =>
      have hst : s.standing u = { filling := some sl } := standing_of hpc
      have hnone : ((s.unit u).inflight sl).cookie = none :=
        ((h.units u).request sl).mp (((h.units u).marked sl (by rw [view, hst])).trans
          (by rw [view, hst]))
      refine custody_slot rfl rfl rfl rfl rfl rfl ?_ ?_ ?_
      · rw [hst]
        rfl
      · rw [hst]
        rfl
      · intro sl'
        simp only [UnitView.slotChain, hst, Pc.standing]
        grind
  | prepareFailed u ch call hpc =>
      have hst : s.standing u = {} := standing_of hpc
      refine custody_stay (by constructor <;> intros <;> rfl) ?_ ?_ ?_ <;> rw [hst] <;> rfl
  | prepare u ch call sg hpc hsg =>
      have hst : s.standing u = {} := standing_of hpc
      refine custody_stay (by constructor <;> intros <;> rfl) ?_ ?_ ?_ <;> rw [hst] <;> rfl
  | syncFailed u ch call sg hpc hlock =>
      have hst : s.standing u = { reserved := true } := standing_of hpc
      refine custody_stay (by constructor <;> intros <;> rfl) ?_ ?_ ?_ <;> rw [hst] <;> rfl
  | sync u ch call sg q' hpc hlock hadd hq =>
      exact h.custody_sync (standing_of hpc) ⟨rfl, rfl, rfl⟩ hadd rfl rfl rfl rfl
  | mark u ch call hpc =>
      have hst : s.standing u = { awaiting := some call.mine, locked := true } :=
        standing_of hpc
      have hchains : SameChains s { s.setActive u with
          queue := s.queue.kick, ioLock := none } := by
        constructor <;> intros <;> rfl
      refine custody_stay hchains ?_ ?_ ?_ <;> rw [hst] <;> split <;> rfl
  | pollTake u ch call left serial x len q' hpc htake hq =>
      have hst : s.standing u = { awaiting := some call.mine } := standing_of hpc
      simp only [SyncExclusive, PcExclusive, hpc, nextSerial, htake.published, Option.map_some,
        Option.some.injEq, reduceCtorEq, false_or] at hguard
      exact h.custody_own hst htake hguard rfl
  | giveUp u ch call hpc =>
      have hst : s.standing u = { awaiting := some call.mine } := standing_of hpc
      rw [custody_doioCheck_none hst]
      exact .stay
  | accept u ch call c hpc =>
      have hst : s.standing u = { held := some (.done, c), reserved := true } :=
        standing_of hpc
      have hout := doioOutcome_standing s.setup.modern call (s.resp (reqBuf u))
      unfold doioCheck
      rw [custody_goto_same, hout]
      · exact h.custody_reply (congrArg Standing.held hst)
      · rw [hout]
        exact (congrArg Standing.filling hst).symm
      · rw [hout]
        exact (congrArg Standing.awaiting hst).symm
  | leave u ch call result hpc hlock =>
      have hst : s.standing u = {} := standing_of hpc
      have hchains : SameChains s
          (if (s.unit u).inflightCount = 0 then s.clearActive u else s) := by
        split <;> constructor <;> intros <;> rfl
      refine custody_stay hchains ?_ ?_ ?_ <;> rw [hst, returnPc_standing]
  | kick u ch hpc hlock =>
      have hst : s.standing u = {} := standing_of hpc
      refine custody_stay (by constructor <;> intros <;> rfl) ?_ ?_ ?_ <;> rw [hst] <;> rfl
  | probeAdd ch n tries q' hrun hprobe hadd hq =>
      exact h.custody_probeAdd hprobe hadd rfl rfl rfl rfl rfl
  | probeTake ch call serial x len q' p hrun hprobe htake hq hp =>
      simp only [SyncExclusive, ProbeExclusive, hprobe, nextSerial, htake.published,
        Option.map_some,
        Option.some.injEq, reduceCtorEq, false_or] at hguard
      have hmine : s.custody.chain (.probe call.buf) = some serial := by
        have hprobes := h.probes.2
        rw [hprobe] at hprobes
        rw [hguard]
        exact hprobes.2
      exact h.custody_probeTake hmine htake rfl rfl rfl rfl rfl
  | fetch q' hfetch =>
      obtain ⟨free, chain, hi⟩ := h.queue
      obtain ⟨head, -, rfl, -⟩ := hi.fetch hfetch
      exact .stay
  | complete i len r serial x q' hpending hcomplete hadded =>
      obtain ⟨free, chain, hi⟩ := h.queue
      obtain ⟨_, _, -, hhist, -⟩ := hi.complete hcomplete
      refine (congrArg s.custody.Step ?_).mp .stay
      unfold Config.custody
      rw [Custody.mk.injEq]
      refine ⟨?_, ?_, rfl, rfl, rfl⟩
      · rw [hhist]
      · rw [hhist, History.live_complete hi.ledger]
  | signal q' hsignal =>
      obtain ⟨-, raise, rfl, -⟩ := signal_cases hsignal
      exact .stay
  | rest q' hrest =>
      obtain ⟨free, chain, hi⟩ := h.queue
      obtain ⟨-, -, rfl⟩ := hi.rest hrest
      exact .stay
  | _ => exact .stay

/-! ## Discovery -/

theorem Core.probes_move (h : s.Core) (hguard : s.SyncExclusive e)
    (hm : s.Move e s') : s'.ProbeOk := by
  have hprobes := h.probes
  unfold ProbeOk at hprobes ⊢
  cases hm with
  | quiet u ch s' hq =>
      rw [hq.same.1.nextTemp, hq.same.1.probe, hq.same.1.probeChain]
      exact hprobes
  | stash u ch caller c hpc =>
      have hsame : (s.stashCookie c).nextTemp = s.nextTemp ∧
          (s.stashCookie c).probe = s.probe ∧
          (s.stashCookie c).journal = s.journal := by
        unfold stashCookie
        split <;> exact ⟨rfl, rfl, rfl⟩
      simpa only [goto, hsame.1, hsame.2.1, hsame.2.2] using hprobes
  | release u ch caller c cu cs r err actual hpc hlock =>
      have hsame : (s.releaseSlot cu cs).nextTemp = s.nextTemp ∧
          (s.releaseSlot cu cs).probe = s.probe ∧
          (s.releaseSlot cu cs).journal = s.journal := by
        unfold releaseSlot
        dsimp only
        split <;> exact ⟨rfl, rfl, rfl⟩
      simpa only [goto, hsame.1, hsame.2.1, hsame.2.2] using hprobes
  | leave u ch call result hpc hlock =>
      split <;> exact hprobes
  | probeBegin ch hrun hprobe =>
      refine ⟨fun n hn => hprobes.1 n (by dsimp only at hn; omega), ?_⟩
      exact ⟨Nat.lt_succ_self _, hprobes.1 _ le_rfl⟩
  | probeFailed ch n tries hrun hprobe => exact ⟨hprobes.1, trivial⟩
  | probeAdd ch n tries q' hrun hprobe hadd hq =>
      rw [hprobe] at hprobes
      refine ⟨?_, hprobes.2.1, by simp⟩
      intro m hm
      have hne : m ≠ n := (hprobes.2.1.trans_le hm).ne'
      simpa [hne] using hprobes.1 m hm
  | probePolled ch call hrun hprobe hempty =>
      rw [hprobe] at hprobes
      refine ⟨hprobes.1, ?_⟩
      dsimp only
      split
      · next heq => trivial
      · next n tries heq => split at heq <;> cases heq
      · next call' heq =>
        split at heq <;> cases heq
        exact hprobes.2
  | probeTake ch call serial x len q' p hrun hprobe htake hq hp =>
      rw [hprobe] at hprobes
      refine ⟨?_, ?_⟩
      · intro m hm
        have hne : m ≠ call.buf := (hprobes.2.1.trans_le hm).ne'
        simpa [hne] using hprobes.1 m hm
      · rcases hp with rfl | rfl
        · trivial
        · exact ⟨hprobes.2.1, by simp⟩
  | _ => exact hprobes

theorem Core.probeTag_move (h : s.Core) (hm : s.Move e s') :
    ∀ n, s'.journal.probeChain n ≠ none → s'.reqId (.temp n) = 1 := by
  have htag := h.probeTag
  cases hm with
  | quiet u ch s' hq =>
      rw [hq.same.1.probeChain, hq.same.1.reqId]
      exact htag
  | stash u ch caller c hpc =>
      have hsame : (s.stashCookie c).reqId = s.reqId ∧
          (s.stashCookie c).journal = s.journal := by
        unfold stashCookie
        split <;> exact ⟨rfl, rfl⟩
      simpa only [goto, hsame.1, hsame.2] using htag
  | release u ch caller c cu cs r err actual hpc hlock =>
      have hsame : (s.releaseSlot cu cs).reqId = s.reqId ∧
          (s.releaseSlot cu cs).journal = s.journal := by
        unfold releaseSlot
        dsimp only
        split <;> exact ⟨rfl, rfl⟩
      simpa only [goto, hsame.1, hsame.2] using htag
  | leave u ch call result hpc hlock =>
      split <;> exact htag
  | fillFailed u ch r sl hpc => simpa [goto, prepare] using htag
  | fill u ch r sl sg hpc hsg => simpa [goto, prepare, setInflight, setUnit] using htag
  | prepareFailed u ch call hpc => simpa [goto, prepare, reqBuf] using htag
  | prepare u ch call sg hpc hsg => simpa [goto, Config.prepare, reqBuf] using htag
  | probeFailed ch n tries hrun hprobe =>
      intro m hm
      by_cases hmn : m = n
      · subst hmn
        simp [prepare]
      · simpa [prepare, hmn] using htag m hm
  | probeAdd ch n tries q' hrun hprobe hadd hq =>
      intro m hm
      by_cases hmn : m = n
      · subst hmn
        simp [prepare]
      · have hold : s.journal.probeChain m ≠ none := by simpa [hmn] using hm
        simpa [prepare, hmn] using htag m hold
  | probeTake ch call serial x len q' p hrun hprobe htake hq hp =>
      intro m hm
      have hmn : m ≠ call.buf := by
        rintro rfl
        simp at hm
      exact htag m (by simpa [hmn] using hm)
  | _ => exact htag

/-! ## The invariant over runs -/

theorem Core.move (h : s.Core) (hguard : s.SyncExclusive e)
    (hm : s.Move e s') : s'.Core where
  queue := (h.fit.move hm).queue
  filled := (h.fit.move hm).filled
  locks := locks_move h.locks hm
  units := h.units_move hguard hm
  custody := h.custody.step (h.custody_step hguard hm)
  probes := h.probes_move hguard hm
  probeTag := h.probeTag_move hm
  total := h.total_move hm

theorem Core.move_of_step (h : s.Core) (hstep : s.step e = some s') :
    s.Move e s' :=
  step_move h.queue h.filled hstep

theorem Core.step (h : s.Core) (hguard : s.SyncExclusive e)
    (hstep : s.step e = some s') : s'.Core :=
  h.move hguard (h.move_of_step hstep)

theorem initial_chainOf (setup : Setup) (x : User) :
    (initial setup).chainOf x = none := by
  cases x <;> rfl

theorem core_initial (setup : Setup) : (initial setup).Core where
  queue := ⟨_, _, inv_initial _ _ _ setup.queueLog_pos setup.queueLog_le⟩
  filled := fun _ => trivial
  locks := fun u => by simp [standing, initial, Pc.standing]
  units := UnitView.ok_fresh
  custody := by
    have hchain : ∀ x i, (initial setup).custody.chain x ≠ some i := by
      intro x i
      rw [show (initial setup).custody.chain x = none from initial_chainOf setup x]
      simp
    have hheld : ∀ t o, (initial setup).custody.held t ≠ some o := by
      intro t o
      simp [Config.custody, standing, initial, Pc.standing]
    have hpending : ∀ u c, (initial setup).custody.pending u ≠ some c := by
      intro u c
      simp [Config.custody, initial, freshUnit]
    have hlive : ∀ i, ¬ (initial setup).custody.live i := by
      intro i
      simp [Config.custody, initial, RequestQueue.initial, History.live]
    exact
      { held_taken := fun t st c h => absurd h (hheld t _)
        pending_taken := fun u c h => absurd h (hpending u c)
        held_inj := fun t _ st _ c _ h => absurd h (hheld t _)
        held_pending := fun t _ st c _ h => absurd h (hheld t _)
        chain_cookie := fun x i h => absurd h (hchain x i)
        exclusive := fun x _ i _ h => absurd h (hchain x i)
        live_owned := fun i h => absurd h (hlive i)
        routing_owned := fun t c h => absurd h (hheld t _)
        releasing_owned := fun t u sl c h => absurd h (hheld t _)
        stashing_owned := fun t c h => absurd h (hheld t _)
        pending_owned := fun u c h => absurd h (hpending u c)
        slot_chain := fun u sl i h => absurd h (hchain _ i) }
  probes := ⟨fun _ _ => rfl, trivial⟩
  probeTag := fun n hn => absurd rfl hn
  total := by simp [initial, freshUnit]

end Config
end VirtioScsi
