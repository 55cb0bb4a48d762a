import VirtioScsi.BufferExclusion
import VirtioScsi.SlotBooks
import VirtioScsi.UnitChains

/-!
# The interrupt mask

The interrupt handler signals the units in `active_units_mask`.  A unit's bit
is set by `Submit` and `DoIO`, and cleared when its `inflight_count` is zero,
which does not count the chain of a `DoIO`.
-/

namespace VirtioScsi
namespace Config

open RequestQueue

variable {s s' : Config} {t u v : UnitNum} {e : Event} {ch : Choice} {r : IORequest}
  {sl : Slot} {i : ℕ} {p : Pc}

/-! ## The mask -/

/-- The interrupt handler signals unit `u`. -/
def Active (s : Config) (u : UnitNum) : Prop :=
  s.activeUnitsMask.getLsbD u.val = true

instance Active.decidable (s : Config) (u : UnitNum) : Decidable (s.Active u) :=
  inferInstanceAs (Decidable (_ = _))

theorem getLsbD_unitBit (u v : UnitNum) : (unitBit u).getLsbD v.val = decide (v = u) := by
  revert u v
  decide

theorem active_setActive : (s.setActive u).Active v ↔ v = u ∨ s.Active v := by
  unfold Active setActive
  dsimp only
  rw [BitVec.getLsbD_or, getLsbD_unitBit, Bool.or_eq_true, decide_eq_true_iff, or_comm]

theorem active_clearActive : (s.clearActive u).Active v ↔ s.Active v ∧ v ≠ u := by
  unfold Active clearActive
  dsimp only
  rw [BitVec.getLsbD_and, BitVec.getLsbD_not, getLsbD_unitBit, decide_eq_true v.isLt]
  simp

/-- What a step does to the mask and to the counters of the units. -/
inductive MaskStep (s : Config) (e : Event) (s' : Config) : Prop
  | same (hactive : ∀ v, s'.Active v ↔ s.Active v)
      (hcount : ∀ v, (s'.unit v).inflightCount = (s.unit v).inflightCount)
  | counted (u : UnitNum) (hactive : ∀ v, s'.Active v ↔ v = u ∨ s.Active v)
      (hcount : ∀ v, v ≠ u → (s'.unit v).inflightCount = (s.unit v).inflightCount)
  | marked (u : UnitNum) (ch : Choice) (call : SyncCall) (he : e = .task u ch)
      (hpc : s.pc u = .sync call .mark) (hactive : ∀ v, s'.Active v ↔ v = u ∨ s.Active v)
      (hcount : ∀ v, (s'.unit v).inflightCount = (s.unit v).inflightCount)
  | released (t : UnitNum) (ch : Choice) (caller : Option SyncCall) (c : Completion)
      (cu : UnitNum) (cs : Slot) (r : IORequest) (err : Int) (actual : BitVec 32)
      (he : e = .task t ch) (hpc : s.pc t = .handle caller c (.release cu cs r err actual))
      (hactive : ∀ v, s'.Active v ↔
        s.Active v ∧ ((s.unit cu).inflightCount = 1 → v ≠ cu))
      (hcount : ∀ v, (s'.unit v).inflightCount =
        if v = cu then (s.unit cu).inflightCount - 1 else (s.unit v).inflightCount)
  | left (u : UnitNum) (ch : Choice) (call : SyncCall) (result : Int) (he : e = .task u ch)
      (hpc : s.pc u = .sync call (.leave result))
      (hactive : ∀ v, s'.Active v ↔
        s.Active v ∧ ((s.unit u).inflightCount = 0 → v ≠ u))
      (hcount : ∀ v, (s'.unit v).inflightCount = (s.unit v).inflightCount)

theorem count_setUnit {d : DevUnit} (hd : d.inflightCount = (s.unit u).inflightCount) :
    ((s.setUnit u d).unit v).inflightCount = (s.unit v).inflightCount := by
  by_cases hv : v = u
  · subst hv
    simpa [setUnit] using hd
  · simp [setUnit, hv]

theorem Move.mask (hm : s.Move e s') : MaskStep s e s' := by
  cases hm with
  | quiet u ch s' hq => cases hq <;> exact .same (fun _ => Iff.rfl) fun _ => rfl
  | stash u ch caller c hpc =>
      unfold stashCookie
      split
      · exact .same (fun _ => Iff.rfl) fun _ => rfl
      · exact .same (fun _ => Iff.rfl) fun v => count_setUnit (s := s) (by rfl)
  | release u ch caller c cu cs r err actual hpc hlock =>
      refine .released u ch caller c cu cs r err actual rfl hpc (fun v => ?_) fun v => ?_
      · unfold releaseSlot
        dsimp only
        split
        · next hone =>
          rw [show ((clearActive _ cu).goto u _).Active v ↔ (clearActive _ cu).Active v
            from Iff.rfl, active_clearActive]
          simp [hone, Active, setUnit]
        · next hne => simp [hne, Active, setUnit, goto]
      · unfold releaseSlot
        dsimp only
        by_cases hv : v = cu
        · split <;> simp [hv, goto, setUnit, clearActive]
        · split <;> simp [hv, goto, setUnit, clearActive]
  | leave u ch call result hpc hlock =>
      refine .left u ch call result rfl hpc (fun v => ?_) fun v => ?_
      · split
        · next hzero =>
          rw [show ((s.clearActive u).goto u (returnPc call result)).Active v ↔
            (s.clearActive u).Active v from Iff.rfl, active_clearActive]
          simp [hzero]
        · next hne => simp [hne, Active, goto]
      · split <;> rfl
  | account u ch r sl hpc =>
      refine .counted u (fun v => ?_) fun v hv => ?_
      · exact active_setActive
      · simp [submitAccount, setActive, setUnit, goto, hv]
  | mark u ch call hpc =>
      refine .marked u ch call rfl hpc (fun v => ?_) fun v => rfl
      exact active_setActive
  | pick u ch call c hpc =>
      exact .same (fun _ => Iff.rfl) fun v => count_setUnit (s := s) (by rfl)
  | pop u ch r sl hpc =>
      exact .same (fun _ => Iff.rfl) fun v => count_setUnit (s := s) (by rfl)
  | giveBack u ch r sl err hpc =>
      exact .same (fun _ => Iff.rfl) fun v => count_setUnit (s := s) (by rfl)
  | fill u ch r sl sg hpc =>
      exact .same (fun _ => Iff.rfl) fun v => count_setUnit (s := s) (by rfl)
  | addFailed u ch r sl sg hpc =>
      exact .same (fun _ => Iff.rfl) fun v => count_setUnit (s := s) (by rfl)
  | add u ch r sl sg q' hpc =>
      exact .same (fun _ => Iff.rfl) fun v => count_setUnit (s := s) (by rfl)
  | _ => exact .same (fun _ => Iff.rfl) fun _ => rfl

/-- The unit whose bit a step clears: its last slot in flight is released, or
its `DoIO` returns with no slot in flight. -/
def clearsBit (s : Config) : Event → Option UnitNum
  | .task t _ =>
      match s.pc t with
      | .handle _ _ (.release cu _ _ _ _) =>
          if (s.unit cu).inflightCount = 1 then some cu else none
      | .sync _ (.leave _) => if (s.unit t).inflightCount = 0 then some t else none
      | _ => none
  | _ => none

theorem MaskStep.active (h : MaskStep s e s') (hv : s.Active v) :
    s'.Active v ∨ s.clearsBit e = some v := by
  cases h with
  | same hactive hcount => exact .inl ((hactive v).mpr hv)
  | counted u hactive hcount => exact .inl ((hactive v).mpr (.inr hv))
  | marked u ch call he hpc hactive hcount => exact .inl ((hactive v).mpr (.inr hv))
  | released t ch caller c cu cs r err actual he hpc hactive hcount =>
      by_cases hclear : (s.unit cu).inflightCount = 1 ∧ v = cu
      · right
        simp [he, clearsBit, hpc, hclear.1, hclear.2]
      · exact .inl ((hactive v).mpr ⟨hv, fun hone hcu => hclear ⟨hone, hcu⟩⟩)
  | left u ch call result he hpc hactive hcount =>
      by_cases hclear : (s.unit u).inflightCount = 0 ∧ v = u
      · right
        simp [he, clearsBit, hpc, hclear.1, hclear.2]
      · exact .inl ((hactive v).mpr ⟨hv, fun hzero hu => hclear ⟨hzero, hu⟩⟩)

theorem MaskStep.counted_active (h : MaskStep s e s')
    (hbefore : 0 < (s.unit v).inflightCount → s.Active v)
    (hv : 0 < (s'.unit v).inflightCount) : s'.Active v := by
  cases h with
  | same hactive hcount => exact (hactive v).mpr (hbefore (hcount v ▸ hv))
  | counted u hactive hcount =>
      refine (hactive v).mpr ?_
      by_cases hu : v = u
      · exact .inl hu
      · exact .inr (hbefore (hcount v hu ▸ hv))
  | marked u ch call he hpc hactive hcount =>
      exact (hactive v).mpr (.inr (hbefore (hcount v ▸ hv)))
  | released t ch caller c cu cs r err actual he hpc hactive hcount =>
      rw [hcount v] at hv
      refine (hactive v).mpr ?_
      by_cases hcu : v = cu
      · subst hcu
        rw [if_pos rfl] at hv
        refine ⟨hbefore (by omega), fun hone => ?_⟩
        omega
      · rw [if_neg hcu] at hv
        exact ⟨hbefore hv, fun _ => hcu⟩
  | left u ch call result he hpc hactive hcount =>
      rw [hcount v] at hv
      refine (hactive v).mpr ⟨hbefore hv, ?_⟩
      rintro hzero rfl
      omega

/-! ## Chains and slots -/

/-- What a step does to the chains and to the list of the submitted ones. -/
inductive ChainStep (s : Config) (e : Event) (s' : Config) : Prop
  | same (hlive : ∀ i, i ∈ s'.queue.hist.live → i ∈ s.queue.hist.live)
      (hadded : s'.queue.hist.added = s.queue.hist.added)
      (hsubmitted : s'.journal.submitted = s.journal.submitted)
  | submit (u : UnitNum) (ch : Choice) (r : IORequest) (sl : Slot) (sg : SgList)
      (he : e = .task u ch) (hpc : s.pc u = .submit (.add r sl sg))
      (hpc' : s'.pc u = .submit (.account r sl))
      (hlive : s'.queue.hist.live = s.queue.hist.live ++ [s.queue.hist.added.length])
      (hadded : s'.queue.hist.added =
        s.queue.hist.added ++ [(s.queue.vq.freeHead, .slot u sl)])
      (hsubmitted : s'.journal.submitted =
        s.journal.submitted ++ [⟨s.queue.hist.added.length, u, sl, r⟩])
      (hentry : (s'.unit u).inflight sl =
        { (s.unit u).inflight sl with serial := s.queue.hist.added.length })
  | sync (u : UnitNum) (call : SyncCall) (hpc' : s'.pc u = .sync call .mark)
      (hlive : s'.queue.hist.live = s.queue.hist.live ++ [s.queue.hist.added.length])
      (hadded : s'.queue.hist.added =
        s.queue.hist.added ++ [(s.queue.vq.freeHead, reqBuf u)])
      (hsubmitted : s'.journal.submitted = s.journal.submitted)
  | probe (n : ℕ)
      (hlive : s'.queue.hist.live = s.queue.hist.live ++ [s.queue.hist.added.length])
      (hadded : s'.queue.hist.added =
        s.queue.hist.added ++ [(s.queue.vq.freeHead, .temp n)])
      (hsubmitted : s'.journal.submitted = s.journal.submitted)

theorem ChainStep.of_take {q' : RequestQueue ReqBuf} {serial : ℕ} {x : BitVec 16 × ReqBuf}
    {len : BitVec 32} (htake : s.queue.TakenFrom q' serial x len) (hqueue : s'.queue = q')
    (hsubmitted : s'.journal.submitted = s.journal.submitted) : ChainStep s e s' := by
  refine .same ?_ (hqueue ▸ htake.added_eq) hsubmitted
  rw [hqueue, htake.hist, History.live_getBuf htake.published]
  exact fun i hi => (List.mem_filter.mp hi).1

theorem Move.chains (hm : s.Move e s') (hq : s.queue.Ok) : ChainStep s e s' := by
  obtain ⟨free, chain, hi⟩ := hq
  have hlive : ∀ {q' : RequestQueue ReqBuf} {b}, s.queue.AddedTo q' b →
      q'.hist.live = s.queue.hist.live ++ [s.queue.hist.added.length] := by
    intro q' b hadd
    rw [hadd.hist]
    exact History.live_addBuf hi.ledger _
  cases hm with
  | quiet u ch s' hq => cases hq <;> exact .same (fun _ => id) rfl rfl
  | take u ch caller serial x len q' hpc hlock htake => exact .of_take htake rfl rfl
  | takeOwn u ch call serial x len q' hpc hlock htake => exact .of_take htake rfl rfl
  | pollTake u ch call left serial x len q' hpc htake => exact .of_take htake rfl rfl
  | probeTake ch call serial x len q' p hrun hprobe htake => exact .of_take htake rfl rfl
  | stash u ch caller c hpc =>
      unfold stashCookie
      split <;> exact .same (fun _ => id) rfl rfl
  | release u ch caller c cu cs r err actual hpc hlock =>
      unfold releaseSlot
      dsimp only
      split <;> exact .same (fun _ => id) rfl rfl
  | leave u ch call result hpc hlock => split <;> exact .same (fun _ => id) rfl rfl
  | add u ch r sl sg q' hpc hlock hadd hq =>
      refine .submit u ch r sl sg rfl hpc goto_pc_self (hlive hadd) hadd.added_eq rfl ?_
      simp [goto, setInflight, setUnit]
  | sync u ch call sg q' hpc hlock hadd =>
      exact .sync u _ goto_pc_self (hlive hadd) hadd.added_eq rfl
  | probeAdd ch n tries q' hrun hprobe hadd =>
      exact .probe n (@hlive q' _ hadd) hadd.added_eq rfl
  | fetch q' hfetch =>
      obtain ⟨head, -, rfl, -⟩ := hi.fetch hfetch
      exact .same (fun _ => id) rfl rfl
  | complete i len r serial x q' hpending hcomplete hadded =>
      obtain ⟨_, _, -, hhist, -⟩ := hi.complete hcomplete
      refine .same ?_ ?_ rfl
      · dsimp only
        rw [hhist, History.live_complete hi.ledger]
        exact fun _ => id
      · dsimp only
        rw [hhist]
  | signal q' hsignal =>
      obtain ⟨-, raise, rfl, -⟩ := signal_cases hsignal
      exact .same (fun _ => id) rfl rfl
  | rest q' hrest =>
      obtain ⟨-, -, rfl⟩ := hi.rest hrest
      exact .same (fun _ => id) rfl rfl
  | _ => exact .same (fun _ => id) rfl rfl

theorem Move.filling_of (hm : s.Move e s') (h : (s'.standing v).filling = some sl) :
    (s.standing v).filling = some sl ∨ (s.unit v).freeHead = some sl := by
  by_cases hother : ∃ ch, e = .task v ch
  case neg =>
    rw [standing, hm.pc (not_exists.mp hother)] at h
    exact .inl h
  obtain ⟨ch, rfl⟩ := hother
  cases hm with
  | quiet _ _ _ hq =>
      rw [hq.same.1.standing] at h
      exact .inl h
  | pop _ _ r sl' hpc hlock hfree =>
      rw [standing, goto_pc_self] at h
      cases h
      exact .inr hfree
  | fillFailed _ _ r sl' hpc =>
      rw [standing, goto_pc_self] at h
      rw [standing_of hpc]
      exact .inl h
  | fill _ _ r sl' sg hpc hsg =>
      rw [standing, goto_pc_self] at h
      rw [standing_of hpc]
      exact .inl h
  | addFailed _ _ r sl' sg hpc hlock =>
      rw [standing, goto_pc_self] at h
      rw [standing_of hpc]
      exact .inl h
  | coalesce _ _ hpc =>
      rw [standing, Config.coalesce, goto_pc_self] at h
      split at h <;> cases h
  | account _ _ r sl' hpc =>
      rw [standing, submitAccount, goto_pc_self] at h
      cases h
  | mark _ _ call hpc =>
      rw [standing, doioMark, goto_pc_self] at h
      split at h <;> cases h
  | giveUp _ _ call hpc =>
      rw [standing, doioCheck, goto_pc_self] at h
      cases h
  | accept _ _ call c hpc =>
      rw [standing, doioCheck, goto_pc_self, doioOutcome_standing] at h
      cases h
  | leave _ _ call result hpc hlock =>
      rw [standing, goto_pc_self, returnPc_standing] at h
      cases h
  | _ =>
      rw [standing, goto_pc_self] at h
      cases h

/-! ## The invariant -/

def cookieOf (s : Config) (i : ℕ) : Option ReqBuf :=
  (s.queue.hist.added[i]?).map Prod.snd

/-- A chain that a `DoIO` of unit `u` added is outstanding. -/
def SyncOutstanding (s : Config) (u : UnitNum) : Prop :=
  ∃ i ∈ s.queue.hist.live, s.cookieOf i = some (reqBuf u) ∧
    ∀ x ∈ s.journal.submitted, x.serial ≠ i

instance SyncOutstanding.decidable (s : Config) (u : UnitNum) :
    Decidable (s.SyncOutstanding u) :=
  inferInstanceAs (Decidable (∃ i ∈ s.queue.hist.live, _))

/-- A slot that is released is in flight, and the device gave its chain back. -/
def ReleasesOwn (s : Config) : Event → Prop
  | .task t _ => ∀ x ∈ (s.pc t).releases,
      (s.books x.1).Counted x.2 ∧ ((s.unit x.1).inflight x.2).serial ∉ s.queue.hist.live
  | _ => True

/-- No bit is cleared while a chain of a `DoIO` of its unit is outstanding. -/
def ClearsIdle (s : Config) (e : Event) : Prop :=
  s.ReleasesOwn e ∧ ∀ u ∈ s.clearsBit e, ¬ s.SyncOutstanding u

instance ReleasesOwn.decidable (s : Config) : ∀ e, Decidable (s.ReleasesOwn e)
  | .task t _ => inferInstanceAs (Decidable (∀ x ∈ (s.pc t).releases, _))
  | .interrupt => isTrue trivial
  | .fetch => isTrue trivial
  | .complete _ _ _ => isTrue trivial
  | .signal => isTrue trivial
  | .rest => isTrue trivial
  | .putMsg _ _ => isTrue trivial
  | .probe _ => isTrue trivial
  | .start => isTrue trivial

instance ClearsIdle.decidable (s : Config) (e : Event) : Decidable (s.ClearsIdle e) :=
  inferInstanceAs (Decidable (_ ∧ _))

theorem ReleasesOwn.counted (h : s.ReleasesOwn e) : s.ReleasesCounted e := by
  cases e with
  | task t ch => exact fun x hx => (h x hx).1
  | _ => trivial

structure MaskKept (s : Config) : Prop where
  books : s.Books
  cookies : ∀ x ∈ s.journal.submitted, s.cookieOf x.serial = some (.slot x.unit x.slot)
  unsubmitted : ∀ i u sl, s.cookieOf i = some (.slot u sl) →
    (∃ x ∈ s.journal.submitted, x.serial = i) ∨ sl = 0
  slots : ∀ x ∈ s.journal.submitted, x.serial ∈ s.queue.hist.live →
    ((s.unit x.unit).inflight x.slot).cookie ≠ none ∧
      ((s.unit x.unit).inflight x.slot).serial = x.serial ∧
      (s.standing x.unit).filling ≠ some x.slot
  counted : ∀ u, 0 < (s.unit u).inflightCount → s.Active u
  sync : ∀ u, s.SyncOutstanding u → (∃ call, s.pc u = .sync call .mark) ∨ s.Active u

theorem cookieOf_append {x : BitVec 16 × ReqBuf}
    (hadded : s'.queue.hist.added = s.queue.hist.added ++ [x]) :
    s'.cookieOf i = if i = s.queue.hist.added.length then some x.2 else s.cookieOf i := by
  unfold cookieOf
  rw [hadded, List.getElem?_append]
  rcases Nat.lt_trichotomy i s.queue.hist.added.length with hlt | rfl | hgt
  · rw [if_pos hlt, if_neg hlt.ne]
  · simp
  · rw [if_neg (Nat.not_lt.mpr hgt.le), if_neg hgt.ne', List.getElem?_eq_none hgt.le]
    rw [List.getElem?_eq_none (by simp; omega)]

theorem length_of_cookieOf {b : ReqBuf} (h : s.cookieOf i = some b) :
    i < s.queue.hist.added.length := by
  obtain ⟨x, hx, -⟩ := Option.map_eq_some_iff.mp h
  exact (List.getElem?_eq_some_iff.mp hx).1

namespace MaskKept

theorem cookies_move (h : s.MaskKept) (hm : s.Move e s') {x : Submission}
    (hx : x ∈ s'.journal.submitted) : s'.cookieOf x.serial = some (.slot x.unit x.slot) := by
  have hkeep : ∀ {y}, s'.queue.hist.added = s.queue.hist.added ++ [y] →
      x ∈ s.journal.submitted → s'.cookieOf x.serial = some (.slot x.unit x.slot) := by
    intro y hadded hold
    have hcookie := h.cookies x hold
    rw [cookieOf_append hadded, if_neg (length_of_cookieOf hcookie).ne, hcookie]
  cases hm.chains h.books.fit.queue with
  | same hlive hadded hsubmitted =>
      rw [cookieOf, hadded]
      exact h.cookies x (hsubmitted ▸ hx)
  | submit u ch r sl sg he hpc hpc' hlive hadded hsubmitted hentry =>
      rw [hsubmitted, List.mem_append, List.mem_singleton] at hx
      rcases hx with hold | rfl
      · exact hkeep hadded hold
      · rw [cookieOf_append hadded, if_pos rfl]
  | sync u call hpc' hlive hadded hsubmitted => exact hkeep hadded (hsubmitted ▸ hx)
  | probe n hlive hadded hsubmitted => exact hkeep hadded (hsubmitted ▸ hx)

theorem unsubmitted_move (h : s.MaskKept) (hm : s.Move e s')
    (hi : s'.cookieOf i = some (.slot u sl)) :
    (∃ x ∈ s'.journal.submitted, x.serial = i) ∨ sl = 0 := by
  have hold : s.cookieOf i = some (.slot u sl) →
      (∃ x ∈ s'.journal.submitted, x.serial = i) ∨ sl = 0 := by
    intro hcookie
    refine (h.unsubmitted i u sl hcookie).imp_left ?_
    exact fun ⟨x, hx, hserial⟩ => ⟨x, hm.submitted.subset hx, hserial⟩
  cases hm.chains h.books.fit.queue with
  | same hlive hadded hsubmitted =>
      rw [cookieOf, hadded] at hi
      exact hold hi
  | submit v ch r sl' sg he hpc hpc' hlive hadded hsubmitted hentry =>
      rw [cookieOf_append hadded] at hi
      split at hi
      · next hnew =>
        left
        rw [hsubmitted]
        exact ⟨_, List.mem_append_right _ (List.mem_singleton_self _), hnew.symm⟩
      · exact hold hi
  | sync v call hpc' hlive hadded hsubmitted =>
      rw [cookieOf_append hadded] at hi
      split at hi
      · cases hi
        exact .inr rfl
      · exact hold hi
  | probe n hlive hadded hsubmitted =>
      rw [cookieOf_append hadded] at hi
      split at hi
      · cases hi
      · exact hold hi

theorem slot_kept (h : s.MaskKept) (hguard : s.ReleasesOwn e) (hm : s.Move e s')
    {x : Submission} (hx : x ∈ s.journal.submitted) (hlive : x.serial ∈ s.queue.hist.live) :
    ((s'.unit x.unit).inflight x.slot).cookie ≠ none ∧
      ((s'.unit x.unit).inflight x.slot).serial = x.serial ∧
      (s'.standing x.unit).filling ≠ some x.slot := by
  obtain ⟨hcookie, hserial, hfilling⟩ := h.slots x hx hlive
  have hentry : (s'.unit x.unit).inflight x.slot = (s.unit x.unit).inflight x.slot := by
    have hslot := hm.slot x.unit x.slot
    generalize (s'.unit x.unit).inflight x.slot = entry at hslot
    cases hslot with
    | keep => rfl
    | marked ch r sg he hpc => exact absurd (by rw [standing_of hpc]; rfl) hfilling
    | unmarked ch r sg he hpc => exact absurd (by rw [standing_of hpc]; rfl) hfilling
    | numbered ch r sg he hpc => exact absurd (by rw [standing_of hpc]; rfl) hfilling
    | released t ch caller c r err actual he hpc =>
        subst he
        have howned := (hguard (x.unit, x.slot) (by rw [hpc]; rfl)).2
        exact absurd (hserial ▸ hlive) howned
  refine ⟨hentry ▸ hcookie, hentry ▸ hserial, fun hnew => ?_⟩
  rcases hm.filling_of hnew with hold | hhead
  · exact hfilling hold
  · exact hcookie ((h.books.units x.unit).head_free hhead).1

theorem slots_move (h : s.MaskKept) (hguard : s.ReleasesOwn e) (hm : s.Move e s')
    {x : Submission} (hx : x ∈ s'.journal.submitted) (hlive' : x.serial ∈ s'.queue.hist.live) :
    ((s'.unit x.unit).inflight x.slot).cookie ≠ none ∧
      ((s'.unit x.unit).inflight x.slot).serial = x.serial ∧
      (s'.standing x.unit).filling ≠ some x.slot := by
  -- The chain that is added is not one of an earlier request.
  have hold : s'.queue.hist.live = s.queue.hist.live ++ [s.queue.hist.added.length] →
      x ∈ s.journal.submitted → x.serial ∈ s.queue.hist.live := by
    intro hlive hmem
    rw [hlive, List.mem_append, List.mem_singleton] at hlive'
    exact hlive'.resolve_right (length_of_cookieOf (h.cookies x hmem)).ne
  cases hm.chains h.books.fit.queue with
  | same hlive hadded hsubmitted =>
      exact h.slot_kept hguard hm (hsubmitted ▸ hx) (hlive _ hlive')
  | submit u ch r sl sg he hpc hpc' hlive hadded hsubmitted hentry =>
      rw [hsubmitted, List.mem_append, List.mem_singleton] at hx
      rcases hx with hmem | rfl
      · exact h.slot_kept hguard hm hmem (hold hlive hmem)
      · have hbooks := h.books.units u
        have hst := congrArg Standing.slots (standing_of hpc)
        have hcookie := (hbooks.entry_of_marked (r := r)
          (by rw [Config.books, hst]; rfl) (by rw [Config.books, hst]; rfl)).2
        rw [hentry, standing_of hpc']
        exact ⟨hcookie, rfl, by simp [Pc.standing]⟩
  | sync u call hpc' hlive hadded hsubmitted =>
      have hmem : x ∈ s.journal.submitted := hsubmitted ▸ hx
      exact h.slot_kept hguard hm hmem (hold hlive hmem)
  | probe n hlive hadded hsubmitted =>
      have hmem : x ∈ s.journal.submitted := hsubmitted ▸ hx
      exact h.slot_kept hguard hm hmem (hold hlive hmem)

theorem syncOutstanding_of (h : s.MaskKept) (hm : s.Move e s') (hv : s'.SyncOutstanding v) :
    s.SyncOutstanding v ∨ ∃ call, s'.pc v = .sync call .mark := by
  obtain ⟨i, hi, hcookie, hne⟩ := hv
  have hsub : ∀ x ∈ s.journal.submitted, x.serial ≠ i :=
    fun x hx => hne x (hm.submitted.subset hx)
  have hold : ∀ {y}, s'.queue.hist.added = s.queue.hist.added ++ [y] →
      i ∈ s.queue.hist.live → s.SyncOutstanding v := by
    intro y hadded hlive
    rw [cookieOf_append hadded, if_neg (History.mem_live.mp hlive).1.ne] at hcookie
    exact ⟨i, hlive, hcookie, hsub⟩
  cases hm.chains h.books.fit.queue with
  | same hlive hadded hsubmitted =>
      rw [cookieOf, hadded] at hcookie
      exact .inl ⟨i, hlive i hi, hcookie, hsub⟩
  | submit u ch r sl sg he hpc hpc' hlive hadded hsubmitted hentry =>
      rw [hlive, List.mem_append, List.mem_singleton] at hi
      rcases hi with hi | rfl
      · exact .inl (hold hadded hi)
      · refine absurd rfl (hne ⟨s.queue.hist.added.length, u, sl, r⟩ ?_)
        rw [hsubmitted]
        exact List.mem_append_right _ (List.mem_singleton_self _)
  | sync u call hpc' hlive hadded hsubmitted =>
      rw [hlive, List.mem_append, List.mem_singleton] at hi
      rcases hi with hi | rfl
      · exact .inl (hold hadded hi)
      · rw [cookieOf_append hadded, if_pos rfl] at hcookie
        cases hcookie
        exact .inr ⟨call, hpc'⟩
  | probe n hlive hadded hsubmitted =>
      rw [hlive, List.mem_append, List.mem_singleton] at hi
      rcases hi with hi | rfl
      · exact .inl (hold hadded hi)
      · rw [cookieOf_append hadded, if_pos rfl] at hcookie
        cases hcookie

/-- A synchronous caller with a request outstanding is in the mask or about to enter it. -/
theorem sync_step (h : s.MaskKept) (hguard : s.ClearsIdle e) (hm : s.Move e s')
    (hstep : s.step e = some s') (hv : s'.SyncOutstanding v) :
    (∃ call, s'.pc v = .sync call .mark) ∨ s'.Active v := by
  rcases h.syncOutstanding_of hm hv with hold | hnew
  · rcases h.sync v hold with ⟨call, hpc⟩ | hactive
    · by_cases hother : ∃ ch, e = .task v ch
      · obtain ⟨ch, rfl⟩ := hother
        right
        simp only [Config.step, taskStep, hpc, doioStep] at hstep
        split at hstep
        · cases hstep
          exact active_setActive.mpr (.inl rfl)
        · cases hstep
      · exact .inl ⟨call, by rw [hm.pc (not_exists.mp hother), hpc]⟩
    · refine .inr ((hm.mask.active hactive).resolve_right fun hclear => ?_)
      exact hguard.2 v hclear hold
  · exact .inl hnew

theorem step (h : s.MaskKept) (hguard : s.ClearsIdle e) (hstep : s.step e = some s') :
    s'.MaskKept := by
  have hm := h.books.fit.move_of_step hstep
  exact
    { books := h.books.move hguard.1.counted hm
      cookies := fun _ => h.cookies_move hm
      unsubmitted := fun _ _ _ => h.unsubmitted_move hm
      slots := fun _ => h.slots_move hguard.1 hm
      counted := fun u => hm.mask.counted_active (h.counted u)
      sync := fun _ => h.sync_step hguard hm hstep }

end MaskKept

theorem maskKept_initial (setup : Setup) : (initial setup).MaskKept where
  books := books_initial setup
  cookies := by simp [initial]
  unsubmitted := by simp [cookieOf, initial, RequestQueue.initial]
  slots := by simp [initial]
  counted := by simp [initial, freshUnit]
  sync := by
    rintro u ⟨i, hi, hcookie, -⟩
    simp [cookieOf, initial, RequestQueue.initial] at hcookie

/-- The mask invariant holds in every run whose clearing steps meet the condition. -/
theorem maskKept_run {setup : Setup} {events : List Event}
    (hobeys : GuardedRun.Obeys Config.step ClearsIdle (initial setup) events)
    (hrun : GuardedRun.run Config.step (initial setup) events = some s) : s.MaskKept :=
  GuardedRun.invariant (fun _ _ _ h hguard hstep => h.step hguard hstep)
    hobeys (maskKept_initial setup) hrun

/-! ## Every waiting unit is signalled -/

/-- Unit `u` has an outstanding chain: of a pipeline slot, or of a `DoIO`. -/
def Waits (s : Config) (u : UnitNum) : Prop :=
  ∃ i ∈ s.queue.hist.live, ∃ b, s.cookieOf i = some b ∧ b.ofUnit u = true

/-- A unit that waits for a completion is in the mask. -/
theorem MaskKept.active (h : s.MaskKept) (hlock : s.ioLock = none) (hu : s.Waits u) :
    s.Active u := by
  obtain ⟨i, hi, b, hb, hunit⟩ := hu
  cases b with
  | temp n => cases hunit
  | slot v sl =>
      obtain rfl : v = u := of_decide_eq_true hunit
      by_cases hsub : ∃ x ∈ s.journal.submitted, x.serial = i
      · obtain ⟨x, hx, rfl⟩ := hsub
        have hcookie := h.cookies x hx
        rw [hb] at hcookie
        cases hcookie
        obtain ⟨hmarked, -, hfilling⟩ := h.slots x hx hi
        refine h.counted x.unit ?_
        rw [h.books.inflightCount_eq hlock]
        exact Finset.card_pos.mpr ⟨x.slot, mem_accepted.mpr ⟨hmarked, hfilling⟩⟩
      · obtain rfl := (h.unsubmitted i v sl hb).resolve_left hsub
        have hsync : s.SyncOutstanding v :=
          ⟨i, hi, hb, fun x hx hserial => hsub ⟨x, hx, hserial⟩⟩
        refine (h.sync v hsync).resolve_left ?_
        rintro ⟨call, hpc⟩
        have hlocked := (h.books.locks v).mp (by rw [standing_of hpc]; rfl)
        rw [hlock] at hlocked
        cases hlocked

/-- A step that clears the bit of a unit while the chain of its `DoIO` is
outstanding. -/
theorem waits_of_clearsBit (hstep : s.step e = some s') (hclear : s.clearsBit e = some u)
    (hsync : s.SyncOutstanding u) : s'.ioLock = none ∧ s'.Waits u ∧ ¬ s'.Active u := by
  obtain ⟨i, hi, hcookie, -⟩ := hsync
  have hwaits : s.Waits u := ⟨i, hi, _, hcookie, by simp [reqBuf, ReqBuf.ofUnit]⟩
  cases e with
  | task t ch =>
      simp only [clearsBit] at hclear
      split at hclear
      · next caller c cu cs r err actual hpc =>
        split at hclear
        · next hone =>
          cases hclear
          simp only [step, taskStep, hpc, handleTaken] at hstep
          split at hstep
          · split at hstep
            · next hlock =>
              cases hstep
              unfold releaseSlot
              dsimp only
              rw [if_pos hone]
              refine ⟨hlock, hwaits, fun hactive => ?_⟩
              exact (active_clearActive.mp hactive).2 rfl
            · cases hstep
          · cases hstep
        · cases hclear
      · next call result hpc =>
        split at hclear
        · next hzero =>
          cases hclear
          simp only [step, taskStep, hpc, doioStep, doioLeave, if_pos hzero] at hstep
          split at hstep
          · split at hstep
            · next hlock =>
              cases hstep
              refine ⟨hlock, hwaits, fun hactive => ?_⟩
              exact (active_clearActive.mp hactive).2 rfl
            · cases hstep
          · cases hstep
        · cases hclear
      · cases hclear
  | _ => cases hclear

/-- With the lock free the interrupt handler signals every unit that has an
outstanding chain, in every run in which no bit is cleared while a chain of a
`DoIO` is outstanding; a step that does so leaves a unit unsignalled. -/
theorem mask_covers (setup : Setup) (events : List Event) (s : Config)
    (hrun : GuardedRun.run Config.step (initial setup) events = some s)
    (hobeys : GuardedRun.Obeys Config.step ClearsIdle (initial setup) events) :
    (s.ioLock = none → ∀ u, s.Waits u → s.Active u) ∧
      ∀ e s' u, s.step e = some s' → s.clearsBit e = some u → s.SyncOutstanding u →
        s'.ioLock = none ∧ s'.Waits u ∧ ¬ s'.Active u :=
  ⟨fun hlock _ => (maskKept_run hobeys hrun).active hlock,
    fun _ _ _ => waits_of_clearsBit⟩

/-- In a geometry command after a read, unit 0 waits and is in the mask. -/
theorem mask_covers_readThenGeometry :
    ∃ s, GuardedRun.run Config.step (initial (sampleSetup false true))
        (readThenGeometry ++ taskSteps 0 3) = some s ∧ s.Waits 0 ∧ s.Active 0 := by
  have hend : (GuardedRun.run Config.step (initial (sampleSetup false true))
      (readThenGeometry ++ taskSteps 0 3)).map
        (fun s => decide (s.ioLock = none ∧ 1 ∈ s.queue.hist.live ∧
          s.cookieOf 1 = some (reqBuf 0))) = some true := by
    decide +kernel
  have hobeys : GuardedRun.Obeys Config.step ClearsIdle
      (initial (sampleSetup false true)) (readThenGeometry ++ taskSteps 0 3) := by
    decide +kernel
  obtain ⟨s, hrun, hs⟩ := Option.map_eq_some_iff.mp hend
  obtain ⟨hlock, hlive, hcookie⟩ := of_decide_eq_true hs
  have hwaits : s.Waits 0 := ⟨1, hlive, _, hcookie, by decide⟩
  exact ⟨s, hrun, hwaits, (mask_covers _ _ s hrun hobeys).1 hlock 0 hwaits⟩

/-- Two reads are in flight; the first is answered, and then the geometry is
asked for. -/
def geometryAfterFirstRead : List Event :=
  [Event.start, .putMsg 0 (sampleRead 1), .putMsg 0 (sampleRead 2)] ++ taskSteps 0 13 ++
    [Event.fetch, .fetch, .complete 0 620 goodResponse, .signal, .interrupt] ++ taskSteps 0 7 ++
    [Event.putMsg 0 (sampleGeometryRequest 3)] ++ taskSteps 0 2 ++
    [Event.task 0 { call := some (false, 8) }] ++ taskSteps 0 4

/-- The geometry request takes the completion of the second read, releases the
last slot in flight, and clears the bit of its own unit. -/
theorem geometryAfterFirstRead_not_covered :
    ∃ s, GuardedRun.run Config.step (initial (sampleSetup false true))
        (geometryAfterFirstRead ++
          [.complete 0 620 goodResponse, .signal, .interrupt] ++ taskSteps 0 4) = some s ∧
      s.ioLock = none ∧ s.Waits 0 ∧ ¬ s.Active 0 := by
  have hend : (GuardedRun.run Config.step (initial (sampleSetup false true))
      (geometryAfterFirstRead ++
        [.complete 0 620 goodResponse, .signal, .interrupt] ++ taskSteps 0 4)).map
        (fun s => decide (s.ioLock = none ∧ (2 ∈ s.queue.hist.live ∧
          s.cookieOf 2 = some (reqBuf 0)) ∧ ¬ s.Active 0)) = some true := by
    decide +kernel
  obtain ⟨s, hrun, hs⟩ := Option.map_eq_some_iff.mp hend
  obtain ⟨hlock, ⟨hlive, hcookie⟩, hactive⟩ := of_decide_eq_true hs
  exact ⟨s, hrun, hlock, ⟨2, hlive, _, hcookie, by decide⟩, hactive⟩

end Config
end VirtioScsi
