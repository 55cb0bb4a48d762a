import VirtioScsi.Completions
import VirtioScsi.OwnershipMoves
import VirtioScsi.WorkBound

/-!
# Where the requests are

A request that was put to a unit is in a port, in the hands of a task, in a slot or
replied, as often as it was put.  A slot that is filled stands for its request from
the moment it is marked; a completion in hand stands for it only when the slot is
released.
-/

namespace VirtioScsi

/-! ## Counting -/

def IORequest.share (r : IORequest) (o : Option IORequest) : ℕ :=
  if o = some r then 1 else 0

@[simp] theorem IORequest.share_none (r : IORequest) : r.share none = 0 := rfl

/-- The request that a task replies itself, as things stand. -/
def Pc.own : Pc → Option IORequest
  | .submit (.add _ _ _) => none
  | p => p.request

def Pc.share (r : IORequest) : Pc → ℕ
  | .handle caller _ (.reply r' _ _) => r.share (caller.map SyncCall.ioreq) + r.share (some r')
  | p => r.share p.own

theorem commandPc_share (r r' : IORequest) : (commandPc r').share r = r.share (some r') := by
  unfold commandPc
  cases r'.command <;> rfl

theorem returnPc_share (call : SyncCall) (result : Int) (r : IORequest) :
    (returnPc call result).share r = r.share (some call.ioreq) := by
  unfold returnPc
  split_ifs <;> rfl

def DevUnit.share (r : IORequest) (d : DevUnit) : ℕ :=
  ∑ sl, r.share (d.inflight sl).ioreq

theorem DevUnit.share_congr {d d' : DevUnit} (r : IORequest) (h : d'.inflight = d.inflight) :
    d'.share r = d.share r := by
  unfold share
  rw [h]

theorem DevUnit.share_update (d : DevUnit) (r : IORequest) {d' : DevUnit} {sl : Slot}
    {a : Inflight} (h : d'.inflight = Function.update d.inflight sl a) :
    d'.share r + r.share (d.inflight sl).ioreq = d.share r + r.share a.ioreq := by
  have hsum := sum_update_add (fun sl' => r.share (d.inflight sl').ioreq) sl (r.share a.ioreq)
  have hcomp : (fun sl' => r.share (d'.inflight sl').ioreq) =
      Function.update (fun sl' => r.share (d.inflight sl').ioreq) sl (r.share a.ioreq) := by
    funext sl'
    rw [h]
    exact Function.apply_update (fun _ b => r.share (Inflight.ioreq b)) d.inflight sl a sl'
  unfold share
  rw [hcomp]
  exact hsum

namespace Config

variable {s s₁ s' : Config} {u v : UnitNum} {p p₀ : Pc} {ch : Choice} {e : Event}
  {r : IORequest} {requests : List IORequest} {sl : Slot}

/-- What there is of a request besides the hands of the tasks. -/
def stock (s : Config) (r : IORequest) : ℕ :=
  (∑ u, (s.port u).count r) + (∑ u, (s.unit u).share r) + s.replies r

def share (s : Config) (r : IORequest) : ℕ :=
  (∑ u, (s.pc u).share r) + s.stock r

theorem stock_congr (hport : s₁.port = s.port) (hunit : s₁.unit = s.unit)
    (hreplied : s₁.journal.replied = s.journal.replied) (r : IORequest) :
    s₁.stock r = s.stock r := by
  unfold stock replies
  rw [hport, hunit, hreplied]

/-- A task gives what it has to the place it goes to and to the stock. -/
theorem balances (hpcs : s₁.pc = s.pc) (hpc : s.pc u = p₀)
    (hstock : p.share r + s₁.stock r = p₀.share r + s.stock r) :
    (s₁.goto u p).share r = s.share r := by
  have hsum := sum_comp_update (Pc.share r) s.pc u p
  have hstay : (s₁.goto u p).stock r = s₁.stock r := stock_congr rfl rfl rfl r
  have hplaces : (s₁.goto u p).pc = Function.update s.pc u p := by
    unfold goto
    rw [hpcs]
  rw [hpc] at hsum
  unfold share
  rw [hstay, hplaces]
  omega

/-- A task goes on with what it has. -/
theorem carries (hpcs : s₁.pc = s.pc) (hport : s₁.port = s.port) (hunit : s₁.unit = s.unit)
    (hreplied : s₁.journal.replied = s.journal.replied) (hpc : s.pc u = p₀)
    (hp : p.share r = p₀.share r) : (s₁.goto u p).share r = s.share r := by
  refine balances hpcs hpc ?_
  rw [hp, stock_congr hport hunit hreplied]

/-- One unit changes. -/
theorem stock_unit (hport : s₁.port = s.port) {d : DevUnit}
    (hunit : s₁.unit = Function.update s.unit u d)
    (hreplied : s₁.journal.replied = s.journal.replied) (r : IORequest) :
    s₁.stock r + (s.unit u).share r = s.stock r + d.share r := by
  have hsum := sum_comp_update (DevUnit.share r) s.unit u d
  unfold stock replies
  rw [hport, hunit, hreplied]
  omega

theorem stock_setUnit {d : DevUnit} (hd : d.inflight = (s.unit u).inflight) (r : IORequest) :
    (s.setUnit u d).stock r = s.stock r := by
  have hunit := @stock_unit s (s.setUnit u d) u rfl d rfl rfl r
  rw [DevUnit.share_congr r hd] at hunit
  omega

theorem stock_setInflight (s : Config) (u : UnitNum) (sl : Slot) (a : Inflight) (r : IORequest) :
    (s.setInflight u sl a).stock r + r.share ((s.unit u).inflight sl).ioreq =
      s.stock r + r.share a.ioreq := by
  have hslot := @DevUnit.share_update (s.unit u) r { s.unit u with
    inflight := Function.update (s.unit u).inflight sl a } sl a rfl
  have hunit := @stock_unit s (s.setInflight u sl a) u rfl { s.unit u with
    inflight := Function.update (s.unit u).inflight sl a } rfl rfl r
  omega

/-- A task gives what it has to a slot, or takes it back. -/
theorem marks {a : Inflight} (hpcs : s₁.pc = s.pc) (hport : s₁.port = s.port)
    (hunit : s₁.unit = s.unit) (hreplied : s₁.journal.replied = s.journal.replied)
    (hpc : s.pc u = p₀) (hp : p.share r + r.share a.ioreq =
      p₀.share r + r.share ((s.unit u).inflight sl).ioreq) :
    ((s₁.setInflight u sl a).goto u p).share r = s.share r := by
  have hstock := stock_setInflight s₁ u sl a r
  rw [stock_congr hport hunit hreplied, hunit] at hstock
  have hplaces : (s₁.setInflight u sl a).pc = s₁.pc := rfl
  refine balances (hplaces.trans hpcs) hpc ?_
  omega

theorem stock_stashCookie (s : Config) (c : Completion) (r : IORequest) :
    (s.stashCookie c).stock r = s.stock r := by
  unfold stashCookie
  split
  · rfl
  · next v _ => exact @stock_setUnit s v { s.unit v with doioPending := some c } rfl r

/-- A unit whose slot was released. -/
def released (s : Config) (cu : UnitNum) (cs : Slot) : DevUnit :=
  { s.unit cu with
    inflight := Function.update (s.unit cu).inflight cs
      { (s.unit cu).inflight cs with ioreq := none, cookie := none }
    inflightNext := Function.update (s.unit cu).inflightNext cs (s.unit cu).freeHead
    freeHead := some cs
    inflightCount := (s.unit cu).inflightCount - 1 }

theorem stock_releaseSlot (s : Config) (cu : UnitNum) (cs : Slot) (r : IORequest) :
    (s.releaseSlot cu cs).stock r + r.share ((s.unit cu).inflight cs).ioreq = s.stock r := by
  have hset := @stock_unit s (s.setUnit cu (s.released cu cs)) cu rfl (s.released cu cs) rfl rfl r
  have hsame : (s.releaseSlot cu cs).stock r = (s.setUnit cu (s.released cu cs)).stock r := by
    unfold releaseSlot
    dsimp only
    split <;> exact stock_congr rfl rfl rfl r
  have hslot := @DevUnit.share_update (s.unit cu) r (s.released cu cs) cs
    { (s.unit cu).inflight cs with ioreq := none, cookie := none } rfl
  rw [r.share_none] at hslot
  omega

theorem stock_reply (s : Config) (serial : Option ℕ) (r r' : IORequest) (err : Int)
    (actual : BitVec 32) :
    (s.reply serial r' err actual).stock r = s.stock r + r.share (some r') := by
  have hreplied := replies_reply s serial r r' err actual
  have hshare : r.share (some r') = if r' = r then 1 else 0 := by
    unfold IORequest.share
    simp only [Option.some.injEq]
  unfold stock
  rw [hreplied, hshare, ← add_assoc]
  rfl

theorem stock_port (hport : s₁.port = Function.update s.port u requests)
    (hunit : s₁.unit = s.unit) (hreplied : s₁.journal.replied = s.journal.replied)
    (r : IORequest) : s₁.stock r + (s.port u).count r = s.stock r + requests.count r := by
  have hsum := sum_comp_update (List.count r) s.port u requests
  unfold stock replies
  rw [hport, hunit, hreplied]
  omega

/-! ## Slots that are released -/

/-- Who releases a slot replies the request that the slot holds. -/
def RepliesHeld (s : Config) : Prop :=
  ∀ t caller c cu cs r err actual,
    s.pc t = .handle caller c (.release cu cs r err actual) →
      ((s.unit cu).inflight cs).ioreq = some r

theorem step_release {t cu : UnitNum} {caller : Option SyncCall} {c : Completion} {cs : Slot}
    {err : Int} {actual : BitVec 32}
    (hpc : s.pc t = .handle caller c (.release cu cs r err actual))
    (hstep : s.step (.task t ch) = some s') :
    s'.pc t = .handle caller c (.reply r err actual) := by
  unfold step at hstep
  dsimp only at hstep
  split_ifs at hstep
  unfold taskStep at hstep
  rw [hpc] at hstep
  dsimp only [handleTaken] at hstep
  split_ifs at hstep
  rw [Option.some.injEq] at hstep
  rw [← hstep, goto_pc_self]

/-- A slot that is being filled is not being released. -/
theorem Core.not_filling (h : s.Core) {t : UnitNum} {caller : Option SyncCall} {c : Completion}
    {err : Int} {actual : BitVec 32}
    (hpc : s.pc t = .handle caller c (.release u sl r err actual)) :
    (s.standing u).filling ≠ some sl := by
  have hheld : s.custody.held t = some (.releasing u sl, c) :=
    congrArg Standing.held (standing_of hpc)
  have hchain := h.custody.releasing_owned t u sl c hheld
  exact (slotChain_eq_some.mp hchain).2.1

theorem RepliesHeld.step (h : s.RepliesHeld) (hcore : s.Core) (hstep : s.step e = some s') :
    s'.RepliesHeld := by
  intro t caller c cu cs r err actual hpc
  have hm := hcore.move_of_step hstep
  have hslot := hm.slot cu cs
  rcases hm.status_of hpc with ⟨caller', hold⟩ | ⟨⟨caller', hroute⟩, hlookup, -⟩
  · have hentry := h t caller' c cu cs r err actual hold
    have hfilling := hcore.not_filling hold
    generalize (s'.unit cu).inflight cs = b at hslot ⊢
    cases hslot with
    | keep => exact hentry
    | marked ch r' sg he hfill hadd =>
        exact absurd (congrArg Standing.filling (standing_of hfill)) hfilling
    | unmarked ch r' sg he hadd =>
        exact absurd (congrArg Standing.filling (standing_of hadd)) hfilling
    | numbered ch r' sg he hadd => exact hentry
    | released t' ch caller₁ c₁ r₁ err₁ actual₁ he hrelease =>
        -- Nobody else has the chain of the slot.
        have hheld : s.custody.held t = some (.releasing cu cs, c) :=
          congrArg Standing.held (standing_of hold)
        have hheld' : s.custody.held t' = some (.releasing cu cs, c₁) :=
          congrArg Standing.held (standing_of hrelease)
        have hchain := hcore.custody.releasing_owned t cu cs c hheld
        rw [hcore.custody.releasing_owned t' cu cs c₁ hheld', Option.some.injEq] at hchain
        have hsame := hcore.custody.held_inj t' t _ _ c₁ c hheld' hheld hchain
        rw [he, hsame] at hstep
        rw [hsame] at hrelease
        rw [step_release hrelease hstep] at hpc
        cases hpc
  · have htask : ∃ ch, e = .task t ch := by
      by_contra hother
      rw [hm.pc (not_exists.mp hother), hroute] at hpc
      cases hpc
    have hentry := (lookup_eq_some hlookup).2
    obtain ⟨ch, rfl⟩ := htask
    generalize (s'.unit cu).inflight cs = b at hslot ⊢
    cases hslot with
    | keep => exact hentry
    | marked ch' r' sg he hfill hadd =>
        cases he
        rw [hroute] at hfill
        cases hfill
    | unmarked ch' r' sg he hadd =>
        cases he
        rw [hroute] at hadd
        cases hadd
    | numbered ch' r' sg he hadd => exact hentry
    | released t' ch' caller₁ c₁ r₁ err₁ actual₁ he hrelease =>
        cases he
        rw [hroute] at hrelease
        cases hrelease

/-! ## Every step keeps the books -/

theorem quiet_share (h : s.Quiet u s') (r : IORequest) : s'.share r = s.share r := by
  cases h with
  | wakeUp hpc hsig =>
      refine carries rfl rfl rfl rfl hpc ?_
      split_ifs <;> rfl
  | drained call hpc hlock hempty =>
      have hleft : (s.pc u).share r = r.share (some call.ioreq) := by
        rcases hpc with hpc | ⟨_, hcall, hpc⟩
        · rw [hpc]
          rfl
        · cases hcall
          rw [hpc]
          rfl
      exact carries rfl rfl rfl rfl rfl hleft.symm
  | noMessage hpc hport =>
      refine carries rfl rfl rfl rfl hpc ?_
      split_ifs <;> rfl
  | message r' rest hpc hport =>
      have hstock := @stock_port s { s with port := Function.update s.port u rest } u rest
        rfl rfl rfl r
      have hcount : (r' :: rest).count r = rest.count r + r.share (some r') := by
        rw [List.count_cons]
        unfold IORequest.share
        simp only [Option.some.injEq, beq_iff_eq]
      refine balances (by rfl) hpc ?_
      rw [hport, hcount] at hstock
      rw [commandPc_share]
      show _ = 0 + s.stock r
      omega
  | noSlot r' hpc hlock hfree => exact carries rfl rfl rfl rfl hpc rfl
  | handler r' p hpc hp =>
      refine balances (by rfl) hpc ?_
      rcases hp with ⟨isWrite, len, rfl⟩ | ⟨err, actual, rfl⟩ <;> rfl
  | woken call at_ hpc hsig hat => exact carries rfl rfl rfl rfl hpc rfl
  | polled call left hpc hempty =>
      exact carries rfl rfl rfl rfl hpc rfl
  | clear call taken hpc => exact carries rfl rfl rfl rfl hpc rfl
  | finish r' err actual hpc =>
      refine balances (by rfl) hpc ?_
      rw [stock_reply]
      show 0 + _ = r.share (some r') + s.stock r
      omega

theorem task_share (h : s.Core) (hown : s.RepliesHeld) (hm : s.Move (.task u ch) s')
    (r : IORequest) : s'.share r = s.share r := by
  cases hm with
  | quiet _ _ _ hq => exact quiet_share hq r
  | harvested _ _ hpc hlock hempty => exact carries rfl rfl rfl rfl hpc rfl
  | take _ _ caller serial x len q' hpc hlock htake hq hforeign =>
      have hleft : (s.pc u).share r = r.share (caller.map SyncCall.ioreq) := by
        rcases hpc with hpc | ⟨_, rfl, hpc⟩ <;> rw [hpc] <;> rfl
      exact carries rfl rfl rfl rfl rfl hleft.symm
  | takeOwn _ _ call serial x len q' hpc hlock htake hq hown =>
      have hleft : (s.pc u).share r = r.share (some call.ioreq) := by
        rcases hpc with hpc | ⟨_, hcall, hpc⟩
        · rw [hpc]
          rfl
        · cases hcall
          rw [hpc]
          rfl
      exact carries rfl rfl rfl rfl rfl hleft.symm
  | pick _ _ call c hpc hlock hpending hown =>
      refine balances (by rfl) hpc ?_
      rw [stock_setUnit (by rfl)]
      rfl
  | found _ _ caller c cu cs r' hpc hlookup => exact carries rfl rfl rfl rfl hpc rfl
  | foreign _ _ call c hpc hlookup => exact carries rfl rfl rfl rfl hpc rfl
  | stash _ _ caller c hpc =>
      have hleft : (s.pc u).share r = r.share (caller.map SyncCall.ioreq) := by
        rcases hpc with ⟨rfl, hpc, -⟩ | hpc <;> rw [hpc] <;> rfl
      refine balances (stashCookie_pc s c) rfl ?_
      rw [hleft, stock_stashCookie]
      rfl
  | release _ _ caller c cu cs r' err actual hpc hlock =>
      have hstock := stock_releaseSlot s cu cs r
      rw [hown u caller c cu cs r' err actual hpc] at hstock
      refine balances (releaseSlot_pc s cu cs) hpc ?_
      show r.share (caller.map SyncCall.ioreq) + r.share (some r') + _ =
        r.share (caller.map SyncCall.ioreq) + s.stock r
      omega
  | reply _ _ caller c r' err actual hpc =>
      refine balances (by rfl) hpc ?_
      rw [stock_reply]
      show r.share (caller.map SyncCall.ioreq) + _ =
        r.share (caller.map SyncCall.ioreq) + r.share (some r') + s.stock r
      omega
  | coalesce _ _ hpc =>
      unfold coalesce
      refine carries rfl rfl rfl rfl hpc ?_
      split_ifs <;> rfl
  | pop _ _ r' sl hpc hlock hfree =>
      refine balances (by rfl) hpc ?_
      rw [stock_setUnit (by rfl)]
      rfl
  | fillFailed _ _ r' sl hpc => exact carries rfl rfl rfl rfl hpc rfl
  | fill _ _ r' sl sg hpc hsg =>
      have hst : s.standing u = { filling := some sl } := standing_of hpc
      have hnone : ((s.unit u).inflight sl).ioreq = none := by
        have hmarked := (h.units u).marked sl (by rw [view, hst])
        rw [view, hst] at hmarked
        exact hmarked
      refine marks rfl rfl rfl rfl hpc ?_
      rw [hnone]
      exact Nat.zero_add _
  | addFailed _ _ r' sl sg hpc hlock =>
      have hst : s.standing u = { filling := some sl, marked := some r' } := standing_of hpc
      have hentry : ((s.unit u).inflight sl).ioreq = some r' :=
        ((h.units u).entry_of_marked (by rw [view, hst]) (by rw [view, hst])).1
      refine marks rfl rfl rfl rfl hpc ?_
      rw [hentry]
      exact (Nat.zero_add _).symm
  | add _ _ r' sl sg q' hpc hlock hadd hq =>
      have hnumbered := Nat.add_right_cancel (stock_setInflight s u sl
        { (s.unit u).inflight sl with serial := s.queue.hist.added.length } r)
      refine balances rfl hpc ?_
      exact congrArg (0 + ·) ((stock_congr rfl rfl rfl r).trans hnumbered)
  | account _ _ r' sl hpc =>
      have hsame := @stock_setUnit s u { s.unit u with
        inflightCount := (s.unit u).inflightCount + 1 } rfl r
      exact balances (by rfl) hpc (congrArg (0 + ·) hsame)
  | giveBack _ _ r' sl err hpc hlock =>
      refine balances (by rfl) hpc ?_
      rw [stock_setUnit (by rfl)]
      rfl
  | prepareFailed _ _ call hpc => exact carries rfl rfl rfl rfl hpc rfl
  | prepare _ _ call sg hpc hsg => exact carries rfl rfl rfl rfl hpc rfl
  | syncFailed _ _ call sg hpc hlock => exact carries rfl rfl rfl rfl hpc rfl
  | sync _ _ call sg q' hpc hlock hadd hq => exact carries rfl rfl rfl rfl hpc rfl
  | mark _ _ call hpc =>
      unfold doioMark
      refine carries rfl rfl rfl rfl hpc ?_
      split_ifs <;> rfl
  | pollTake _ _ call left serial x len q' hpc htake hq => exact carries rfl rfl rfl rfl hpc rfl
  | giveUp _ _ call hpc => exact carries rfl rfl rfl rfl hpc rfl
  | accept _ _ call c hpc =>
      have hsame : (doioOutcome s.setup.modern call (s.resp (reqBuf u))).1.ioreq = call.ioreq :=
        doioOutcome_request s.setup.modern call (s.resp (reqBuf u))
      exact carries rfl rfl rfl rfl hpc (congrArg (fun r' => r.share (some r')) hsame)
  | leave _ _ call result hpc hlock =>
      have hgone := returnPc_share call result r
      split_ifs
      · exact carries rfl rfl rfl rfl hpc hgone
      · exact carries rfl rfl rfl rfl hpc hgone
  | kick _ _ hpc hlock => exact carries rfl rfl rfl rfl hpc rfl

end Config

/-- How often an event puts a request to a unit. -/
def Event.puts (r : IORequest) : Event → ℕ
  | .putMsg _ r' => r.share (some r')
  | _ => 0

namespace Config

variable {s s₁ s' : Config} {u v : UnitNum} {p p₀ : Pc} {ch : Choice} {e : Event}

theorem share_congr (hpcs : s₁.pc = s.pc) (hport : s₁.port = s.port) (hunit : s₁.unit = s.unit)
    (hreplied : s₁.journal.replied = s.journal.replied) (r : IORequest) :
    s₁.share r = s.share r := by
  unfold share
  rw [hpcs, stock_congr hport hunit hreplied]

theorem putMsg_share (s : Config) (u : UnitNum) (r r' : IORequest) :
    ({ s with
        port := Function.update s.port u (s.port u ++ [r'])
        portSig := Function.update s.portSig u true } : Config).share r =
      s.share r + r.share (some r') := by
  have hstock := @stock_port s { s with
    port := Function.update s.port u (s.port u ++ [r'])
    portSig := Function.update s.portSig u true } u (s.port u ++ [r']) rfl rfl rfl r
  have hcount : (s.port u ++ [r']).count r = (s.port u).count r + r.share (some r') := by
    rw [List.count_append, List.count_singleton]
    unfold IORequest.share
    simp only [Option.some.injEq, beq_iff_eq]
  rw [hcount] at hstock
  unfold share
  dsimp only
  omega

theorem share_move (h : s.Core) (hown : s.RepliesHeld) (hm : s.Move e s') (r : IORequest) :
    s'.share r = s.share r + e.puts r := by
  cases e with
  | task u ch => exact task_share h hown hm r
  | putMsg u r' =>
      cases hm with
      | putMsg _ _ hrun => exact putMsg_share s u r r'
  | interrupt => cases hm with | interrupt => exact share_congr rfl rfl rfl rfl r
  | fetch => cases hm with | fetch => exact share_congr rfl rfl rfl rfl r
  | complete i len a => cases hm with | complete => exact share_congr rfl rfl rfl rfl r
  | signal => cases hm with | signal => exact share_congr rfl rfl rfl rfl r
  | rest => cases hm with | rest => exact share_congr rfl rfl rfl rfl r
  | probe ch =>
      have hsame : s'.share r = s.share r := by
        cases hm <;> exact share_congr rfl rfl rfl rfl r
      exact hsame
  | start => cases hm with | start => exact share_congr rfl rfl rfl rfl r

/-! ## Runs -/

theorem share_initial (setup : Setup) (r : IORequest) : (initial setup).share r = 0 := by
  have htasks (u : UnitNum) : ((initial setup).pc u).share r = 0 := rfl
  have hports (u : UnitNum) : ((initial setup).port u).count r = 0 := rfl
  have hunits (u : UnitNum) : ((initial setup).unit u).share r = 0 :=
    Finset.sum_eq_zero fun _ _ => rfl
  have hreplied : (initial setup).replies r = 0 := rfl
  unfold share stock
  simp only [htasks, hports, hunits, hreplied, Finset.sum_const_zero, add_zero]

/-- Every request is somewhere as often as it was put to a unit. -/
theorem share_run {setup : Setup} {events : List Event}
    (hobeys : GuardedRun.Obeys Config.step SyncExclusive (initial setup) events)
    (hrun : GuardedRun.run Config.step (initial setup) events = some s) (r : IORequest) :
    s.share r = (events.map (Event.puts r)).sum := by
  have hbooks : ∀ (s : Config) (e : Event) (s' : Config), s.Core ∧ s.RepliesHeld →
      s.SyncExclusive e → s.step e = some s' →
      (s'.Core ∧ s'.RepliesHeld) ∧ s'.share r = s.share r + e.puts r :=
    fun _ _ _ ⟨hcore, hown⟩ hguard hstep =>
      ⟨⟨hcore.step hguard hstep, hown.step hcore hstep⟩,
        share_move hcore hown (hcore.move_of_step hstep) r⟩
  have hstart : (initial setup).RepliesHeld := fun _ _ _ _ _ _ _ _ hpc => by cases hpc
  have hsum := GuardedRun.balanced hbooks hobeys ⟨core_initial setup, hstart⟩ hrun
  rwa [share_initial, Nat.zero_add] at hsum

end Config

end VirtioScsi
