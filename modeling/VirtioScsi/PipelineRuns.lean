import VirtioScsi.SyncTimeout
import VirtioScsi.Placement

/-!
# Runs that use the pipeline only

Without synchronous requests every chain belongs to a request that `Submit`
put in flight.  It is outstanding, in the hands of one task, or replied, and
the reply carries what the device answered to that chain.
-/

namespace VirtioScsi

open Placement RequestQueue

/-- Where a task can be that calls no `DoIO`; a call that was made goes no
further than its first place. -/
def Pc.Piped : Pc → Prop
  | .drain caller => caller = none
  | .handle caller _ what => caller = none ∧ what ≠ .stash
  | .sync _ at_ => at_ = .fill
  | _ => True

/-- The chain a task took from the used ring and is not done with. -/
def Pc.dequeued : Pc → List ℕ
  | .handle _ c _ => [c.serial]
  | _ => []

theorem commandPc_piped (r : IORequest) : (commandPc r).Piped := by
  unfold commandPc
  cases r.command <;> trivial

theorem commandPc_dequeued (r : IORequest) : (commandPc r).dequeued = [] := by
  unfold commandPc
  cases r.command <;> rfl

/-- Where a request is that was put in flight. -/
inductive RequestPlace where
  | ring
  | task (t : UnitNum)
  | replied
deriving DecidableEq, Repr

namespace Config

variable {s s' : Config} {t u v : UnitNum} {e : Event} {ch : Choice} {r : IORequest}
  {sl : Slot} {i : ℕ} {c : Completion} {caller : Option SyncCall} {what : Handling}
  {err : Int} {actual : BitVec 32}

/-- No step is taken inside a `DoIO` call, of a task or of discovery. -/
def PipelineOnly (s : Config) : Event → Prop
  | .task u _ => ∀ call at_, s.pc u ≠ .sync call at_
  | .probe _ => False
  | _ => True

instance PipelineOnly.decidable (s : Config) : ∀ e, Decidable (s.PipelineOnly e)
  | .task u _ =>
      match h : s.pc u with
      | .sync call at_ => isFalse fun hcall => hcall call at_ h
      | .wait => isTrue (by simp [PipelineOnly, h])
      | .drain _ => isTrue (by simp [PipelineOnly, h])
      | .handle _ _ _ => isTrue (by simp [PipelineOnly, h])
      | .coalesce => isTrue (by simp [PipelineOnly, h])
      | .dispatch => isTrue (by simp [PipelineOnly, h])
      | .submit _ => isTrue (by simp [PipelineOnly, h])
      | .handler _ => isTrue (by simp [PipelineOnly, h])
      | .finish _ _ _ => isTrue (by simp [PipelineOnly, h])
      | .kick => isTrue (by simp [PipelineOnly, h])
  | .probe _ => isFalse fun h => h
  | .interrupt => isTrue trivial
  | .fetch => isTrue trivial
  | .complete _ _ _ => isTrue trivial
  | .signal => isTrue trivial
  | .rest => isTrue trivial
  | .putMsg _ _ => isTrue trivial
  | .start => isTrue trivial

theorem PipelineOnly.exclusive (h : s.PipelineOnly e)
    (hgave : ∀ u, s.journal.gaveUp u = none) : s.SyncExclusive e := by
  cases e with
  | task u ch =>
      change s.PcExclusive u (s.pc u)
      cases hpc : s.pc u with
      | submit at_ =>
          cases at_ with
          | pop r => exact fun _ => hgave u
          | _ => trivial
      | sync call at_ => exact absurd hpc (h call at_)
      | _ => trivial
  | probe ch => exact h.elim
  | _ => trivial

/-- No task enters a synchronous call when none is dispatched. -/
theorem Move.piped (hm : s.Move e s') (hguard : s.PipelineOnly e)
    (hpiped : ∀ u, (s.pc u).Piped) (v : UnitNum) : (s'.pc v).Piped := by
  by_cases hother : ∃ ch, e = .task v ch
  case neg =>
    rw [hm.pc (not_exists.mp hother)]
    exact hpiped v
  obtain ⟨ch, rfl⟩ := hother
  have hv := hpiped v
  have hcall : ∀ call at_, s.pc v ≠ .sync call at_ := hguard
  have hdrain : ∀ caller, s.Draining v caller → caller = none := by
    rintro caller (hpc | ⟨call, -, hpc⟩)
    · rwa [hpc] at hv
    · exact absurd hpc (hcall _ _)
  cases hm with
  | quiet _ _ _ hq =>
      cases hq with
      | wakeUp hpc hsig =>
          rw [goto_pc_self]
          split <;> trivial
      | drained call hpc hlock hempty => cases hdrain _ hpc
      | noMessage hpc hport =>
          rw [goto_pc_self]
          split <;> trivial
      | message r rest hpc hport =>
          rw [goto_pc_self]
          exact commandPc_piped r
      | noSlot r hpc hlock hfree =>
          rw [goto_pc_self]
          rfl
      | handler r p hpc hp =>
          rw [goto_pc_self]
          rcases hp with ⟨_, _, rfl⟩ | ⟨_, _, ⟨rfl, rfl⟩⟩
          · rfl
          · trivial
      | woken call at_ hpc => exact absurd hpc (hcall _ _)
      | polled call left hpc => exact absurd hpc (hcall _ _)
      | clear call taken hpc => exact absurd hpc (hcall _ _)
      | finish r err actual hpc =>
          rw [goto_pc_self]
          trivial
  | take _ _ caller serial x len q' hpc =>
      rw [goto_pc_self]
      exact ⟨hdrain _ hpc, by simp⟩
  | takeOwn _ _ call serial x len q' hpc => cases hdrain _ hpc
  | pick _ _ call c hpc => exact absurd hpc (hcall _ _)
  | found _ _ caller c cu cs r hpc =>
      rw [hpc] at hv
      rw [goto_pc_self]
      exact ⟨hv.1, by simp⟩
  | foreign _ _ call c hpc =>
      rw [hpc] at hv
      cases hv.1
  | stash _ _ caller c hpc =>
      rw [goto_pc_self]
      rcases hpc with ⟨rfl, -, -⟩ | hpc
      · rfl
      · rw [hpc] at hv
        exact hv.1
  | release _ _ caller c cu cs r err actual hpc =>
      rw [hpc] at hv
      rw [goto_pc_self]
      exact ⟨hv.1, by simp⟩
  | reply _ _ caller c r err actual hpc =>
      rw [hpc] at hv
      rw [goto_pc_self]
      exact hv.1
  | coalesce _ _ hpc =>
      rw [Config.coalesce, goto_pc_self]
      split <;> trivial
  | account _ _ r sl hpc =>
      rw [submitAccount, goto_pc_self]
      trivial
  | prepareFailed _ _ call hpc => exact absurd hpc (hcall _ _)
  | prepare _ _ call sg hpc => exact absurd hpc (hcall _ _)
  | syncFailed _ _ call sg hpc => exact absurd hpc (hcall _ _)
  | sync _ _ call sg q' hpc => exact absurd hpc (hcall _ _)
  | mark _ _ call hpc => exact absurd hpc (hcall _ _)
  | pollTake _ _ call left serial x len q' hpc => exact absurd hpc (hcall _ _)
  | giveUp _ _ call hpc => exact absurd hpc (hcall _ _)
  | accept _ _ call c hpc => exact absurd hpc (hcall _ _)
  | leave _ _ call result hpc => exact absurd hpc (hcall _ _)
  | _ =>
      rw [goto_pc_self]
      trivial

/-! ## Where the requests are -/

def requestsAt (s : Config) : RequestPlace → List ℕ
  | .ring => s.queue.hist.live
  | .task t => (s.pc t).dequeued
  | .replied => s.journal.replied.filterMap Reply.serial

theorem requestsAt_congr {s₁ : Config} (hlive : s₁.queue.hist.live = s.queue.hist.live)
    (hpc : s₁.pc = s.pc) (hreplied : s₁.journal.replied.filterMap Reply.serial =
      s.journal.replied.filterMap Reply.serial) :
    s₁.requestsAt = s.requestsAt := by
  funext place
  cases place with
  | ring => exact hlive
  | task t => exact congrArg Pc.dequeued (congrFun hpc t)
  | replied => exact hreplied

theorem requestsAt_goto {s₁ : Config} {p : Pc} :
    (s₁.goto u p).requestsAt = Function.update s₁.requestsAt (.task u) p.dequeued := by
  funext place
  cases place with
  | task t =>
      by_cases ht : t = u
      · subst ht
        simp [requestsAt]
      · simp [requestsAt, goto_pc_of_ne ht, ht]
  | _ => rfl

theorem requestsAt_stay {s₁ : Config} {p : Pc} (h : s₁.requestsAt = s.requestsAt)
    (hp : p.dequeued = (s.pc u).dequeued) : (s₁.goto u p).requestsAt = s.requestsAt := by
  rw [requestsAt_goto, h, hp]
  exact Function.update_eq_self _ _

/-- Nothing is added to the queue. -/
structure SameRequests (s s' : Config) : Prop where
  submitted : s'.journal.submitted = s.journal.submitted
  added : s'.queue.hist.added = s.queue.hist.added

/-- What a step does with the chains of the requests in flight. -/
inductive RequestStep (s : Config) (e : Event) (s' : Config) : Prop
  | stay (hat : s'.requestsAt = s.requestsAt) (hsame : s.SameRequests s')
  | add (u : UnitNum) (ch : Choice) (r : IORequest) (sl : Slot) (sg : SgList)
      (he : e = .task u ch) (hpc : s.pc u = .submit (.add r sl sg))
      (hat : s'.requestsAt = Function.update s.requestsAt .ring
        (s.requestsAt .ring ++ [s.queue.hist.added.length]))
      (hsubmitted : s'.journal.submitted =
        s.journal.submitted ++ [⟨s.queue.hist.added.length, u, sl, r⟩])
      (hadded : s'.queue.hist.added =
        s.queue.hist.added ++ [(s.queue.vq.freeHead, .slot u sl)])
  | take (u : UnitNum) (ch : Choice) (serial : ℕ) (he : e = .task u ch)
      (hidle : s.requestsAt (.task u) = []) (hlive : serial ∈ s.requestsAt .ring)
      (hat : s'.requestsAt = Function.update (Function.update s.requestsAt .ring
        ((s.requestsAt .ring).filter (· ≠ serial))) (.task u) [serial])
      (hsame : s.SameRequests s')
  | reply (u : UnitNum) (ch : Choice) (serial : ℕ) (he : e = .task u ch)
      (hheld : s.requestsAt (.task u) = [serial])
      (hat : s'.requestsAt = Function.update (Function.update s.requestsAt (.task u) [])
        .replied (s.requestsAt .replied ++ [serial]))
      (hsame : s.SameRequests s')

theorem requestsAt_take {q' : RequestQueue ReqBuf} {serial : ℕ} {x : BitVec 16 × ReqBuf}
    {len : BitVec 32} (htake : s.queue.TakenFrom q' serial x len) :
    { s with queue := q' }.requestsAt = Function.update s.requestsAt .ring
      ((s.requestsAt .ring).filter (· ≠ serial)) := by
  have hlive : q'.hist.live = s.queue.hist.live.filter (· ≠ serial) := by
    rw [htake.hist]
    exact History.live_getBuf htake.published
  funext place
  cases place with
  | ring => exact hlive
  | _ => rfl

theorem requestsAt_reply {s₁ : Config} (serial : Option ℕ) :
    (s₁.reply serial r err actual).requestsAt = Function.update s₁.requestsAt .replied
      (s₁.requestsAt .replied ++ serial.toList) := by
  funext place
  cases place with
  | replied => cases serial <;> simp [requestsAt, Config.reply]
  | _ => rfl

theorem Quiet.requestsAt (hq : s.Quiet u s')
    (hcall : ∀ call at_, s.pc u ≠ .sync call at_) (hpiped : (s.pc u).Piped) :
    s'.requestsAt = s.requestsAt ∧ s.SameRequests s' := by
  cases hq with
  | wakeUp hpc hsig =>
      refine ⟨requestsAt_stay (requestsAt_congr rfl rfl rfl) ?_, ⟨rfl, rfl⟩⟩
      rw [hpc]
      split <;> rfl
  | drained call hpc hlock hempty =>
      rcases hpc with hpc | ⟨_, -, hpc⟩
      · rw [hpc] at hpiped
        cases hpiped
      · exact absurd hpc (hcall _ _)
  | noMessage hpc hport =>
      refine ⟨requestsAt_stay rfl ?_, ⟨rfl, rfl⟩⟩
      rw [hpc]
      split <;> rfl
  | message r rest hpc hport =>
      refine ⟨requestsAt_stay (requestsAt_congr rfl rfl rfl) ?_, ⟨rfl, rfl⟩⟩
      rw [hpc, commandPc_dequeued]
      rfl
  | noSlot r hpc hlock hfree =>
      refine ⟨requestsAt_stay rfl ?_, ⟨rfl, rfl⟩⟩
      rw [hpc]
      rfl
  | handler r p hpc hp =>
      refine ⟨requestsAt_stay rfl ?_, ⟨rfl, rfl⟩⟩
      rw [hpc]
      rcases hp with ⟨_, _, rfl⟩ | ⟨_, _, rfl⟩ <;> rfl
  | woken call at_ hpc => exact absurd hpc (hcall _ _)
  | polled call left hpc => exact absurd hpc (hcall _ _)
  | clear call taken hpc => exact absurd hpc (hcall _ _)
  | finish r err actual hpc =>
      refine ⟨requestsAt_stay ?_ ?_, ⟨rfl, rfl⟩⟩
      · rw [requestsAt_reply]
        simp
      · rw [hpc]
        rfl

/-- In the pipeline a move leaves every submitted request where it is or takes one of
them on to its next place. -/
theorem Move.request_step (hm : s.Move e s') (hq : s.queue.Ok) (hguard : s.PipelineOnly e)
    (hpiped : ∀ u, (s.pc u).Piped)
    (hfound : ∀ u c, s.pc u = .handle none c .route → s.lookup c.cookie ≠ none) :
    RequestStep s e s' := by
  obtain ⟨free, chain, hi⟩ := hq
  cases hm with
  | quiet u ch s' hq =>
      obtain ⟨hat, hsame⟩ := hq.requestsAt hguard (hpiped u)
      exact .stay hat hsame
  | harvested u ch hpc hlock hempty =>
      exact .stay (requestsAt_stay (requestsAt_congr rfl rfl rfl) (by rw [hpc]; rfl)) ⟨rfl, rfl⟩
  | take u ch caller serial x len q' hpc hlock htake hq hforeign =>
      have hidle : s.requestsAt (.task u) = [] := by
        rcases hpc with hpc | ⟨_, -, hpc⟩
        · simp [requestsAt, hpc, Pc.dequeued]
        · exact absurd hpc (hguard _ _)
      refine .take u ch serial rfl hidle (hi.ledger.next_live htake.published) ?_
        ⟨rfl, htake.added_eq⟩
      rw [requestsAt_goto, requestsAt_take htake]
      rfl
  | takeOwn u ch call serial x len q' hpc =>
      rcases hpc with hpc | ⟨_, -, hpc⟩
      · have hcaller := hpiped u
        rw [hpc] at hcaller
        cases hcaller
      · exact absurd hpc (hguard _ _)
  | found u ch caller c cu cs r hpc hlookup =>
      exact .stay (requestsAt_stay rfl (by rw [hpc]; rfl)) ⟨rfl, rfl⟩
  | foreign u ch call c hpc hlookup =>
      have hcaller := hpiped u
      rw [hpc] at hcaller
      cases hcaller.1
  | stash u ch caller c hpc =>
      rcases hpc with ⟨-, hpc, hlookup⟩ | hpc
      · exact absurd hlookup (hfound u c hpc)
      · have hcaller := hpiped u
        rw [hpc] at hcaller
        exact absurd rfl hcaller.2
  | release u ch caller c cu cs r err actual hpc hlock =>
      have hsame : (s.releaseSlot cu cs).requestsAt = s.requestsAt ∧
          s.SameRequests (s.releaseSlot cu cs) := by
        unfold releaseSlot
        dsimp only
        split <;> exact ⟨requestsAt_congr rfl rfl rfl, ⟨rfl, rfl⟩⟩
      exact .stay (requestsAt_stay hsame.1 (by rw [hpc]; rfl)) ⟨hsame.2.1, hsame.2.2⟩
  | reply u ch caller c r err actual hpc =>
      have hheld : s.requestsAt (.task u) = [c.serial] := by
        simp [requestsAt, hpc, Pc.dequeued]
      refine .reply u ch c.serial rfl hheld ?_ ⟨rfl, rfl⟩
      rw [requestsAt_goto, requestsAt_reply, Function.update_comm (by simp)]
      rfl
  | coalesce u ch hpc =>
      refine .stay (requestsAt_stay (requestsAt_congr rfl rfl rfl) ?_) ⟨rfl, rfl⟩
      rw [hpc]
      split <;> rfl
  | pop u ch r sl hpc hlock hfree =>
      exact .stay (requestsAt_stay (requestsAt_congr rfl rfl rfl) (by rw [hpc]; rfl)) ⟨rfl, rfl⟩
  | fillFailed u ch r sl hpc =>
      exact .stay (requestsAt_stay (requestsAt_congr rfl rfl rfl) (by rw [hpc]; rfl)) ⟨rfl, rfl⟩
  | fill u ch r sl sg hpc hsg =>
      exact .stay (requestsAt_stay (requestsAt_congr rfl rfl rfl) (by rw [hpc]; rfl)) ⟨rfl, rfl⟩
  | addFailed u ch r sl sg hpc hlock =>
      exact .stay (requestsAt_stay (requestsAt_congr rfl rfl rfl) (by rw [hpc]; rfl)) ⟨rfl, rfl⟩
  | add u ch r sl sg q' hpc hlock hadd hq =>
      refine .add u ch r sl sg rfl hpc ?_ rfl hadd.added_eq
      have hlive : q'.hist.live = s.queue.hist.live ++ [s.queue.hist.added.length] := by
        rw [hadd.hist]
        exact History.live_addBuf hi.ledger _
      funext place
      cases place with
      | ring => exact hlive
      | task t =>
          by_cases ht : t = u
          · subst ht
            simp [requestsAt, hpc, Pc.dequeued]
          · simp [requestsAt, goto, setInflight, setUnit, ht]
      | replied => rfl
  | account u ch r sl hpc =>
      exact .stay (requestsAt_stay (requestsAt_congr rfl rfl rfl) (by rw [hpc]; rfl)) ⟨rfl, rfl⟩
  | giveBack u ch r sl err hpc hlock =>
      exact .stay (requestsAt_stay (requestsAt_congr rfl rfl rfl) (by rw [hpc]; rfl)) ⟨rfl, rfl⟩
  | kick u ch hpc hlock =>
      exact .stay (requestsAt_stay (requestsAt_congr rfl rfl rfl) (by rw [hpc]; rfl)) ⟨rfl, rfl⟩
  | fetch q' hfetch =>
      obtain ⟨head, -, rfl, -⟩ := hi.fetch hfetch
      exact .stay (requestsAt_congr rfl rfl rfl) ⟨rfl, rfl⟩
  | complete i len r serial x q' hpending hcomplete hadded =>
      obtain ⟨_, _, -, hhist, -⟩ := hi.complete hcomplete
      refine .stay (requestsAt_congr ?_ rfl rfl) ⟨rfl, ?_⟩
      · dsimp only
        rw [hhist, History.live_complete hi.ledger]
      · dsimp only
        rw [hhist]
  | signal q' hsignal =>
      obtain ⟨-, raise, rfl, -⟩ := signal_cases hsignal
      exact .stay (requestsAt_congr rfl rfl rfl) ⟨rfl, rfl⟩
  | rest q' hrest =>
      obtain ⟨-, -, rfl⟩ := hi.rest hrest
      exact .stay (requestsAt_congr rfl rfl rfl) ⟨rfl, rfl⟩
  | interrupt => exact .stay (requestsAt_congr rfl rfl rfl) ⟨rfl, rfl⟩
  | putMsg => exact .stay (requestsAt_congr rfl rfl rfl) ⟨rfl, rfl⟩
  | start => exact .stay (requestsAt_congr rfl rfl rfl) ⟨rfl, rfl⟩
  | probeBegin => exact hguard.elim
  | probeFailed => exact hguard.elim
  | probeAdd => exact hguard.elim
  | probePolled => exact hguard.elim
  | probeTake => exact hguard.elim
  | pick u ch call c hpc => exact absurd hpc (hguard _ _)
  | prepareFailed u ch call hpc => exact absurd hpc (hguard _ _)
  | prepare u ch call sg hpc => exact absurd hpc (hguard _ _)
  | syncFailed u ch call sg hpc => exact absurd hpc (hguard _ _)
  | sync u ch call sg q' hpc => exact absurd hpc (hguard _ _)
  | mark u ch call hpc => exact absurd hpc (hguard _ _)
  | pollTake u ch call left serial x len q' hpc => exact absurd hpc (hguard _ _)
  | giveUp u ch call hpc => exact absurd hpc (hguard _ _)
  | accept u ch call c hpc => exact absurd hpc (hguard _ _)
  | leave u ch call result hpc => exact absurd hpc (hguard _ _)

/-- The requests that `Submit` put in flight. -/
def Sent (s : Config) (i : ℕ) : Prop :=
  ∃ x ∈ s.journal.submitted, x.serial = i

theorem SameRequests.sent (h : s.SameRequests s') : s'.Sent i ↔ s.Sent i := by
  unfold Sent
  rw [h.submitted]

/-- A request that is in one place before such a step is in one place after it. -/
theorem RequestStep.placed (h : RequestStep s e s') (hplaced : Placed s.requestsAt s.Sent)
    (hfresh : ¬ s.Sent s.queue.hist.added.length) : Placed s'.requestsAt s'.Sent := by
  cases h with
  | stay hat hsame =>
      rw [hat]
      exact hplaced.of_known fun i => hsame.sent
  | add u ch r sl sg he hpc hat hsubmitted hadded =>
      rw [hat]
      refine hplaced.add hfresh (List.perm_append_singleton _ _) fun i => ?_
      unfold Sent
      rw [hsubmitted]
      simp [or_comm, eq_comm]
  | take u ch serial he hidle hlive hat hsame =>
      rw [hat]
      have hring : (s.requestsAt .ring).Perm
          (serial :: (s.requestsAt .ring).filter (· ≠ serial)) := by
        have hperm := List.perm_cons_erase hlive
        rw [(hplaced.nodup .ring).erase_eq_filter serial] at hperm
        simpa [bne, beq_eq_decide] using hperm
      have htask : [serial].Perm (serial :: s.requestsAt (.task u)) := by rw [hidle]
      exact (hplaced.move (by simp) hring htask).of_known fun i => hsame.sent
  | reply u ch serial he hheld hat hsame =>
      rw [hat]
      have htask : (s.requestsAt (.task u)).Perm (serial :: []) := by rw [hheld]
      have hreplied := List.perm_append_singleton serial (s.requestsAt .replied)
      exact (hplaced.move (by simp) htask hreplied).of_known fun i => hsame.sent

/-! ## Responses -/

/-- `err` and `actual` are what the device's answer to chain `i` makes of a request. -/
def AnsweredWith (s : Config) (i : ℕ) (r : IORequest) (err : Int) (actual : BitVec 32) : Prop :=
  ∃ a, s.journal.answer i = some a ∧
    (err, actual) = completionStatus s.setup.modern a r.ioLength

/-- What a task knows of the request it completes. -/
def Completing (s : Config) (i : ℕ) : Handling → Prop
  | .release cu cs r err actual =>
      ⟨i, cu, cs, r⟩ ∈ s.journal.submitted ∧ s.AnsweredWith i r err actual
  | .reply r err actual =>
      (∃ u sl, ⟨i, u, sl, r⟩ ∈ s.journal.submitted) ∧ s.AnsweredWith i r err actual
  | _ => True

theorem PipelineOnly.reqId_of (hguard : s.PipelineOnly e) (hm : s.Move e s')
    (u : UnitNum) (sl : Slot) :
    s'.reqId (.slot u sl) = s.reqId (.slot u sl) ∨
      s'.reqId (.slot u sl) = requestId u sl := by
  have hprepare : ∀ v sl', (s.prepare (.slot v sl') (requestId v sl')).reqId (.slot u sl) =
      s.reqId (.slot u sl) ∨
      (s.prepare (.slot v sl') (requestId v sl')).reqId (.slot u sl) = requestId u sl := by
    intro v sl'
    by_cases hslot : ReqBuf.slot u sl = .slot v sl'
    · cases hslot
      exact .inr (by simp [Config.prepare])
    · exact .inl (prepare_of_ne (Ne.symm hslot)).1
  cases hm with
  | quiet v ch s' hq => cases hq <;> exact .inl rfl
  | stash v ch caller c hpc =>
      left
      unfold stashCookie
      split <;> rfl
  | release v ch caller c cu cs r err actual hpc hlock =>
      left
      unfold releaseSlot
      dsimp only
      split <;> rfl
  | leave v ch call result hpc hlock => exact absurd hpc (hguard _ _)
  | fillFailed v ch r sl' hpc => exact hprepare v sl'
  | fill v ch r sl' sg hpc => exact hprepare v sl'
  | prepareFailed v ch call hpc => exact absurd hpc (hguard _ _)
  | prepare v ch call sg hpc => exact absurd hpc (hguard _ _)
  | probeFailed => exact hguard.elim
  | probeAdd => exact hguard.elim
  | _ => exact .inl rfl

/-! ## The invariant -/

structure PipelineKept (s : Config) : Prop where
  kept : s.AnswersKept
  piped : ∀ u, (s.pc u).Piped
  gaveUp : ∀ u, s.journal.gaveUp u = none
  probes : ∀ n, s.journal.probeChain n = none
  placed : Placed s.requestsAt s.Sent
  unique : ∀ x ∈ s.journal.submitted, ∀ y ∈ s.journal.submitted,
    x.serial = y.serial → x = y
  cookie : ∀ x ∈ s.journal.submitted,
    s.custody.cookie x.serial = some (.slot x.unit x.slot)
  tagged : ∀ x ∈ s.journal.submitted,
    s.reqId (.slot x.unit x.slot) = requestId x.unit x.slot
  slots : ∀ u sl i, s.custody.chain (.slot u sl) = some i → ∃ r,
    ((s.unit u).inflight sl).ioreq = some r ∧ ⟨i, u, sl, r⟩ ∈ s.journal.submitted
  completing : ∀ t caller c what, s.pc t = .handle caller c what → s.Completing c.serial what
  replied : ∀ m ∈ s.journal.replied, ∀ i, m.serial = some i →
    (∃ u sl, ⟨i, u, sl, m.ioreq⟩ ∈ s.journal.submitted) ∧
      s.AnsweredWith i m.ioreq m.err m.actual

namespace PipelineKept

theorem exclusive (h : s.PipelineKept) (hguard : s.PipelineOnly e) : s.SyncExclusive e :=
  hguard.exclusive h.gaveUp

theorem slot_of_chain (h : s.PipelineKept) {x : User} (hx : s.custody.chain x = some i) :
    ∃ u sl, x = .slot u sl := by
  cases x with
  | slot u sl => exact ⟨u, sl, rfl⟩
  | sync u =>
      have hawaiting : (s.standing u).awaiting = none := by
        have hpiped := h.piped u
        unfold standing
        cases hpc : s.pc u with
        | drain caller =>
            rw [hpc] at hpiped
            rw [show caller = none from hpiped]
            rfl
        | handle caller c what =>
            rw [hpc] at hpiped
            rw [hpiped.1]
            rfl
        | submit at_ => cases at_ <;> rfl
        | sync call at_ =>
            rw [hpc] at hpiped
            rw [show at_ = .fill from hpiped]
            rfl
        | _ => rfl
      have hnone : s.custody.chain (.sync u) = none := by
        simp [Config.custody, chainOf, UnitView.syncChain, view, hawaiting, h.gaveUp u]
      rw [hnone] at hx
      cases hx
  | probe n =>
      rw [show s.custody.chain (.probe n) = none from h.probes n] at hx
      cases hx

theorem owner (h : s.PipelineKept) {x : Submission} (hx : x ∈ s.journal.submitted) {y : User}
    (hy : s.custody.chain y = some x.serial) : y = .slot x.unit x.slot := by
  obtain ⟨u, sl, rfl⟩ := h.slot_of_chain hy
  have hcookie := h.kept.core.custody.chain_cookie _ _ hy
  rw [h.cookie x hx, Option.some.injEq] at hcookie
  cases hcookie
  rfl

theorem fresh (h : s.PipelineKept) : ¬ s.Sent s.queue.hist.added.length := by
  rintro ⟨x, hx, hserial⟩
  have hcookie := h.cookie x hx
  simp [Config.custody, hserial] at hcookie

/-- A completion taken by any task resolves to the slot its request was submitted from. -/
theorem routed (h : s.PipelineKept) (hpc : s.pc t = .handle caller c .route) :
    ∃ x ∈ s.journal.submitted, x.serial = c.serial ∧
      s.lookup c.cookie = some (x.unit, x.slot, x.ioreq) := by
  have hheld : s.custody.held t = some (.routing, c) :=
    congrArg Standing.held (standing_of hpc)
  obtain ⟨y, hy⟩ := h.kept.core.custody.routing_owned t c hheld
  obtain ⟨u, sl, rfl⟩ := h.slot_of_chain hy
  obtain ⟨r, hr, hx⟩ := h.slots u sl _ hy
  obtain ⟨r', hlookup, hr'⟩ := h.kept.core.lookup_slot hy
  obtain rfl := Option.some.inj (hr.symm.trans hr')
  have hbuffer := h.kept.core.held_owner hheld hy
  exact ⟨_, hx, rfl, hbuffer ▸ hlookup⟩

theorem request_step (h : s.PipelineKept) (hguard : s.PipelineOnly e) (hm : s.Move e s') :
    RequestStep s e s' := by
  refine hm.request_step h.kept.core.queue hguard h.piped fun u c hpc hnone => ?_
  obtain ⟨x, -, -, hlookup⟩ := h.routed hpc
  rw [hnone] at hlookup
  cases hlookup

/-! ## Every clause is kept -/

/-- A new submission comes from the step that adds it, with the serial of its chain. -/
theorem submitted_of (h : s.PipelineKept) (hguard : s.PipelineOnly e) (hm : s.Move e s')
    {x : Submission} (hx : x ∈ s'.journal.submitted) :
    x ∈ s.journal.submitted ∨ x.serial = s.queue.hist.added.length ∧
      s'.custody.cookie x.serial = some (.slot x.unit x.slot) ∧
      ∃ sg, s.pc x.unit = .submit (.add x.ioreq x.slot sg) := by
  cases h.request_step hguard hm with
  | stay hat hsame => exact .inl (hsame.submitted ▸ hx)
  | add u ch r sl sg he hpc hat hsubmitted hadded =>
      rw [hsubmitted, List.mem_append, List.mem_singleton] at hx
      rcases hx with hold | rfl
      · exact .inl hold
      · exact .inr ⟨rfl, by simp [Config.custody, hadded], sg, hpc⟩
  | take u ch serial he hidle hlive hat hsame => exact .inl (hsame.submitted ▸ hx)
  | reply u ch serial he hheld hat hsame => exact .inl (hsame.submitted ▸ hx)

theorem unique_move (h : s.PipelineKept) (hguard : s.PipelineOnly e) (hm : s.Move e s')
    {x y : Submission} (hx : x ∈ s'.journal.submitted) (hy : y ∈ s'.journal.submitted)
    (hxy : x.serial = y.serial) : x = y := by
  cases h.request_step hguard hm with
  | stay hat hsame =>
      rw [hsame.submitted] at hx hy
      exact h.unique x hx y hy hxy
  | add u ch r sl sg he hpc hat hsubmitted hadded =>
      rw [hsubmitted, List.mem_append, List.mem_singleton] at hx hy
      rcases hx with hx | rfl
      · rcases hy with hy | rfl
        · exact h.unique x hx y hy hxy
        · exact absurd ⟨x, hx, hxy⟩ h.fresh
      · rcases hy with hy | rfl
        · exact absurd ⟨y, hy, hxy.symm⟩ h.fresh
        · rfl
  | take u ch serial he hidle hlive hat hsame =>
      rw [hsame.submitted] at hx hy
      exact h.unique x hx y hy hxy
  | reply u ch serial he hheld hat hsame =>
      rw [hsame.submitted] at hx hy
      exact h.unique x hx y hy hxy

theorem cookie_move (h : s.PipelineKept) (hguard : s.PipelineOnly e) (hm : s.Move e s')
    {x : Submission} (hx : x ∈ s'.journal.submitted) :
    s'.custody.cookie x.serial = some (.slot x.unit x.slot) := by
  rcases h.submitted_of hguard hm hx with hold | ⟨-, hnew, -⟩
  · exact (h.kept.core.custody_step (h.exclusive hguard) hm).cookie (h.cookie x hold)
  · exact hnew

theorem tagged_move (h : s.PipelineKept) (hguard : s.PipelineOnly e) (hm : s.Move e s')
    {x : Submission} (hx : x ∈ s'.journal.submitted) :
    s'.reqId (.slot x.unit x.slot) = requestId x.unit x.slot := by
  rcases hguard.reqId_of hm x.unit x.slot with hkeep | hwritten
  · rw [hkeep]
    rcases h.submitted_of hguard hm hx with hold | ⟨-, -, sg, hpc⟩
    · exact h.tagged x hold
    · -- The slot that is added was filled, and its buffer tagged.
      have hst := standing_of hpc
      have hunit := h.kept.core.units x.unit
      obtain ⟨-, hcookie⟩ := hunit.entry_of_marked (r := x.ioreq)
        (by rw [view, hst]; rfl) (by rw [view, hst]; rfl)
      obtain ⟨b, hb⟩ := Option.ne_none_iff_exists'.mp hcookie
      exact (hunit.cookie x.slot b hb).2
  · exact hwritten

theorem slots_move (h : s.PipelineKept) (hguard : s.PipelineOnly e) (hm : s.Move e s')
    (hx : s'.custody.chain (.slot u sl) = some i) : ∃ r,
      ((s'.unit u).inflight sl).ioreq = some r ∧ ⟨i, u, sl, r⟩ ∈ s'.journal.submitted := by
  have hexclusive := h.exclusive hguard
  have hcore' := h.kept.core.move hexclusive hm
  obtain ⟨hcookie', hfilling', -⟩ := slotChain_eq_some.mp hx
  -- The entry of a slot in flight is not the one of a slot being filled.
  have hioreq : ∀ r, ((s.unit u).inflight sl).ioreq = some r →
      ((s'.unit u).inflight sl).ioreq = some r := by
    intro r hr
    have hslot := hm.slot u sl
    simp only [view] at hcookie' hfilling'
    generalize (s'.unit u).inflight sl = entry at hslot hcookie'
    cases hslot with
    | keep => exact hr
    | marked ch r' sg he hpc hadd => exact absurd (by rw [standing_of hadd]; rfl) hfilling'
    | unmarked => exact absurd rfl hcookie'
    | numbered => exact hr
    | released => exact absurd rfl hcookie'
  rcases (h.kept.core.custody_step hexclusive hm).chain hx with hold | hnew
  · obtain ⟨r, hr, hsub⟩ := h.slots u sl i hold
    exact ⟨r, hioreq r hr, hm.submitted.subset hsub⟩
  · have hcookie := hcore'.custody.chain_cookie _ _ hx
    cases h.request_step hguard hm with
    | add v ch r sl' sg he hpc hat hsubmitted hadded =>
        have hge : s.queue.hist.added.length ≤ i := by simpa [Config.custody] using hnew
        simp only [Config.custody, hadded] at hcookie
        have hi : i = s.queue.hist.added.length := by
          obtain ⟨y, hy, -⟩ := Option.map_eq_some_iff.mp hcookie
          have hlt := (List.getElem?_eq_some_iff.mp hy).1
          rw [List.length_append, List.length_singleton] at hlt
          omega
        subst hi
        obtain ⟨rfl, rfl⟩ : v = u ∧ sl' = sl := by simpa [User.buffer] using hcookie
        have hst := standing_of hpc
        have hmarked := ((h.kept.core.units v).entry_of_marked (r := r)
          (by rw [view, hst]; rfl) (by rw [view, hst]; rfl)).1
        refine ⟨r, hioreq r hmarked, ?_⟩
        rw [hsubmitted]
        exact List.mem_append_right _ (List.mem_singleton_self _)
    | stay hat hsame =>
        simp only [Config.custody, hsame.added] at hcookie hnew
        rw [hnew] at hcookie
        cases hcookie
    | take v ch serial he hidle hlive hat hsame =>
        simp only [Config.custody, hsame.added] at hcookie hnew
        rw [hnew] at hcookie
        cases hcookie
    | reply v ch serial he hheld hat hsame =>
        simp only [Config.custody, hsame.added] at hcookie hnew
        rw [hnew] at hcookie
        cases hcookie

theorem answered_move (h : s.PipelineKept) (hm : s.Move e s') (ha : s.AnsweredWith i r err actual) :
    s'.AnsweredWith i r err actual := by
  obtain ⟨a, hanswer, hstatus⟩ := ha
  refine ⟨a, h.kept.answered.answer_move h.kept.core.fit hm hanswer, ?_⟩
  rw [hm.setup]
  exact hstatus

theorem completing_move (h : s.PipelineKept) (hm : s.Move e s')
    (hpc : s'.pc t = .handle caller c what) : s'.Completing c.serial what := by
  cases what with
  | route => trivial
  | stash => trivial
  | release cu cs r err actual =>
      have hcompleting : s.Completing c.serial (.release cu cs r err actual) := by
        rcases hm.status_of hpc with ⟨caller', hold⟩ | ⟨⟨caller', hold⟩, hlookup, hstatus⟩
        · exact h.completing t caller' c _ hold
        · have hheld : s.custody.held t = some (.routing, c) :=
            congrArg Standing.held (standing_of hold)
          obtain ⟨hchain, hioreq⟩ := h.kept.core.custody_found hheld hlookup
          obtain ⟨r', hr', hsub⟩ := h.slots cu cs _ hchain
          obtain rfl := Option.some.inj (hioreq.symm.trans hr')
          obtain ⟨hcookie, hlive⟩ := h.kept.core.custody.held_taken t _ c hheld
          obtain ⟨a, ha⟩ := h.kept.answered.of_consumed hcookie hlive
          have hstored := h.kept.stored _ _ a hchain ha
          refine ⟨hsub, a, ha, ?_⟩
          rw [← hstored]
          exact hstatus
      exact ⟨hm.submitted.subset hcompleting.1, h.answered_move hm hcompleting.2⟩
  | reply r err actual =>
      have hcompleting : s.Completing c.serial (.reply r err actual) := by
        have hnext := hm.handling t
        rw [hpc] at hnext
        generalize hold : (s.pc t).handling = old at hnext
        cases hnext with
        | keep =>
            obtain ⟨caller', hold'⟩ := completing_of_handling hold
            exact h.completing t caller' c _ hold'
        | reply _ cu cs _ _ _ =>
            obtain ⟨caller', hold'⟩ := completing_of_handling hold
            obtain ⟨hsub, ha⟩ := h.completing t caller' c _ hold'
            exact ⟨⟨cu, cs, hsub⟩, ha⟩
      obtain ⟨⟨u, sl, hsub⟩, ha⟩ := hcompleting
      exact ⟨⟨u, sl, hm.submitted.subset hsub⟩, h.answered_move hm ha⟩

theorem replied_move (h : s.PipelineKept) (hm : s.Move e s') {m : Reply}
    (hmem : m ∈ s'.journal.replied) (hi : m.serial = some i) :
    (∃ u sl, ⟨i, u, sl, m.ioreq⟩ ∈ s'.journal.submitted) ∧
      s'.AnsweredWith i m.ioreq m.err m.actual := by
  have hbefore : (∃ u sl, ⟨i, u, sl, m.ioreq⟩ ∈ s.journal.submitted) ∧
      s.AnsweredWith i m.ioreq m.err m.actual := by
    rcases hm.reply_of with hsame | ⟨v, r, err, actual, hpc, happend⟩ |
      ⟨v, caller, c, r, err, actual, hpc, happend⟩
    · exact h.replied m (hsame ▸ hmem) i hi
    · rw [happend, List.mem_append, List.mem_singleton] at hmem
      rcases hmem with hold | rfl
      · exact h.replied m hold i hi
      · cases hi
    · rw [happend, List.mem_append, List.mem_singleton] at hmem
      rcases hmem with hold | rfl
      · exact h.replied m hold i hi
      · obtain rfl := Option.some.inj hi
        exact h.completing v caller c _ hpc
  obtain ⟨⟨u, sl, hsub⟩, ha⟩ := hbefore
  exact ⟨⟨u, sl, hm.submitted.subset hsub⟩, h.answered_move hm ha⟩

theorem gaveUp_move (h : s.PipelineKept) (hm : s.Move e s') (u : UnitNum) :
    s'.journal.gaveUp u = none := by
  refine (hm.gaveUp_of (h.gaveUp u)).resolve_right ?_
  rintro ⟨call, hpc⟩
  have hpiped := h.piped u
  rw [hpc] at hpiped
  cases hpiped

theorem probes_move (h : s.PipelineKept) (hguard : s.PipelineOnly e) (hm : s.Move e s')
    (n : ℕ) : s'.journal.probeChain n = none := by
  cases hm with
  | quiet v ch s' hq => cases hq <;> exact h.probes n
  | stash v ch caller c hpc =>
      unfold stashCookie
      split <;> exact h.probes n
  | release v ch caller c cu cs r err actual hpc hlock =>
      unfold releaseSlot
      dsimp only
      split <;> exact h.probes n
  | leave v ch call result hpc hlock => split <;> exact h.probes n
  | probeAdd => exact hguard.elim
  | probeTake => exact hguard.elim
  | _ => exact h.probes n

theorem move (h : s.PipelineKept) (hguard : s.PipelineOnly e) (hm : s.Move e s') :
    s'.PipelineKept where
  kept := h.kept.move (h.exclusive hguard) hm
  piped := hm.piped hguard h.piped
  gaveUp := h.gaveUp_move hm
  probes := h.probes_move hguard hm
  placed := (h.request_step hguard hm).placed h.placed h.fresh
  unique := fun _ hx _ hy => h.unique_move hguard hm hx hy
  cookie := fun _ => h.cookie_move hguard hm
  tagged := fun _ => h.tagged_move hguard hm
  slots := fun _ _ _ => h.slots_move hguard hm
  completing := fun _ _ _ _ => h.completing_move hm
  replied := fun _ hmem _ => h.replied_move hm hmem

theorem step (h : s.PipelineKept) (hguard : s.PipelineOnly e) (hstep : s.step e = some s') :
    s'.PipelineKept :=
  h.move hguard (h.kept.core.move_of_step hstep)

end PipelineKept

theorem pipelineKept_initial (setup : Setup) : (initial setup).PipelineKept where
  kept := answersKept_initial setup
  piped := fun _ => trivial
  gaveUp := fun _ => rfl
  probes := fun _ => rfl
  placed := by
    have hempty : (initial setup).requestsAt = fun _ => [] := by
      funext place
      cases place <;> rfl
    rw [hempty]
    exact placed_nil.of_known fun i => by simp [Sent, initial]
  unique := by simp [initial]
  cookie := by simp [initial]
  tagged := by simp [initial]
  slots := by
    intro u sl i hx
    rw [show (initial setup).custody.chain (.slot u sl) = none from
      initial_chainOf setup (.slot u sl)] at hx
    cases hx
  completing := by simp [initial]
  replied := by simp [initial]

/-- The pipeline invariant holds in every state of a run without synchronous commands. -/
theorem pipelineKept_run {setup : Setup} {events : List Event}
    (hobeys : GuardedRun.Obeys Config.step PipelineOnly (initial setup) events)
    (hrun : GuardedRun.run Config.step (initial setup) events = some s) : s.PipelineKept :=
  GuardedRun.invariant (fun _ _ _ h hguard hstep => h.step hguard hstep)
    hobeys (pipelineKept_initial setup) hrun

/-! ## Requests are completed once -/

/-- The completion of chain `i` was taken, and its slot is back on the free list. -/
def Released (s : Config) (i : ℕ) : Prop :=
  i ∉ s.requestsAt .ring ∧ ∀ t caller c what, s.pc t = .handle caller c what →
    c.serial = i → ∃ r err actual, what = .reply r err actual

/-- A slot at the head of its free stack has had its requests completed: none is on the
ring, and a completion still in hand only has its reply left. -/
theorem PipelineKept.released_of_free (h : s.PipelineKept) (hfree : (s.unit u).freeHead = some sl)
    {x : Submission} (hx : x ∈ s.journal.submitted) (hu : x.unit = u) (hsl : x.slot = sl) :
    s.Released x.serial := by
  subst hu hsl
  have hcore := h.kept.core
  have hcookie : ((s.unit x.unit).inflight x.slot).cookie = none :=
    ((hcore.units x.unit).head_free hfree).1
  have hchain : ∀ y, s.custody.chain y ≠ some x.serial := by
    intro y hy
    obtain rfl := h.owner hx hy
    exact (slotChain_eq_some.mp hy).1 hcookie
  constructor
  · intro hlive
    obtain ⟨y, hy⟩ := hcore.custody.live_owned x.serial hlive
    exact hchain y hy
  · intro t caller c what hpc hserial
    have hheld : s.custody.held t = some (what.hold, c) :=
      congrArg Standing.held (standing_of hpc)
    cases what with
    | route =>
        obtain ⟨y, hy⟩ := hcore.custody.routing_owned t c hheld
        exact absurd (hserial ▸ hy) (hchain y)
    | stash =>
        have hpiped := h.piped t
        rw [hpc] at hpiped
        exact absurd rfl hpiped.2
    | release cu cs r err actual =>
        have hy := hcore.custody.releasing_owned t cu cs c hheld
        exact absurd (hserial ▸ hy) (hchain _)
    | reply r err actual => exact ⟨r, err, actual, rfl⟩

/-- What holds of the requests that were put in flight. -/
structure CompletedOnce (s : Config) : Prop where
  placed : Placed s.requestsAt s.Sent
  unique : ∀ x ∈ s.journal.submitted, ∀ y ∈ s.journal.submitted,
    x.serial = y.serial → x = y
  decoded : ∀ x ∈ s.journal.submitted,
    decodeId (s.reqId (.slot x.unit x.slot)) = some (x.unit, x.slot)
  found : ∀ t caller c, s.pc t = .handle caller c .route → ∃ x ∈ s.journal.submitted,
    x.serial = c.serial ∧ c.cookie = .slot x.unit x.slot ∧
      s.lookup c.cookie = some (x.unit, x.slot, x.ioreq)
  answered : ∀ m ∈ s.journal.replied, ∀ i, m.serial = some i → ∃ x ∈ s.journal.submitted,
    x.serial = i ∧ x.ioreq = m.ioreq ∧ ∃ a, s.journal.answer i = some a ∧
      (m.err, m.actual) = completionStatus s.setup.modern a m.ioreq.ioLength
  reused : ∀ u r sl, s.pc u = .submit (.pop r) → (s.unit u).freeHead = some sl →
    ∀ x ∈ s.journal.submitted, x.unit = u → x.slot = sl → s.Released x.serial

/-- A completion stays with the task that took it until that task replies, and
nobody else replies. -/
structure KeptByTask (s : Config) (e : Event) (s' : Config) : Prop where
  holds : ∀ t i, i ∈ s.requestsAt (.task t) → i ∈ s'.requestsAt (.task t) ∨
    i ∈ s'.requestsAt .replied ∧ ∃ ch, e = .task t ch
  replies : ∀ i, i ∈ s'.requestsAt .replied → i ∈ s.requestsAt .replied ∨
    ∃ t ch, e = .task t ch ∧ i ∈ s.requestsAt (.task t)

theorem RequestStep.keptByTask (h : RequestStep s e s') : s.KeptByTask e s' := by
  cases h with
  | stay hat hsame =>
      refine ⟨fun t i hi => .inl ?_, fun i hi => .inl ?_⟩
      · rwa [hat]
      · rwa [hat] at hi
  | add u ch r sl sg he hpc hat hsubmitted hadded =>
      refine ⟨fun t i hi => .inl ?_, fun i hi => .inl ?_⟩
      · rwa [hat, Function.update_of_ne (by simp)]
      · rwa [hat, Function.update_of_ne (by simp)] at hi
  | take u ch serial he hidle hlive hat hsame =>
      refine ⟨fun t i hi => .inl ?_, fun i hi => .inl ?_⟩
      · have ht : RequestPlace.task t ≠ .task u := by
          intro ht
          rw [ht, hidle] at hi
          cases hi
        rwa [hat, Function.update_of_ne ht, Function.update_of_ne (by simp)]
      · rwa [hat, Function.update_of_ne (by simp), Function.update_of_ne (by simp)] at hi
  | reply u ch serial he hheld hat hsame =>
      refine ⟨fun t i hi => ?_, fun i hi => ?_⟩
      · by_cases ht : t = u
        · subst ht
          rw [hheld] at hi
          refine .inr ⟨?_, ch, he⟩
          rw [hat, Function.update_self]
          exact List.mem_append_right _ hi
        · have hne : RequestPlace.task t ≠ .task u := by simpa using ht
          left
          rwa [hat, Function.update_of_ne (by simp), Function.update_of_ne hne]
      · rw [hat, Function.update_self, List.mem_append] at hi
        refine hi.imp_right fun hi => ⟨u, ch, he, ?_⟩
        rwa [hheld]

/-- The invariant gives the guarantees of the pipeline. -/
theorem PipelineKept.completedOnce (h : s.PipelineKept) : s.CompletedOnce where
  placed := h.placed
  unique := h.unique
  decoded := by
    intro x hx
    rw [h.tagged x hx, decodeId_requestId]
  found := by
    intro t caller c hpc
    obtain ⟨x, hx, hserial, hlookup⟩ := h.routed hpc
    refine ⟨x, hx, hserial, ?_, hlookup⟩
    exact ((h.kept.core.units x.unit).cookie x.slot _ (lookup_eq_some hlookup).1).1
  answered := by
    intro m hm i hi
    obtain ⟨⟨u, sl, hsub⟩, ha⟩ := h.replied m hm i hi
    exact ⟨_, hsub, rfl, rfl, ha⟩
  reused := fun u r sl _ hfree x hx => h.released_of_free hfree hx

/-- In every run without a synchronous request, each request `Submit` put in
flight is outstanding, in the hands of one task, or replied, once; a completion
is found in the slot of its request; the reply carries what the device answered
to that chain; and a slot is popped only after its completion released it. -/
theorem pipeline_completedOnce (setup : Setup) (events : List Event) (s : Config)
    (hrun : GuardedRun.run Config.step (initial setup) events = some s)
    (hobeys : GuardedRun.Obeys Config.step PipelineOnly (initial setup) events) :
    s.CompletedOnce ∧ ∀ e s', s.PipelineOnly e → s.step e = some s' → s.KeptByTask e s' := by
  have hkept := pipelineKept_run hobeys hrun
  refine ⟨hkept.completedOnce, fun e s' hguard hstep => ?_⟩
  exact (hkept.request_step hguard (hkept.kept.core.move_of_step hstep)).keptByTask

/-- Two units read; the device answers the second one first, and its task
harvests both. -/
def twoReads : List Event :=
  [Event.start, .putMsg 0 (sampleRead 1), .putMsg 1 (sampleRead 2)] ++ taskSteps 0 8 ++
    taskSteps 1 8 ++ [Event.fetch, .fetch, .complete 1 620 goodResponse,
      .complete 0 620 goodResponse, .signal, .interrupt] ++ taskSteps 1 11

theorem pipeline_completedOnce_twoReads :
    ∃ s, GuardedRun.run Config.step (initial (sampleSetup false true)) twoReads = some s ∧
      s.journal.replied = [⟨some 1, sampleRead 2, 0, 512⟩, ⟨some 0, sampleRead 1, 0, 512⟩] ∧
      s.CompletedOnce := by
  have hend : (GuardedRun.run Config.step (initial (sampleSetup false true)) twoReads).map
      (fun s => decide (s.journal.replied =
        [⟨some 1, sampleRead 2, 0, 512⟩, ⟨some 0, sampleRead 1, 0, 512⟩])) = some true := by
    decide +kernel
  have hobeys : GuardedRun.Obeys Config.step PipelineOnly
      (initial (sampleSetup false true)) twoReads := by
    decide +kernel
  obtain ⟨s, hrun, hs⟩ := Option.map_eq_some_iff.mp hend
  exact ⟨s, hrun, of_decide_eq_true hs, (pipeline_completedOnce _ _ s hrun hobeys).1⟩

end Config
end VirtioScsi
