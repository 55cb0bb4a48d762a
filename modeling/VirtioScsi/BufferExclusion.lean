import VirtioScsi.OwnershipMoves

/-!
# One chain for a request buffer

`unit->req_buf` is the buffer of pipeline slot 0.  As long as the synchronous
requests of a unit have that buffer for themselves, a cookie belongs to one
outstanding chain, and the driver writes no buffer that the device may still
use.
-/

namespace VirtioScsi
namespace Config

variable {s s' : Config} {u : UnitNum} {e : Event} {b : ReqBuf}

/-- The request and response buffer a step of the driver stores into. -/
def writesBuffer (s : Config) : Event → Option ReqBuf
  | .task u _ =>
      match s.pc u with
      | .submit (.fill _ slot) => some (.slot u slot)
      | .sync _ .fill => some (reqBuf u)
      | _ => none
  | .probe _ =>
      match s.probe with
      | .attempt n _ => some (.temp n)
      | _ => none
  | _ => none

theorem prepare_of_ne {b' : ReqBuf} {id : BitVec 64} (hb : b' ≠ b) :
    (s.prepare b' id).reqId b = s.reqId b ∧ (s.prepare b' id).resp b = s.resp b := by
  simp [prepare, Ne.symm hb]

theorem Move.same_buffer (hm : s.Move e s') (hb : s.writesBuffer e ≠ some b)
    (hdevice : ∀ i len r, e ≠ .complete i len r) :
    s'.reqId b = s.reqId b ∧ s'.resp b = s.resp b := by
  have hwritten : ∀ b' id, s.writesBuffer e = some b' →
      (s.prepare b' id).reqId b = s.reqId b ∧ (s.prepare b' id).resp b = s.resp b := by
    intro b' id hb'
    refine prepare_of_ne ?_
    rintro rfl
    exact hb hb'
  cases hm with
  | quiet u ch s' hq => cases hq <;> exact ⟨rfl, rfl⟩
  | stash u ch caller c hpc =>
      unfold stashCookie
      split <;> exact ⟨rfl, rfl⟩
  | release u ch caller c cu cs r err actual hpc hlock =>
      unfold releaseSlot
      dsimp only
      split <;> exact ⟨rfl, rfl⟩
  | leave u ch call result hpc hlock => split <;> exact ⟨rfl, rfl⟩
  | fillFailed u ch r sl hpc => exact hwritten _ _ (by simp [writesBuffer, hpc])
  | fill u ch r sl sg hpc => exact hwritten _ _ (by simp [writesBuffer, hpc])
  | prepareFailed u ch call hpc => exact hwritten _ _ (by simp [writesBuffer, hpc])
  | prepare u ch call sg hpc => exact hwritten _ _ (by simp [writesBuffer, hpc])
  | probeFailed ch n tries hrun hprobe =>
      exact hwritten _ _ (by simp [writesBuffer, hprobe])
  | probeAdd ch n tries q' hrun hprobe =>
      exact hwritten _ _ (by simp [writesBuffer, hprobe])
  | complete i len r => exact absurd rfl (hdevice i len r)
  | _ => exact ⟨rfl, rfl⟩

theorem Core.chain_of_written (h : s.Core) (hguard : s.SyncExclusive e)
    (hwrite : s.writesBuffer e = some b) {x : User} (hx : x.buffer = b) :
    s.custody.chain x = none := by
  cases e with
  | task u ch =>
      simp only [writesBuffer] at hwrite
      split at hwrite
      · next r sl hpc =>
        obtain rfl := Option.some.inj hwrite
        have hst : s.standing u = { filling := some sl } := standing_of hpc
        cases x with
        | slot v sl' =>
            cases hx
            simp [Config.custody, chainOf, UnitView.slotChain, view, hst]
        | sync v =>
            cases hx
            have hgave : s.journal.gaveUp u = none :=
              h.gaveUp_of_filling (by rw [hst])
            simp [Config.custody, chainOf, UnitView.syncChain, view, hst, hgave]
        | probe n => cases hx
      · next call hpc =>
        obtain rfl := Option.some.inj hwrite
        have hst : s.standing u = {} := standing_of hpc
        obtain ⟨hzero, hgave⟩ : ((s.unit u).inflight 0).cookie = none ∧
            s.journal.gaveUp u = none := by
          simpa [SyncExclusive, PcExclusive, hpc] using hguard
        cases x with
        | slot v sl' =>
            cases hx
            exact if_pos (.inl hzero)
        | sync v =>
            cases hx
            simp [Config.custody, chainOf, UnitView.syncChain, view, hst, hgave]
        | probe n => cases hx
      · cases hwrite
  | probe ch =>
      simp only [writesBuffer] at hwrite
      split at hwrite
      · next n tries hprobe =>
        obtain rfl := Option.some.inj hwrite
        have hprobes := h.probes.2
        rw [hprobe] at hprobes
        cases x with
        | probe m =>
            cases hx
            exact hprobes.2
        | _ => cases hx
      · cases hwrite
  | _ => cases hwrite

/-! ## Runs -/

/-- A read is answered, and then the geometry is asked for. -/
def readThenGeometry : List Event :=
  [Event.start, .putMsg 0 (sampleRead 1)] ++ taskSteps 0 8 ++
    [Event.fetch, .complete 0 620 goodResponse, .signal, .interrupt] ++ taskSteps 0 7 ++
    [Event.putMsg 0 (sampleGeometryRequest 2)] ++ taskSteps 0 2 ++
    [Event.task 0 { call := some (false, 8) }]

end Config
end VirtioScsi
