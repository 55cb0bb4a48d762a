import VirtioScsi.DoioAttempts

/-!
# What the caller of DoIO is told

`VirtIOSCSI_DoIO` stores the status and the residual of a response through two
pointers; both variables of the callers start at 0.  What they hold in the end
is what the last response said that came in good order.
-/

namespace VirtioScsi

/-- `rc`, `scsi_status` and `residual` of a caller. -/
structure DoioReport where
  result : Int
  status : BitVec 8
  residual : BitVec 32
deriving DecidableEq, Repr

def DoioRun.told (run : DoioRun) : DoioReport :=
  ⟨run.result, run.scsiStatus.getD 0, run.residual.getD 0⟩

namespace DoioCall

def clamp (c : DoioCall) (residual : BitVec 32) : BitVec 32 :=
  if c.dataLen < residual then c.dataLen else residual

/-- What is told after the attempts `k`, `k + 1`, ..., at most `tries` of them:
each CHECK CONDITION is followed by another attempt, which need not be
answered. -/
def lastReport (c : DoioCall) (modern : ℕ → Bool) (outcome : ℕ → Attempt) :
    ℕ → ℕ → DoioReport → DoioReport
  | 0, _, told => told
  | tries + 1, k, told =>
      match outcome k with
      | .failed error => { told with result := error }
      | .timedOut => { told with result := ioerrSelfTest }
      | .answered r =>
          if r.response ≠ virtioScsiSOk then ⟨tderrNotSpecified, 0, told.residual⟩
          else if r.status = 2 ∧ 0 < tries then
            c.lastReport modern outcome tries (k + 1)
              ⟨told.result, r.status, c.clamp (r.residualNative (modern k))⟩
          else
            ⟨(Attempt.answered r).outcome, r.status,
              c.clamp (r.residualNative (modern k))⟩

/-- What a caller with a unit is told. -/
def told (c : DoioCall) (env : DoioEnv) : DoioReport :=
  if env.ready = false then ⟨tderrNotSpecified, 0, 0⟩
  else c.lastReport (fun k => (env.attempt k).vq.modern) (c.attemptAt env) 3 0
    ⟨tderrNotSpecified, 0, 0⟩

variable {c : DoioCall}

theorem check_told (modern : Bool) (tries : ℕ) (r : Response) (run : DoioRun) :
    match c.check modern tries r run with
    | .again run' => r.CheckCondition ∧ 0 < tries ∧ run'.made = run.made ∧
        run'.told = ⟨run.result, r.status, c.clamp (r.residualNative modern)⟩
    | .leave run' => ¬ (r.CheckCondition ∧ 0 < tries) ∧ run'.told =
        if r.response ≠ virtioScsiSOk then ⟨tderrNotSpecified, 0, run.told.residual⟩
        else ⟨(Attempt.answered r).outcome, r.status,
          c.clamp (r.residualNative modern)⟩ := by
  unfold check
  dsimp only
  by_cases hresponse : r.response = virtioScsiSOk
  case neg =>
    rw [if_pos hresponse]
    dsimp only
    rw [if_pos hresponse]
    exact ⟨fun h => absurd h.1.1 hresponse, rfl⟩
  rw [if_neg (not_not.mpr hresponse), if_neg (not_not.mpr hresponse)]
  by_cases hcheck : r.status = 2
  · rw [if_pos hcheck]
    by_cases htries : 0 < tries
    · rw [if_pos htries]
      exact ⟨⟨hresponse, hcheck⟩, htries, rfl, rfl⟩
    · rw [if_neg htries]
      exact ⟨fun h => htries h.2, rfl⟩
  · have hnot : ¬ (r.CheckCondition ∧ 0 < tries) := fun h => hcheck h.1.2
    rw [if_neg hcheck]
    by_cases hgood : r.status = 0
    · rw [if_pos hgood]
      have houtcome : (Attempt.answered r).outcome = 0 := by
        unfold Attempt.outcome
        rw [mapScsiError_eq_zero_iff]
        exact ⟨hresponse, .inl hgood⟩
      rw [houtcome]
      exact ⟨hnot, rfl⟩
    · rw [if_neg hgood]
      have houtcome : (Attempt.answered r).outcome = mapScsiError r.response r.status 0xFF :=
        mapScsiError_other hcheck _ _
      rw [houtcome]
      exact ⟨hnot, rfl⟩

/-- The induction is on the attempts left, as in the loop. -/
theorem attempts_told (bufs : UnitBuffers) (env : ℕ → AttemptEnv) (tries : ℕ)
    (run : DoioRun) :
    (c.attempts bufs env tries run).told =
      c.lastReport (fun k => (env k).vq.modern) (fun k => c.comesTo bufs (env k))
        tries run.made run.told := by
  induction tries generalizing run with
  | zero => rfl
  | succ tries ih =>
      have hcases := attempt_cases c bufs tries (env run.made) run
      rw [attempts, lastReport]
      generalize c.attempt bufs tries (env run.made) run = turn at hcases
      generalize c.comesTo bufs (env run.made) = outcome at hcases
      cases hcases with
      | failed hreleased => rfl
      | timedOut hheld => rfl
      | @answered r ops hreleased =>
          have hreport := @check_told c (env run.made).vq.modern tries r { run with
            made := run.made + 1, ops := run.ops ++ ops, submitted := run.submitted + 1 }
          generalize c.check (env run.made).vq.modern tries r { run with
            made := run.made + 1, ops := run.ops ++ ops,
            submitted := run.submitted + 1 } = turn at hreport
          cases turn with
          | again run' =>
              obtain ⟨hcheck, htries, hmade, htold⟩ := hreport
              dsimp only at hmade ⊢
              rw [if_neg (not_not.mpr hcheck.1), if_pos ⟨hcheck.2, htries⟩, ih run',
                hmade, htold]
              rfl
          | leave run' =>
              obtain ⟨hlast, htold⟩ := hreport
              dsimp only
              rw [htold]
              by_cases hresponse : r.response = virtioScsiSOk
              · have hnot : ¬ (r.status = 2 ∧ 0 < tries) :=
                  fun h => hlast ⟨⟨hresponse, h.1⟩, h.2⟩
                rw [if_neg (not_not.mpr hresponse), if_neg (not_not.mpr hresponse),
                  if_neg hnot]
              · rw [if_pos hresponse, if_pos hresponse]
                rfl

theorem doio_told {env : DoioEnv} {bufs : UnitBuffers} (hunit : c.unit = some bufs) :
    (c.doio env).told = c.told env := by
  have hbuffers : c.attemptAt env = fun k => c.comesTo bufs (env.attempt k) := by
    funext k
    rw [attemptAt, buffers, hunit]
    rfl
  unfold doio told
  by_cases hready : env.ready = false
  · rw [if_pos hready, if_pos hready]
    rfl
  · rw [if_neg hready, if_neg hready, hunit, hbuffers]
    exact attempts_told bufs env.attempt 3 (.before tderrNotSpecified [])

theorem lastReport_induction {P : DoioReport → Prop} {modern : ℕ → Bool}
    {outcome : ℕ → Attempt} (hresult : ∀ told k, P told →
      P { told with result := (outcome k).outcome })
    (hbad : ∀ told, P told → P ⟨tderrNotSpecified, 0, told.residual⟩)
    (hanswer : ∀ told (r : Response) residual, P told →
      P ⟨told.result, r.status, c.clamp residual⟩)
    (tries k : ℕ) {told : DoioReport} (htold : P told) :
    P (c.lastReport modern outcome tries k told) := by
  induction tries generalizing k told with
  | zero => exact htold
  | succ tries ih =>
      have hlast := hresult told k htold
      unfold lastReport
      cases houtcome : outcome k with
      | failed error =>
          rw [houtcome] at hlast
          exact hlast
      | timedOut =>
          rw [houtcome] at hlast
          exact hlast
      | answered r =>
          rw [houtcome] at hlast
          dsimp only
          split_ifs
          · exact hbad told htold
          · exact ih (k + 1) (hanswer told r _ htold)
          · exact hanswer _ r _ hlast

theorem clamp_le (c : DoioCall) (residual : BitVec 32) : c.clamp residual ≤ c.dataLen := by
  unfold clamp
  split_ifs with hlarge
  · exact BitVec.le_refl _
  · exact BitVec.not_lt.mp hlarge

theorem told_residual_le (c : DoioCall) (env : DoioEnv) :
    (c.told env).residual ≤ c.dataLen := by
  have hzero : (0 : BitVec 32) ≤ c.dataLen := BitVec.le_def.mpr (Nat.zero_le _)
  unfold told
  split_ifs
  · exact hzero
  · apply lastReport_induction (P := fun told => told.residual ≤ c.dataLen)
    · intro _ _ h
      exact h
    · intro _ h
      exact h
    · intro _ _ residual _
      exact c.clamp_le residual
    · exact hzero

theorem told_result_byte (c : DoioCall) (env : DoioEnv) :
    BitVec.ofInt 8 (c.told env).result = 0 ↔ (c.told env).result = 0 := by
  have houtcome : ∀ k, BitVec.ofInt 8 (c.attemptAt env k).outcome = 0 ↔
      (c.attemptAt env k).outcome = 0 := by
    intro k
    unfold attemptAt
    rcases comesTo_cases c (c.buffers env) (env.attempt k) with h | h | h | ⟨r, h⟩
    · rw [h]
      decide
    · rw [h]
      decide
    · rw [h]
      decide
    · rw [h]
      unfold Attempt.outcome mapScsiError
      dsimp only
      split_ifs
      · decide
      · decide
      · decide
      · split <;> decide
  have hstart : BitVec.ofInt 8 tderrNotSpecified = 0 ↔ tderrNotSpecified = 0 := by decide
  unfold told
  split_ifs
  · exact hstart
  · apply lastReport_induction
      (P := fun told => BitVec.ofInt 8 told.result = 0 ↔ told.result = 0)
    · intro _ k _
      exact houtcome k
    · intro _ _
      exact hstart
    · intro _ _ _ h
      exact h
    · exact hstart

end DoioCall

end VirtioScsi
