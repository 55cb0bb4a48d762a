import VirtioScsi.Virtqueue
import VirtioScsi.ResourceTrace

/-!
# What `AddBuf` leaves behind

`VirtQueue_AddBuf` sets up an indirect table in three steps, each of which can
fail, and falls through to the direct path.  Its Exec calls are replayed as a
trace of resources: the direct path and every failure leave none behind, and
the indirect path leaves the table and its DMA mapping, which `GetBuf`
releases.
-/

namespace VirtioScsi

open ResourceTrace

inductive ExecResource where
  | memory (virt : ℕ)
  | dma (virt size : ℕ)
  | dmaList (entries : ℕ)
deriving DecidableEq, Repr

namespace Virtqueue

def ExecOp.resource : ExecOp → Op ExecResource
  | .allocVec virt _ => .acquire (.memory virt)
  | .freeVec virt => .release (.memory virt)
  | .startDMA virt size => .acquire (.dma virt size)
  | .endDMA virt size => .release (.dma virt size)
  | .allocSysObject entries => .acquire (.dmaList entries)
  | .freeSysObject entries => .release (.dmaList entries)

def resources (ops : List ExecOp) : List (Op ExecResource) :=
  ops.map ExecOp.resource

inductive AddBufPath where
  | direct
  | indirect (virt : ℕ) (phys : BitVec 32)
deriving DecidableEq, Repr

/-- The path `AddBuf` takes in the end, whatever room the free list has. -/
def addBufPath (useIndirect : Bool) (total : ℕ) (env : IndirectEnv) :
    AddBufPath :=
  if useIndirect && decide (1 < total) && decide (0 < env.itblEntries) then
    match env.itbl, env.itblDma with
    | some virt, some phys => .indirect virt phys
    | _, _ => .direct
  else .direct

def AddBufPath.needed (total : ℕ) : AddBufPath → ℕ
  | .direct => total
  | .indirect _ _ => 1

/-- What a successful call keeps until the completion. -/
def AddBufPath.kept (total : ℕ) : AddBufPath → List ExecResource
  | .direct => []
  | .indirect virt _ => [.dma virt (16 * total), .memory virt]

variable {α : Type*} {vq : Virtqueue α} {sg : ℕ → VringSg}
  {outNum inNum total : ℕ} {cookie : α} {env : IndirectEnv}

/-- How a call ends: refused for lack of descriptors, or on the path taken;
only a success keeps resources. -/
structure AddBufOutcome (vq : Virtqueue α) (total : ℕ) (path : AddBufPath)
    (result : AddBufResult α) : Prop where
  code : result.rc = if vq.numFree.toNat < path.needed total then -1 else 0
  unchanged : result.rc = -1 → result.vq = vq
  held : replay [] (resources result.ops) =
    some (if result.rc = 0 then path.kept total else [])

theorem addBufFallback_outcome {ops : List ExecOp}
    (hops : Settled (resources ops)) :
    AddBufOutcome vq total .direct
      (vq.addBufFallback sg outNum total cookie ops) := by
  unfold addBufFallback
  by_cases hroom : vq.numFree.toNat < total
  · rw [if_pos hroom]
    exact ⟨by simp [AddBufPath.needed, hroom], fun _ => rfl, hops⟩
  · rw [if_neg hroom]
    exact ⟨by simp [AddBufPath.needed, hroom], by simp, hops⟩

theorem addBuf_exhausted (path : AddBufPath) (htotal : 1 < total)
    (hroom : vq.numFree.toNat < 1) :
    AddBufOutcome vq total path (⟨-1, vq, []⟩ : AddBufResult α) := by
  have hneeded : vq.numFree.toNat < path.needed total := by
    cases path with
    | direct => exact hroom.trans htotal
    | indirect virt phys => exact hroom
  exact ⟨by simp [hneeded], fun _ => rfl, by simp [resources]⟩

theorem addBuf_outcome :
    AddBufOutcome vq (outNum + inNum)
      (addBufPath vq.useIndirect (outNum + inNum) env)
      (vq.addBuf sg outNum inNum cookie env) := by
  unfold addBuf
  dsimp only
  by_cases htable : (vq.useIndirect && decide (1 < outNum + inNum)) = true
  · rw [if_pos htable]
    have hmany : 1 < outNum + inNum := by
      simp only [Bool.and_eq_true, decide_eq_true_eq] at htable
      exact htable.2
    by_cases hroom : vq.numFree.toNat < 1
    · rw [if_pos hroom]
      exact addBuf_exhausted _ hmany hroom
    · rw [if_neg hroom]
      unfold addBufPath
      rw [htable, Bool.true_and]
      cases hvirt : env.itbl with
      | none =>
          simp only [ite_self]
          exact addBufFallback_outcome rfl
      | some virt =>
          by_cases hentries : 0 < env.itblEntries
          · simp only [hentries, decide_true, if_true]
            cases hphys : env.itblDma with
            | none =>
                exact addBufFallback_outcome
                  (by simp [resources, ExecOp.resource, Settled])
            | some phys =>
                refine ⟨by simp [AddBufPath.needed, hroom], by simp, ?_⟩
                simp [resources, ExecOp.resource, AddBufPath.kept]
          · simp only [hentries, decide_false, if_false, Bool.false_eq_true]
            exact addBufFallback_outcome
              (by simp [resources, ExecOp.resource, Settled])
  · rw [if_neg htable]
    unfold addBufPath
    simp only [Bool.not_eq_true] at htable
    rw [htable]
    simp only [Bool.false_and, Bool.false_eq_true, if_false]
    exact addBufFallback_outcome rfl

/-- `AddBuf` fails only for lack of descriptors and then leaves the queue as
it was; resources outlive the call only if it succeeds indirectly. -/
theorem addBuf_fails_without_trace (vq : Virtqueue α) (sg : ℕ → VringSg)
    (outNum inNum : ℕ) (cookie : α) (env : IndirectEnv) :
    let result := vq.addBuf sg outNum inNum cookie env
    let path := addBufPath vq.useIndirect (outNum + inNum) env
    (result.rc = 0 ∨ result.rc = -1) ∧
      (result.rc = -1 ↔
        vq.numFree.toNat < path.needed (outNum + inNum)) ∧
      (result.rc = -1 → result.vq = vq ∧ Settled (resources result.ops)) ∧
      (result.rc = 0 → path = .direct → Settled (resources result.ops)) := by
  intro result path
  have hout : AddBufOutcome vq (outNum + inNum) path result := addBuf_outcome
  have hcode := hout.code
  have hheld := hout.held
  by_cases hroom : vq.numFree.toNat < path.needed (outNum + inNum)
  · rw [if_pos hroom] at hcode
    rw [hcode, if_neg (by decide)] at hheld
    refine ⟨.inr hcode, by simp [hcode, hroom],
      fun _ => ⟨hout.unchanged hcode, hheld⟩, ?_⟩
    intro hok
    rw [hcode] at hok
    exact absurd hok (by decide)
  · rw [if_neg hroom] at hcode
    rw [hcode, if_pos rfl] at hheld
    refine ⟨.inl hcode, by simp [hcode, hroom], ?_, ?_⟩
    · intro hfail
      rw [hcode] at hfail
      exact absurd hfail (by decide)
    · intro _ hdirect
      rw [hdirect] at hheld
      exact hheld

end Virtqueue

end VirtioScsi
