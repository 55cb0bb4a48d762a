import VirtioScsi.GuardedRun

/-!
# Forward simulation

A concrete system is simulated by an abstract one if every guarded concrete
step is matched by a run of the abstract system that ends in a related state.
The events of the abstract run are read off the concrete step, so the order of
the abstract events is the order of the concrete steps.
-/

namespace Simulation

variable {σ ε τ δ : Type*} {step : σ → ε → Option σ} {guard : σ → ε → Prop}
  {spec : τ → δ → Option τ} {label : σ → ε → List δ} {R : σ → τ → Prop}

/-- The abstract events of a concrete run. -/
def labels (step : σ → ε → Option σ) (label : σ → ε → List δ) : σ → List ε → List δ
  | _, [] => []
  | s, e :: es =>
      match step s e with
      | none => []
      | some s' => label s e ++ labels step label s' es

def Simulates (step : σ → ε → Option σ) (guard : σ → ε → Prop) (spec : τ → δ → Option τ)
    (label : σ → ε → List δ) (R : σ → τ → Prop) : Prop :=
  ∀ s e s' t, R s t → guard s e → step s e = some s' →
    ∃ t', GuardedRun.run spec t (label s e) = some t' ∧ R s' t'

theorem Simulates.run {events : List ε} {s s' : σ} {t : τ}
    (hsim : Simulates step guard spec label R)
    (hobeys : GuardedRun.Obeys step guard s events) (hR : R s t)
    (hrun : GuardedRun.run step s events = some s') :
    ∃ t', GuardedRun.run spec t (labels step label s events) = some t' ∧ R s' t' := by
  induction events generalizing s t with
  | nil =>
      rw [GuardedRun.run_nil, Option.some.injEq] at hrun
      subst hrun
      exact ⟨t, rfl, hR⟩
  | cons e es ih =>
      obtain ⟨hguard, hrest⟩ := hobeys
      cases hstep : step s e with
      | none => simp [GuardedRun.run, hstep] at hrun
      | some s₁ =>
          simp only [GuardedRun.run, hstep] at hrun
          rw [hstep] at hrest
          obtain ⟨t₁, hspec, hR₁⟩ := hsim s e s₁ t hR hguard hstep
          obtain ⟨t', hspecs, hR'⟩ := ih hrest hR₁ hrun
          refine ⟨t', ?_, hR'⟩
          simp only [labels, hstep, GuardedRun.run_append, hspec, Option.bind_some]
          exact hspecs

end Simulation
