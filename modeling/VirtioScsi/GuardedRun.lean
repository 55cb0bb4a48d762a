import Mathlib.Tactic

/-!
# Runs of a partial step function

A system is a step function that refuses the events that are not enabled.  A
run feeds it a list of events; a guard restricts the steps a run may take by a
condition on the state before each of them.  The rules below are the only
inductions over runs in the development.
-/

namespace GuardedRun

variable {σ ε : Type*} {step : σ → ε → Option σ} {guard : σ → ε → Prop}
  {P : σ → Prop} {s s' : σ} {events : List ε}

def run (step : σ → ε → Option σ) : σ → List ε → Option σ
  | s, [] => some s
  | s, e :: es =>
      match step s e with
      | none => none
      | some s' => run step s' es

/-- Every step of the run meets the guard. -/
def Obeys (step : σ → ε → Option σ) (guard : σ → ε → Prop) :
    σ → List ε → Prop
  | _, [] => True
  | s, e :: es =>
      guard s e ∧
        match step s e with
        | none => True
        | some s' => Obeys step guard s' es

instance Obeys.decidable [∀ s e, Decidable (guard s e)] :
    ∀ (s : σ) (es : List ε), Decidable (Obeys step guard s es)
  | _, [] => isTrue trivial
  | s, e :: es =>
      match h : step s e with
      | none => decidable_of_iff (guard s e) (by simp [Obeys, h])
      | some s' =>
          have := Obeys.decidable s' es
          decidable_of_iff (guard s e ∧ Obeys step guard s' es)
            (by simp [Obeys, h])

@[simp] theorem run_nil : run step s [] = some s := rfl

theorem run_cons {e : ε} {es : List ε} :
    run step s (e :: es) = (step s e).bind fun s' => run step s' es := by
  cases h : step s e <;> simp [run, h]

theorem run_append {es es' : List ε} :
    run step s (es ++ es') = (run step s es).bind fun s' => run step s' es' := by
  induction es generalizing s with
  | nil => rfl
  | cons e es ih =>
      simp only [List.cons_append, run_cons]
      cases step s e with
      | none => rfl
      | some s₁ => exact ih

theorem run_trans {s₁ : σ} {es es' : List ε} (hfirst : run step s es = some s₁)
    (hrest : run step s₁ es' = some s') : run step s (es ++ es') = some s' := by
  rw [run_append, hfirst]
  exact hrest

theorem invariant
    (hstep : ∀ s e s', P s → guard s e → step s e = some s' → P s')
    (hobeys : Obeys step guard s events) (hs : P s)
    (hrun : run step s events = some s') : P s' := by
  induction events generalizing s with
  | nil =>
      rw [run_nil, Option.some.injEq] at hrun
      exact hrun ▸ hs
  | cons e es ih =>
      obtain ⟨hguard, hrest⟩ := hobeys
      cases h : step s e with
      | none => simp [run, h] at hrun
      | some s₁ =>
          simp only [run, h] at hrun
          rw [h] at hrest
          exact ih hrest (hstep s e s₁ hs hguard h) hrun

theorem invariant_of_step
    (hstep : ∀ s e s', P s → step s e = some s' → P s')
    (hs : P s) (hrun : run step s events = some s') : P s' := by
  induction events generalizing s with
  | nil =>
      rw [run_nil, Option.some.injEq] at hrun
      exact hrun ▸ hs
  | cons e es ih =>
      cases h : step s e with
      | none => simp [run, h] at hrun
      | some s₁ =>
          simp only [run, h] at hrun
          exact ih (hstep s e s₁ hs h) hrun

/-- What the steps of a run amount to, each seen with the states around it. -/
def total (step : σ → ε → Option σ) (amount : σ → ε → σ → ℕ) : σ → List ε → ℕ
  | _, [] => 0
  | s, e :: es =>
      match step s e with
      | none => 0
      | some s' => amount s e s' + total step amount s' es

/-- If the states do not matter, a total is a sum over the events. -/
theorem total_events {gain : ε → ℕ} (hrun : run step s events = some s') :
    total step (fun _ e _ => gain e) s events = (events.map gain).sum := by
  induction events generalizing s with
  | nil => rfl
  | cons e es ih =>
      cases h : step s e with
      | none => simp [run, h] at hrun
      | some s₁ =>
          simp only [run, h] at hrun
          rw [List.map_cons, List.sum_cons, ← ih hrun]
          simp only [total, h]

/-- The rule for bounded runs: what the steps cost is paid by the rank they
lower and by what some of them bring in. -/
theorem bounded_total {rank : σ → ℕ} {cost : ε → ℕ} {gain : σ → ε → σ → ℕ}
    (hstep : ∀ s e s', P s → guard s e → step s e = some s' →
      P s' ∧ cost e + rank s' ≤ rank s + gain s e s')
    (hobeys : Obeys step guard s events) (hs : P s)
    (hrun : run step s events = some s') :
    (events.map cost).sum + rank s' ≤ rank s + total step gain s events := by
  induction events generalizing s with
  | nil =>
      rw [run_nil, Option.some.injEq] at hrun
      subst hrun
      simp
  | cons e es ih =>
      obtain ⟨hguard, hrest⟩ := hobeys
      cases h : step s e with
      | none => simp [run, h] at hrun
      | some s₁ =>
          simp only [run, h] at hrun
          rw [h] at hrest
          obtain ⟨hs₁, hpaid⟩ := hstep s e s₁ hs hguard h
          have hlater := ih hrest hs₁ hrun
          simp only [total, h]
          rw [List.map_cons, List.sum_cons]
          omega

/-- The same where the event alone says what a step brings in. -/
theorem bounded {rank : σ → ℕ} {cost gain : ε → ℕ}
    (hstep : ∀ s e s', P s → guard s e → step s e = some s' →
      P s' ∧ cost e + rank s' ≤ rank s + gain e)
    (hobeys : Obeys step guard s events) (hs : P s)
    (hrun : run step s events = some s') :
    (events.map cost).sum + rank s' ≤ rank s + (events.map gain).sum := by
  have hbound := bounded_total hstep hobeys hs hrun
  rwa [total_events hrun] at hbound

/-- The rule for books: what every step adds to a quantity, the run adds. -/
theorem balanced {amount : σ → ℕ} {gain : ε → ℕ}
    (hstep : ∀ s e s', P s → guard s e → step s e = some s' →
      P s' ∧ amount s' = amount s + gain e)
    (hobeys : Obeys step guard s events) (hs : P s)
    (hrun : run step s events = some s') :
    amount s' = amount s + (events.map gain).sum := by
  induction events generalizing s with
  | nil =>
      rw [run_nil, Option.some.injEq] at hrun
      rw [hrun]
      rfl
  | cons e es ih =>
      obtain ⟨hguard, hrest⟩ := hobeys
      cases h : step s e with
      | none => simp [run, h] at hrun
      | some s₁ =>
          simp only [run, h] at hrun
          rw [h] at hrest
          obtain ⟨hs₁, hgained⟩ := hstep s e s₁ hs hguard h
          rw [ih hrest hs₁ hrun, hgained, List.map_cons, List.sum_cons, add_assoc]

theorem Obeys.mono {guard' : σ → ε → Prop}
    (hguard : ∀ s e, guard s e → guard' s e)
    (hobeys : Obeys step guard s events) : Obeys step guard' s events := by
  induction events generalizing s with
  | nil => trivial
  | cons e es ih =>
      refine ⟨hguard s e hobeys.1, ?_⟩
      have hrest := hobeys.2
      cases h : step s e with
      | none => trivial
      | some s₁ =>
          rw [h] at hrest
          exact ih hrest

theorem Obeys.of_invariant {guard' : σ → ε → Prop}
    (hstep : ∀ s e s', P s → guard s e → step s e = some s' → P s')
    (hguard : ∀ s e, P s → guard s e → guard' s e) (hs : P s)
    (hobeys : Obeys step guard s events) : Obeys step guard' s events := by
  induction events generalizing s with
  | nil => trivial
  | cons e es ih =>
      refine ⟨hguard s e hs hobeys.1, ?_⟩
      have hrest := hobeys.2
      cases h : step s e with
      | none => trivial
      | some s₁ =>
          rw [h] at hrest
          exact ih (hstep s e s₁ hs hobeys.1 h) hrest

theorem Obeys.of_forall {allowed : ε → Prop} (h : ∀ e ∈ events, allowed e) :
    Obeys step (fun _ e => allowed e) s events := by
  induction events generalizing s with
  | nil => trivial
  | cons e es ih =>
      rw [List.forall_mem_cons] at h
      refine ⟨h.1, ?_⟩
      cases step s e with
      | none => trivial
      | some s₁ => exact ih h.2

end GuardedRun
