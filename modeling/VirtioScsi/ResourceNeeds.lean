import Mathlib.Tactic
import VirtioScsi.GuardedRun
import VirtioScsi.ResourceTrace

/-!
# Resources that need each other

A resource may need others as long as it is held: a mapping needs its memory, a
library's interface needs the library.  What is held is supported if it holds
all it needs.  Actions that would leave it unsupported, and uses and releases of
what is not held, are refused, so a trace that runs is safe at every moment,
whatever happens between two of its actions.
-/

namespace ResourceNeeds

open ResourceTrace

inductive Action (ρ : Type*) where
  | acquire (r : ρ)
  | use (r : ρ)
  | release (r : ρ)
deriving DecidableEq, Repr

variable {ρ κ : Type*} [DecidableEq ρ] [DecidableEq κ] {needs : ρ → List ρ}
  {held held' base : Multiset ρ} {r : ρ}

/-- Everything that is needed is held. -/
def Supported (needs : ρ → List ρ) (held : Multiset ρ) : Prop :=
  ∀ r ∈ held, ∀ s ∈ needs r, s ∈ held

instance (needs : ρ → List ρ) (held : Multiset ρ) : Decidable (Supported needs held) :=
  inferInstanceAs (Decidable (∀ r ∈ held, _))

def step (needs : ρ → List ρ) (held : Multiset ρ) : Action ρ → Option (Multiset ρ)
  | .acquire r => if ∀ s ∈ needs r, s ∈ held then some (r ::ₘ held) else none
  | .use r => if r ∈ held then some held else none
  | .release r =>
      if r ∈ held ∧ Supported needs (held.erase r) then some (held.erase r) else none

abbrev run (needs : ρ → List ρ) : Multiset ρ → List (Action ρ) → Option (Multiset ρ) :=
  GuardedRun.run (step needs)

/-! ## Support -/

omit [DecidableEq ρ] in
theorem Supported.cons (hheld : Supported needs held) (hneeds : ∀ s ∈ needs r, s ∈ held) :
    Supported needs (r ::ₘ held) := by
  intro r' hr' s hs
  apply Multiset.mem_cons_of_mem
  rcases Multiset.mem_cons.mp hr' with heq | hr'
  · rw [heq] at hs
    exact hneeds s hs
  · exact hheld r' hr' s hs

omit [DecidableEq ρ] in
theorem Supported.add (hheld : Supported needs held) (hheld' : Supported needs held') :
    Supported needs (held + held') := by
  intro r hr s hs
  rcases Multiset.mem_add.mp hr with hr | hr
  · exact Multiset.mem_add.mpr (Or.inl (hheld r hr s hs))
  · exact Multiset.mem_add.mpr (Or.inr (hheld' r hr s hs))

theorem Supported.step {a : Action ρ} (hheld : Supported needs held)
    (hstep : step needs held a = some held') : Supported needs held' := by
  cases a with
  | acquire r =>
      rw [ResourceNeeds.step, Option.ite_none_right_eq_some] at hstep
      rw [← Option.some.inj hstep.2]
      exact hheld.cons hstep.1
  | use r =>
      rw [ResourceNeeds.step, Option.ite_none_right_eq_some] at hstep
      rwa [← Option.some.inj hstep.2]
  | release r =>
      rw [ResourceNeeds.step, Option.ite_none_right_eq_some] at hstep
      rw [← Option.some.inj hstep.2]
      exact hstep.1.2

/-- What is held is supported at every moment of a run. -/
theorem Supported.run {actions : List (Action ρ)} (hheld : Supported needs held)
    (hrun : run needs held actions = some held') : Supported needs held' := by
  apply GuardedRun.invariant_of_step (P := Supported needs) _ hheld hrun
  intro s a s' hs hstep
  exact hs.step hstep

/-! ## Runs -/

@[simp] theorem run_nil : run needs held [] = some held := rfl

theorem run_cons {a : Action ρ} {actions : List (Action ρ)} :
    run needs held (a :: actions) =
      (step needs held a).bind fun held' => run needs held' actions :=
  GuardedRun.run_cons

theorem run_trans {held'' : Multiset ρ} {actions actions' : List (Action ρ)}
    (hfirst : run needs held actions = some held')
    (hrest : run needs held' actions' = some held'') :
    run needs held (actions ++ actions') = some held'' :=
  GuardedRun.run_trans hfirst hrest

theorem run_acquire {actions : List (Action ρ)} (hneeds : ∀ s ∈ needs r, s ∈ held) :
    run needs held (.acquire r :: actions) = run needs (r ::ₘ held) actions := by
  rw [run_cons, step, if_pos hneeds, Option.bind_some]

theorem run_use {actions : List (Action ρ)} (hr : r ∈ held) :
    run needs held (.use r :: actions) = run needs held actions := by
  rw [run_cons, step, if_pos hr, Option.bind_some]

theorem run_release {actions : List (Action ρ)} (hheld : Supported needs held) :
    run needs (r ::ₘ held) (.release r :: actions) = run needs held actions := by
  rw [run_cons, step, Multiset.erase_cons_head,
    if_pos ⟨Multiset.mem_cons_self r held, hheld⟩, Option.bind_some]

/-- A resource of which `base` is all it needs comes and goes on top of it. -/
theorem run_bracket {actions : List (Action ρ)} (hheld : Supported needs held)
    (hneeds : ∀ s ∈ needs r, s ∈ held) :
    run needs held (.acquire r :: .release r :: actions) = run needs held actions := by
  rw [run_acquire hneeds, run_release hheld]

/-! ## Stacks -/

/-- Each resource of a stack needs only those below it and those of `base`. -/
def Stacked (needs : ρ → List ρ) (base : Multiset ρ) : List ρ → Prop
  | [] => True
  | r :: stack => (∀ s ∈ needs r, s ∈ (stack : Multiset ρ) + base) ∧ Stacked needs base stack

omit [DecidableEq ρ] in
theorem Supported.stack {stack : List ρ} (hbase : Supported needs base)
    (hstack : Stacked needs base stack) : Supported needs ((stack : Multiset ρ) + base) := by
  induction stack with
  | nil =>
      rw [Multiset.coe_nil, zero_add]
      exact hbase
  | cons r stack ih =>
      rw [← Multiset.cons_coe, Multiset.cons_add]
      exact (ih hstack.2).cons hstack.1

theorem run_acquires {stack : List ρ} (hstack : Stacked needs base stack) :
    run needs base (stack.reverse.map .acquire) = some ((stack : Multiset ρ) + base) := by
  induction stack with
  | nil => rw [Multiset.coe_nil, zero_add, List.reverse_nil, List.map_nil, run_nil]
  | cons r stack ih =>
      rw [List.reverse_cons, List.map_append, List.map_singleton, ← Multiset.cons_coe,
        Multiset.cons_add]
      apply run_trans (ih hstack.2)
      exact run_acquire hstack.1

theorem run_releases {stack : List ρ} (hbase : Supported needs base)
    (hstack : Stacked needs base stack) :
    run needs ((stack : Multiset ρ) + base) (stack.map .release) = some base := by
  induction stack with
  | nil => rw [Multiset.coe_nil, zero_add, List.map_nil, run_nil]
  | cons r stack ih =>
      rw [List.map_cons, ← Multiset.cons_coe, Multiset.cons_add,
        run_release (hbase.stack hstack.2)]
      exact ih hstack.2

/-- An action of a trace without needs. -/
def Action.ofOp (name : κ → ρ) : Op κ → Action ρ
  | .acquire r => .acquire (name r)
  | .release r => .release (name r)

omit [DecidableEq ρ] [DecidableEq κ] in
theorem Supported.map (name : κ → ρ) (hname : ∀ r, needs (name r) = [])
    (hbase : Supported needs base) (own : Multiset κ) :
    Supported needs (own.map name + base) := by
  apply Supported.add _ hbase
  intro r hr s hs
  obtain ⟨k, _, rfl⟩ := Multiset.mem_map.mp hr
  rw [hname k] at hs
  exact absurd hs List.not_mem_nil

/-- A trace that keeps its own balance may run anywhere. -/
theorem run_of_balance (name : κ → ρ) (hname : ∀ r, needs (name r) = [])
    (hbase : Supported needs base)
    {own own' : Multiset κ} {ops : List (Op κ)} (hbalance : balance own ops = some own') :
    run needs (own.map name + base) (ops.map (Action.ofOp name)) =
      some (own'.map name + base) := by
  induction ops generalizing own with
  | nil =>
      rw [balance_nil, Option.some.injEq] at hbalance
      rw [hbalance, List.map_nil, run_nil]
  | cons op ops ih =>
      cases op with
      | acquire r =>
          rw [balance_acquire] at hbalance
          rw [List.map_cons, Action.ofOp, run_acquire (by simp [hname]), ← Multiset.cons_add,
            ← Multiset.map_cons]
          exact ih hbalance
      | release r =>
          rw [balance] at hbalance
          by_cases hr : r ∈ own
          · rw [if_pos hr] at hbalance
            have hown := ih hbalance
            obtain ⟨rest, rfl⟩ := Multiset.exists_cons_of_mem hr
            rw [Multiset.erase_cons_head] at hown
            rw [List.map_cons, Action.ofOp, Multiset.map_cons, Multiset.cons_add,
              run_release (hbase.map name hname rest)]
            exact hown
          · rw [if_neg hr] at hbalance
            cases hbalance

end ResourceNeeds
