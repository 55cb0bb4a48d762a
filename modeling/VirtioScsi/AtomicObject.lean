import VirtioScsi.GuardedRun

/-!
# Atomic objects

An object that several callers use at once, each call taking effect at one
instant between its invocation and its return.  The order of these instants is
the log.  In every run the log is a sequential history of the object that ends
in its present state, and every call that returned is in it with the result it
returned: what a system is shown to simulate this object is linearizable.
-/

namespace AtomicObject

variable {κ ω φ ρ σ : Type*}

/-- A call of an operation, with its result once it has taken effect. -/
structure Call (ω ρ : Type*) where
  op : ω
  result : Option ρ
deriving DecidableEq, Repr

/-- An effect: the operation, what the environment decided about it, and the
result. -/
structure Effect (ω φ ρ : Type*) where
  op : ω
  fate : φ
  result : ρ
deriving DecidableEq, Repr

structure State (κ ω φ ρ σ : Type*) where
  object : σ
  calls : κ → Option (Call ω ρ)
  log : List (Effect ω φ ρ)
  returned : List (κ × ω × ρ)

inductive Action (κ ω φ : Type*) where
  | invoke (k : κ) (op : ω)
  | commit (k : κ) (fate : φ)
  | ret (k : κ)
deriving DecidableEq, Repr

def initial (object : σ) : State κ ω φ ρ σ where
  object := object
  calls := fun _ => none
  log := []
  returned := []

variable [DecidableEq κ]

def step (apply : σ → ω → φ → σ × ρ) (s : State κ ω φ ρ σ) :
    Action κ ω φ → Option (State κ ω φ ρ σ)
  | .invoke k op =>
      match s.calls k with
      | some _ => none
      | none => some { s with calls := Function.update s.calls k (some ⟨op, none⟩) }
  | .commit k fate =>
      match s.calls k with
      | some ⟨op, none⟩ =>
          let applied := apply s.object op fate
          some { s with
            object := applied.1
            calls := Function.update s.calls k (some ⟨op, some applied.2⟩)
            log := s.log ++ [⟨op, fate, applied.2⟩] }
      | _ => none
  | .ret k =>
      match s.calls k with
      | some ⟨op, some result⟩ =>
          some { s with
            calls := Function.update s.calls k none
            returned := s.returned ++ [(k, op, result)] }
      | _ => none

/-- A sequential history of the object from one state to another. -/
def Legal (apply : σ → ω → φ → σ × ρ) : σ → List (Effect ω φ ρ) → σ → Prop
  | object, [], object' => object = object'
  | object, e :: log, object' =>
      (apply object e.op e.fate).2 = e.result ∧
        Legal apply (apply object e.op e.fate).1 log object'

variable {apply : σ → ω → φ → σ × ρ} {s s' : State κ ω φ ρ σ} {object object' : σ}
  {log : List (Effect ω φ ρ)} {k : κ} {op : ω} {fate : φ}

theorem Legal.commit (h : Legal apply object log object') (op : ω) (fate : φ) :
    Legal apply object (log ++ [⟨op, fate, (apply object' op fate).2⟩])
      (apply object' op fate).1 := by
  induction log generalizing object with
  | nil =>
      cases h
      exact ⟨rfl, rfl⟩
  | cons e log ih => exact ⟨h.1, ih h.2⟩

/-! ## Steps -/

theorem step_invoke (h : s.calls k = none) :
    step apply s (.invoke k op) =
      some { s with calls := Function.update s.calls k (some ⟨op, none⟩) } := by
  simp [step, h]

theorem step_commit (h : s.calls k = some ⟨op, none⟩) (fate : φ) :
    step apply s (.commit k fate) = some { s with
      object := (apply s.object op fate).1
      calls := Function.update s.calls k (some ⟨op, some (apply s.object op fate).2⟩)
      log := s.log ++ [⟨op, fate, (apply s.object op fate).2⟩] } := by
  simp [step, h]

theorem step_ret {result : ρ} (h : s.calls k = some ⟨op, some result⟩) :
    step apply s (.ret k) = some { s with
      calls := Function.update s.calls k none
      returned := s.returned ++ [(k, op, result)] } := by
  simp [step, h]

/-! ## Runs -/

/-- The result of a call that took effect and has not returned. -/
def Call.effect : Option (Call ω ρ) → Multiset (ω × ρ)
  | some ⟨op, some result⟩ => {(op, result)}
  | _ => 0

@[simp] theorem effect_none : Call.effect (none : Option (Call ω ρ)) = 0 := rfl

@[simp] theorem effect_pending (op : ω) :
    Call.effect (some ⟨op, none⟩ : Option (Call ω ρ)) = 0 := rfl

@[simp] theorem effect_done (op : ω) (result : ρ) :
    Call.effect (some ⟨op, some result⟩) = {(op, result)} := rfl

variable [Fintype κ]

/-- What holds after every run: the log explains the state and the results. -/
structure Explained (apply : σ → ω → φ → σ × ρ) (object : σ) (s : State κ ω φ ρ σ) :
    Prop where
  legal : Legal apply object s.log s.object
  results : (s.log.map fun e => (e.op, e.result) : Multiset (ω × ρ)) =
    (s.returned.map Prod.snd : Multiset (ω × ρ)) + ∑ k, Call.effect (s.calls k)

theorem sum_effect_update (calls : κ → Option (Call ω ρ)) (k : κ) (call : Option (Call ω ρ)) :
    (∑ j, Call.effect (Function.update calls k call j)) + Call.effect (calls k) =
      (∑ j, Call.effect (calls j)) + Call.effect call := by
  have hrest : ∑ j ∈ Finset.univ.erase k, Call.effect (Function.update calls k call j) =
      ∑ j ∈ Finset.univ.erase k, Call.effect (calls j) := by
    apply Finset.sum_congr rfl
    intro j hj
    rw [Function.update_of_ne (Finset.ne_of_mem_erase hj)]
  rw [← Finset.add_sum_erase Finset.univ _ (Finset.mem_univ k),
    ← Finset.add_sum_erase Finset.univ (fun j => Call.effect (calls j)) (Finset.mem_univ k),
    hrest, Function.update_self]
  abel

theorem Explained.step {a : Action κ ω φ} (h : Explained apply object s)
    (hstep : AtomicObject.step apply s a = some s') : Explained apply object s' := by
  cases a with
  | invoke k op =>
      unfold AtomicObject.step at hstep
      cases hcall : s.calls k with
      | some call => simp [hcall] at hstep
      | none =>
          simp only [hcall, Option.some.injEq] at hstep
          subst hstep
          have hsum := sum_effect_update s.calls k (some ⟨op, none⟩)
          rw [hcall, effect_none, effect_pending, add_zero, add_zero] at hsum
          exact ⟨h.legal, by rw [h.results, hsum]⟩
  | commit k fate =>
      unfold AtomicObject.step at hstep
      match hcall : s.calls k with
      | none => simp [hcall] at hstep
      | some ⟨op, some result⟩ => simp [hcall] at hstep
      | some ⟨op, none⟩ =>
          simp only [hcall, Option.some.injEq] at hstep
          subst hstep
          have hsum := sum_effect_update s.calls k
            (some ⟨op, some (apply s.object op fate).2⟩)
          rw [hcall, effect_pending, effect_done, add_zero] at hsum
          refine ⟨h.legal.commit op fate, ?_⟩
          rw [hsum, ← add_assoc, ← h.results, List.map_append, ← Multiset.coe_add]
          rfl
  | ret k =>
      unfold AtomicObject.step at hstep
      match hcall : s.calls k with
      | none => simp [hcall] at hstep
      | some ⟨op, none⟩ => simp [hcall] at hstep
      | some ⟨op, some result⟩ =>
          simp only [hcall, Option.some.injEq] at hstep
          subst hstep
          have hsum := sum_effect_update s.calls k none
          rw [hcall, effect_none, effect_done, add_zero] at hsum
          refine ⟨h.legal, ?_⟩
          rw [h.results, ← hsum, List.map_append, ← Multiset.coe_add, List.map_singleton,
            Multiset.coe_singleton]
          abel

end AtomicObject
