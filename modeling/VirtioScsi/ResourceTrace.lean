import Mathlib.Tactic

/-!
# Traces of acquired and released resources

A trace is replayed on the stack of the resources held.  A release must name
the resource acquired last among those still held, so a trace that replays to
the empty stack released everything, in the opposite order.  Where the order
does not matter, the resources held are a multiset: a balance exists if nothing
is released that is not held, and an empty one means that everything acquired
was released exactly once.
-/

namespace ResourceTrace

inductive Op (ρ : Type*) where
  | acquire (r : ρ)
  | release (r : ρ)
deriving DecidableEq, Repr

variable {ρ : Type*} [DecidableEq ρ]

/-- The resources held after a trace; `none` if a release has no match. -/
def replay : List ρ → List (Op ρ) → Option (List ρ)
  | held, [] => some held
  | held, .acquire r :: ops => replay (r :: held) ops
  | [], .release _ :: _ => none
  | top :: held, .release r :: ops =>
      if top = r then replay held ops else none

def Settled (ops : List (Op ρ)) : Prop :=
  replay [] ops = some []

instance (ops : List (Op ρ)) : Decidable (Settled ops) :=
  inferInstanceAs (Decidable (replay [] ops = some []))

@[simp] theorem replay_nil (held : List ρ) : replay held [] = some held := by
  cases held <;> rfl

@[simp] theorem replay_acquire (held : List ρ) (r : ρ) (ops : List (Op ρ)) :
    replay held (.acquire r :: ops) = replay (r :: held) ops := by
  cases held <;> rfl

@[simp] theorem replay_release (held : List ρ) (r : ρ) (ops : List (Op ρ)) :
    replay (r :: held) (.release r :: ops) = replay held ops := by
  simp [replay]

@[simp] theorem settled_nil : Settled ([] : List (Op ρ)) := rfl

theorem replay_append (held : List ρ) (ops ops' : List (Op ρ)) :
    replay held (ops ++ ops') =
      (replay held ops).bind fun held' => replay held' ops' := by
  induction ops generalizing held with
  | nil => simp
  | cons op ops ih =>
      cases op with
      | acquire r =>
          rw [List.cons_append, replay_acquire, replay_acquire]
          exact ih (r :: held)
      | release r =>
          cases held with
          | nil => rfl
          | cons top held =>
              by_cases htop : top = r
              · rw [htop, List.cons_append, replay_release, replay_release]
                exact ih held
              · simp [replay, htop]

/-- What a trace does, it does on top of whatever else is held. -/
theorem replay_base {held held' : List ρ} {ops : List (Op ρ)} (base : List ρ)
    (h : replay held ops = some held') :
    replay (held ++ base) ops = some (held' ++ base) := by
  induction ops generalizing held with
  | nil =>
      rw [replay_nil, Option.some.injEq] at h
      rw [replay_nil, h]
  | cons op ops ih =>
      cases op with
      | acquire r =>
          rw [replay_acquire] at h ⊢
          exact ih h
      | release r =>
          cases held with
          | nil => simp [replay] at h
          | cons top held =>
              by_cases htop : top = r
              · rw [htop, replay_release] at h
                rw [htop, List.cons_append, replay_release]
                exact ih h
              · simp [replay, htop] at h

/-- A trace that leaves `held` behind and one that releases `held` again make
a settled one. -/
theorem Settled.of_append {ops ops' : List (Op ρ)} {held : List ρ}
    (hfirst : replay [] ops = some held)
    (hrest : replay held ops' = some []) : Settled (ops ++ ops') := by
  unfold Settled
  rw [replay_append, hfirst]
  exact hrest

/-! ## In any order -/

/-- The resources held after a trace that may release them in any order;
`none` if one is released that is not held. -/
def balance : Multiset ρ → List (Op ρ) → Option (Multiset ρ)
  | held, [] => some held
  | held, .acquire r :: ops => balance (r ::ₘ held) ops
  | held, .release r :: ops =>
      if r ∈ held then balance (held.erase r) ops else none

/-- Everything acquired was released exactly once. -/
def AllReleased (ops : List (Op ρ)) : Prop :=
  balance 0 ops = some 0

@[simp] theorem balance_nil (held : Multiset ρ) : balance held [] = some held := by
  simp [balance]

@[simp] theorem balance_acquire (held : Multiset ρ) (r : ρ) (ops : List (Op ρ)) :
    balance held (.acquire r :: ops) = balance (r ::ₘ held) ops := by
  simp [balance]

@[simp] theorem balance_release (held : Multiset ρ) (r : ρ) (ops : List (Op ρ)) :
    balance (r ::ₘ held) (.release r :: ops) = balance held ops := by
  simp [balance]

@[simp] theorem balance_release_singleton (r : ρ) (ops : List (Op ρ)) :
    balance {r} (.release r :: ops) = balance 0 ops := by
  rw [← Multiset.cons_zero, balance_release]

theorem balance_append (held : Multiset ρ) (ops ops' : List (Op ρ)) :
    balance held (ops ++ ops') =
      (balance held ops).bind fun held' => balance held' ops' := by
  induction ops generalizing held with
  | nil => simp
  | cons op ops ih =>
      cases op with
      | acquire r =>
          rw [List.cons_append, balance_acquire, balance_acquire]
          exact ih (r ::ₘ held)
      | release r =>
          simp only [List.cons_append, balance]
          by_cases hheld : r ∈ held
          · rw [if_pos hheld, if_pos hheld]
            exact ih (held.erase r)
          · rw [if_neg hheld, if_neg hheld]
            rfl

theorem balance_releases (resources : List ρ) (base : Multiset ρ) :
    balance ((resources : Multiset ρ) + base) (resources.map .release) = some base := by
  induction resources with
  | nil => rw [Multiset.coe_nil, zero_add, List.map_nil, balance_nil]
  | cons r resources ih =>
      rw [← Multiset.cons_coe, Multiset.cons_add, List.map_cons, balance_release]
      exact ih

/-- What a trace does, it does beside whatever else is held. -/
theorem balance_frame {held held' : Multiset ρ} {ops : List (Op ρ)}
    (h : balance held ops = some held') (base : Multiset ρ) :
    balance (held + base) ops = some (held' + base) := by
  induction ops generalizing held with
  | nil =>
      rw [balance_nil, Option.some.injEq] at h
      rw [balance_nil, h]
  | cons op ops ih =>
      cases op with
      | acquire r =>
          rw [balance_acquire] at h ⊢
          rw [← Multiset.cons_add]
          exact ih h
      | release r =>
          simp only [balance] at h ⊢
          by_cases hheld : r ∈ held
          · rw [if_pos hheld] at h
            rw [if_pos (Multiset.mem_add.mpr (.inl hheld)),
              Multiset.erase_add_left_pos _ hheld]
            exact ih h
          · rw [if_neg hheld] at h
            cases h

theorem balance_trans {held held' held'' : Multiset ρ} {ops ops' : List (Op ρ)}
    (hfirst : balance held ops = some held')
    (hrest : balance held' ops' = some held'') :
    balance held (ops ++ ops') = some held'' := by
  rw [balance_append, hfirst]
  exact hrest

end ResourceTrace
