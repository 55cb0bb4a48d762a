import Mathlib.Tactic

/-!
# Computations that read cells

A computation over cells is its value together with the cells it read, in
order.  Sequencing keeps both, so a bound on the cells read splits along the
computation: what is read before a value is known, and what is read after.
-/

namespace ReadTrace

universe u

structure Reading (ι β : Type u) where
  value : β
  reads : List ι

variable {ι β γ : Type u}

instance : Monad (Reading ι) where
  pure b := ⟨b, []⟩
  bind x f := ⟨(f x.value).value, x.reads ++ (f x.value).reads⟩

def cell (content : ι → β) (i : ι) : Reading ι β := ⟨content i, [i]⟩

@[simp] theorem value_pure (b : β) : (pure b : Reading ι β).value = b := rfl

@[simp] theorem value_bind (x : Reading ι β) (f : β → Reading ι γ) :
    (x >>= f).value = (f x.value).value := rfl

@[simp] theorem value_cell (content : ι → β) (i : ι) :
    (cell content i).value = content i := rfl

@[simp] theorem value_ite (c : Prop) [Decidable c] (x y : Reading ι β) :
    (if c then x else y).value = if c then x.value else y.value :=
  apply_ite Reading.value c x y

def Within (p : ι → Prop) (x : Reading ι β) : Prop :=
  ∀ i ∈ x.reads, p i

variable {p : ι → Prop}

@[simp] theorem within_pure (b : β) : Within p (pure b : Reading ι β) := by
  intro i hi
  cases hi

@[simp] theorem within_cell (content : ι → β) (i : ι) :
    Within p (cell content i) ↔ p i := by
  simp [Within, cell]

@[simp] theorem within_bind (x : Reading ι β) (f : β → Reading ι γ) :
    Within p (x >>= f) ↔ Within p x ∧ Within p (f x.value) :=
  List.forall_mem_append

@[simp] theorem within_ite (c : Prop) [Decidable c] (x y : Reading ι β) :
    Within p (if c then x else y) ↔
      (c → Within p x) ∧ (¬ c → Within p y) := by
  by_cases hc : c <;> simp [hc]

end ReadTrace
