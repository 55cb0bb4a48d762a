import Mathlib.Data.BitVec
import Mathlib.Data.Nat.ModEq
import Mathlib.Tactic

/-!
# Free-running counters over a ring

A ring of `size` cells is addressed by free-running counters reduced modulo
`size`.  The part of the ring between a consumer position and a producer
position holds a list; pushing writes the cell after the window and popping
moves the consumer.  The counters themselves are machine words, compared by
equality: both facts survive the wrap as long as `size` divides the range of
the word and the window is shorter than that range.
-/

namespace RingWindow

section Cells

variable {β γ : Type*} {ring : ℕ → β} {size lo : ℕ} {xs : List β} {x : β}

def Holds (ring : ℕ → β) (size lo : ℕ) (xs : List β) : Prop :=
  ∀ i (hi : i < xs.length), ring ((lo + i) % size) = xs[i]

theorem Holds.nil : Holds ring size lo [] := by
  intro i hi
  simp at hi

theorem Holds.head (h : Holds ring size lo (x :: xs)) :
    ring (lo % size) = x := by
  have hfirst := h 0 (by simp)
  rwa [Nat.add_zero] at hfirst

theorem Holds.pop (h : Holds ring size lo (x :: xs)) :
    Holds ring size (lo + 1) xs := by
  intro i hi
  have hnext := h (i + 1) (by simpa using hi)
  simpa [Nat.add_assoc, Nat.add_comm 1 i] using hnext

theorem cell_ne {i j : ℕ} (hij : i < j) (hturn : j < i + size) :
    i % size ≠ j % size := by
  intro heq
  have hdvd : size ∣ j - i := (Nat.modEq_iff_dvd' hij.le).mp heq
  have hle := Nat.le_of_dvd (by omega) hdvd
  omega

/-- Writing behind the window leaves the cells of the window alone. -/
theorem Holds.push (h : Holds ring size lo xs) (hroom : xs.length < size) :
    Holds (Function.update ring ((lo + xs.length) % size) x) size lo
      (xs ++ [x]) := by
  intro i hi
  by_cases hold : i < xs.length
  · have hcell : (lo + i) % size ≠ (lo + xs.length) % size :=
      cell_ne (by omega) (by omega)
    rw [Function.update_of_ne hcell, List.getElem_append_left hold]
    exact h i hold
  · have hlast : i = xs.length := by
      have : i < xs.length + 1 := by simpa using hi
      omega
    subst hlast
    simp

theorem Holds.of_eq {ring' : ℕ → β} (h : Holds ring size lo xs)
    (heq : ∀ i, i < xs.length →
      ring' ((lo + i) % size) = ring ((lo + i) % size)) :
    Holds ring' size lo xs := by
  intro i hi
  rw [heq i hi]
  exact h i hi

end Cells

section Counters

variable {w : ℕ}

/-- Reducing the counter before addressing the ring loses nothing. -/
theorem counter_cell {size : ℕ} (hdvd : size ∣ 2 ^ w) (n : ℕ) :
    (BitVec.ofNat w n).toNat % size = n % size := by
  rw [BitVec.toNat_ofNat]
  exact Nat.mod_mod_of_dvd n hdvd

/-- The difference of two truncated counters is that of the counters, while it is short. -/
theorem counter_sub {a b : ℕ} (hab : a ≤ b) (hshort : b - a < 2 ^ w) :
    (BitVec.ofNat w b - BitVec.ofNat w a).toNat = b - a := by
  have hsplit : BitVec.ofNat w b = BitVec.ofNat w a + BitVec.ofNat w (b - a) := by
    rw [← BitVec.ofNat_add, Nat.add_sub_cancel' hab]
  rw [hsplit, add_sub_cancel_left, BitVec.toNat_ofNat,
    Nat.mod_eq_of_lt hshort]

/-- Two counters less than one range apart are equal only when the counts
are: the wrap cannot confuse a full window with an empty one. -/
theorem counter_eq_iff {a b : ℕ} (hab : a ≤ b) (hshort : b - a < 2 ^ w) :
    BitVec.ofNat w a = BitVec.ofNat w b ↔ a = b := by
  constructor
  · intro heq
    have hsub := counter_sub hab hshort
    rw [heq] at hsub
    simp at hsub
    omega
  · intro heq
    rw [heq]

@[simp] theorem counter_succ (n : ℕ) :
    BitVec.ofNat w n + 1 = BitVec.ofNat w (n + 1) := by
  rw [BitVec.ofNat_add]
  rfl

end Counters

end RingWindow
