import Mathlib.Tactic

/-!
# Words rounded to an alignment

Rounding an address up with a mask, in machine words, for an alignment that is
a power of two.  As long as the address and the alignment fit the word, the
result is the next multiple: not below the address, and less than one
alignment above it.
-/

namespace Alignment

variable {w k : ℕ} {x align : BitVec w}

def roundDown (align x : BitVec w) : BitVec w := x &&& ~~~(align - 1)

def roundUp (align x : BitVec w) : BitVec w := roundDown align (x + align - 1)

theorem toNat_pred (halign : align.toNat = 2 ^ k) : (align - 1).toNat = 2 ^ k - 1 := by
  have hpos : 0 < 2 ^ k := Nat.two_pow_pos k
  have hlt := align.isLt
  have hone : (1 : BitVec w).toNat = 1 := by
    apply BitVec.toNat_one
    by_contra hzero
    have hw : w = 0 := by omega
    subst hw
    omega
  rw [BitVec.toNat_sub_of_le (by rw [BitVec.le_def, hone]; omega), hone, halign]

/-- The mask shifts the low bits out and zeros in. -/
theorem roundDown_eq_shift (halign : align.toNat = 2 ^ k) (x : BitVec w) :
    roundDown align x = (x >>> k) <<< k := by
  have hmask : align - 1 = BitVec.ofNat w (2 ^ k - 1) := by
    rw [← toNat_pred halign, BitVec.ofNat_toNat, BitVec.setWidth_eq]
  apply BitVec.eq_of_getLsbD_eq
  intro i hi
  rw [roundDown, hmask]
  simp only [BitVec.getLsbD_and, BitVec.getLsbD_not, BitVec.getLsbD_ofNat,
    Nat.testBit_two_pow_sub_one, BitVec.getLsbD_shiftLeft, BitVec.getLsbD_ushiftRight, hi,
    decide_true, Bool.true_and]
  by_cases hlow : i < k
  · simp [hlow]
  · have hback : k + (i - k) = i := by omega
    simp [hlow, hback]

theorem toNat_roundDown (halign : align.toNat = 2 ^ k) (x : BitVec w) :
    (roundDown align x).toNat = x.toNat / align.toNat * align.toNat := by
  have hle := Nat.div_mul_le_self x.toNat (2 ^ k)
  have hlt := x.isLt
  rw [roundDown_eq_shift halign, BitVec.toNat_shiftLeft, BitVec.toNat_ushiftRight, halign,
    Nat.shiftRight_eq_div_pow, Nat.shiftLeft_eq]
  exact Nat.mod_eq_of_lt (by omega)

theorem dvd_roundDown (halign : align.toNat = 2 ^ k) (x : BitVec w) :
    align.toNat ∣ (roundDown align x).toNat := by
  rw [toNat_roundDown halign]
  exact Nat.dvd_mul_left align.toNat (x.toNat / align.toNat)

theorem dvd_roundUp (halign : align.toNat = 2 ^ k) (x : BitVec w) :
    align.toNat ∣ (roundUp align x).toNat :=
  dvd_roundDown halign (x + align - 1)

theorem toNat_add_pred (halign : align.toNat = 2 ^ k) (hfits : x.toNat + align.toNat ≤ 2 ^ w) :
    (x + align - 1).toNat = x.toNat + align.toNat - 1 := by
  have hpos : 0 < 2 ^ k := Nat.two_pow_pos k
  have hassoc : x + align - 1 = x + (align - 1) := by
    rw [BitVec.sub_eq_add_neg, BitVec.sub_eq_add_neg, BitVec.add_assoc]
  rw [hassoc, BitVec.toNat_add, toNat_pred halign, Nat.mod_eq_of_lt (by omega)]
  omega

theorem toNat_roundUp (halign : align.toNat = 2 ^ k) (hfits : x.toNat + align.toNat ≤ 2 ^ w) :
    (roundUp align x).toNat = (x.toNat + align.toNat - 1) / align.toNat * align.toNat := by
  rw [roundUp, toNat_roundDown halign, toNat_add_pred halign hfits]

theorem le_roundUp (halign : align.toNat = 2 ^ k) (hfits : x.toNat + align.toNat ≤ 2 ^ w) :
    x.toNat ≤ (roundUp align x).toNat := by
  have hpos : 0 < align.toNat := halign ▸ Nat.two_pow_pos k
  have hmod := Nat.mod_lt (x.toNat + align.toNat - 1) hpos
  have hdiv := Nat.div_add_mod' (x.toNat + align.toNat - 1) align.toNat
  rw [toNat_roundUp halign hfits]
  omega

theorem roundUp_lt (halign : align.toNat = 2 ^ k) (hfits : x.toNat + align.toNat ≤ 2 ^ w) :
    (roundUp align x).toNat < x.toNat + align.toNat := by
  have hpos : 0 < align.toNat := halign ▸ Nat.two_pow_pos k
  have hle := Nat.div_mul_le_self (x.toNat + align.toNat - 1) align.toNat
  rw [toNat_roundUp halign hfits]
  omega

end Alignment
