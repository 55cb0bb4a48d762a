import Mathlib

/-!
# Words in memory and the two byte orders

A word of `n` bytes is laid out in memory by a big-endian processor and read
back either big-endian or little-endian.  The byte swap is the composition of
a big-endian store with a little-endian load, and everything the development
needs about it follows from the two round trips.
-/

namespace ByteOrder

abbrev Image (n : ℕ) := Fin n → BitVec 8

def storeLE (n : ℕ) (word : BitVec (8 * n)) : Image n :=
  fun i => word.extractLsb' (8 * i.val) 8

def loadLE (n : ℕ) (image : Image n) : BitVec (8 * n) :=
  BitVec.ofFnLE fun k => (image ⟨k.val / 8, by omega⟩).getLsbD (k.val % 8)

def storeBE (n : ℕ) (word : BitVec (8 * n)) : Image n :=
  fun i => storeLE n word i.rev

def loadBE (n : ℕ) (image : Image n) : BitVec (8 * n) :=
  loadLE n fun i => image i.rev

/-- What a little-endian reader sees in a word a big-endian processor stored. -/
def bswap (n : ℕ) (word : BitVec (8 * n)) : BitVec (8 * n) :=
  loadLE n (storeBE n word)

theorem loadLE_getLsbD (n : ℕ) (image : Image n) (k : ℕ) (hk : k < 8 * n) :
    (loadLE n image).getLsbD k =
      (image ⟨k / 8, by omega⟩).getLsbD (k % 8) := by
  rw [BitVec.getLsbD_eq_getElem hk]
  simp [loadLE]

@[simp] theorem loadLE_storeLE (n : ℕ) (word : BitVec (8 * n)) :
    loadLE n (storeLE n word) = word := by
  apply BitVec.eq_of_getLsbD_eq
  intro k hk
  rw [loadLE_getLsbD n _ k hk]
  have hbit : k % 8 < 8 := Nat.mod_lt _ (by norm_num)
  have hsum : 8 * (k / 8) + k % 8 = k := Nat.div_add_mod k 8
  simp [storeLE, hbit, hsum]

@[simp] theorem storeLE_loadLE (n : ℕ) (image : Image n) :
    storeLE n (loadLE n image) = image := by
  funext i
  apply BitVec.eq_of_getLsbD_eq
  intro b hb
  have hpos : 8 * i.val + b < 8 * n := by omega
  have hdiv : (8 * i.val + b) / 8 = i.val := by omega
  have hmod : (8 * i.val + b) % 8 = b := by omega
  simp only [storeLE, BitVec.getLsbD_extractLsb', hb, decide_true, Bool.true_and]
  rw [loadLE_getLsbD n _ _ hpos]
  simp only [hdiv, hmod]

@[simp] theorem loadBE_storeBE (n : ℕ) (word : BitVec (8 * n)) :
    loadBE n (storeBE n word) = word := by
  simp [loadBE, storeBE]

/-- Swapping twice restores the word: the little-endian store undoes the
little-endian load that the first swap ends with. -/
@[simp] theorem bswap_bswap (n : ℕ) (word : BitVec (8 * n)) :
    bswap n (bswap n word) = word := by
  have himage : storeBE n (bswap n word) = storeLE n word := by
    funext i
    simp [storeBE, bswap]
  calc
    bswap n (bswap n word) = loadLE n (storeBE n (bswap n word)) := rfl
    _ = loadLE n (storeLE n word) := by rw [himage]
    _ = word := loadLE_storeLE n word

example : bswap 2 0x1234#16 = 0x3412#16 := by decide +kernel
example : bswap 4 0x12345678#32 = 0x78563412#32 := by decide +kernel

end ByteOrder
