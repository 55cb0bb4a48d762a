import Mathlib.Tactic

/-!
# Memory written and read through lists of cells

A memory maps cells to values.  A list of cells is written or read in its
order, as a scatter-gather transfer does; a write ends with the shorter of its
two lists.
-/

namespace CellMemory

variable {κ β : Type*} [DecidableEq κ]

def write : (κ → β) → List κ → List β → κ → β
  | mem, cell :: cells, value :: values =>
      write (Function.update mem cell value) cells values
  | mem, _, _ => mem

def copy (mem : κ → β) (src dst : List κ) : κ → β :=
  write mem dst (src.map mem)

@[simp] theorem write_nil (mem : κ → β) (values : List β) :
    write mem [] values = mem := by
  simp [write]

theorem write_of_notMem {mem : κ → β} {cells : List κ} {values : List β} {cell : κ}
    (h : cell ∉ cells) : write mem cells values cell = mem cell := by
  induction cells generalizing mem values with
  | nil => rw [write_nil]
  | cons first cells ih =>
      cases values with
      | nil => simp [write]
      | cons value values =>
          rw [List.mem_cons, not_or] at h
          rw [write, ih h.2, Function.update_of_ne h.1]

theorem write_getElem (mem : κ → β) {cells : List κ} (values : List β)
    (hnodup : cells.Nodup) {i : ℕ} (hi : i < cells.length) :
    write mem cells values cells[i] = values[i]?.getD (mem cells[i]) := by
  induction cells generalizing mem values i with
  | nil => exact absurd hi (Nat.not_lt_zero i)
  | cons first cells ih =>
      rw [List.nodup_cons] at hnodup
      cases values with
      | nil => simp [write]
      | cons value values =>
          rw [write]
          cases i with
          | zero =>
              rw [List.getElem_cons_zero, write_of_notMem hnodup.1,
                Function.update_self]
              rfl
          | succ i =>
              rw [List.length_cons, Nat.add_lt_add_iff_right] at hi
              have hne : cells[i] ≠ first := by
                intro heq
                rw [← heq] at hnodup
                exact hnodup.1 (List.getElem_mem hi)
              rw [List.getElem_cons_succ, ih _ _ hnodup.2 hi, Function.update_of_ne hne,
                List.getElem?_cons_succ]

theorem write_append (mem : κ → β) {cells cells' : List κ} {values values' : List β}
    (hlength : cells.length = values.length) :
    write mem (cells ++ cells') (values ++ values') =
      write (write mem cells values) cells' values' := by
  induction cells generalizing mem values with
  | nil =>
      rw [List.eq_nil_of_length_eq_zero hlength.symm, write_nil]
      rfl
  | cons cell cells ih =>
      cases values with
      | nil => cases hlength
      | cons value values => exact ih _ (Nat.succ.inj hlength)

theorem map_write_of_disjoint {mem : κ → β} {cells others : List κ} {values : List β}
    (hdisjoint : ∀ cell ∈ others, cell ∉ cells) :
    others.map (write mem cells values) = others.map mem :=
  List.map_congr_left fun cell hmem => write_of_notMem (hdisjoint cell hmem)

theorem map_write (mem : κ → β) {cells : List κ} {values : List β} (hnodup : cells.Nodup)
    (hlength : cells.length = values.length) :
    cells.map (write mem cells values) = values := by
  apply List.ext_getElem
  · rw [List.length_map, hlength]
  · intro i hi hi'
    rw [List.length_map] at hi
    rw [List.getElem_map, write_getElem mem values hnodup hi, List.getElem?_eq_getElem hi']
    rfl

theorem copy_of_notMem {mem : κ → β} {src dst : List κ} {cell : κ}
    (h : cell ∉ dst) : copy mem src dst cell = mem cell :=
  write_of_notMem h

theorem copy_getElem (mem : κ → β) {src dst : List κ} (hnodup : dst.Nodup)
    {i : ℕ} (hi : i < dst.length) (hsrc : i < src.length) :
    copy mem src dst dst[i] = mem src[i] := by
  unfold copy
  rw [write_getElem mem _ hnodup hi, List.getElem?_map, List.getElem?_eq_getElem hsrc]
  rfl

theorem map_copy {mem : κ → β} {src dst : List κ} (hnodup : dst.Nodup)
    (hlength : src.length = dst.length) :
    dst.map (copy mem src dst) = src.map mem := by
  apply List.ext_getElem
  · simp [hlength]
  · intro i hi hi'
    rw [List.length_map] at hi hi'
    rw [List.getElem_map, List.getElem_map, copy_getElem mem hnodup hi hi']

end CellMemory
