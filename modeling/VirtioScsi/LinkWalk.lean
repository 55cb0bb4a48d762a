import Mathlib.Data.List.Iterate
import Mathlib.Logic.Function.Basic
import Mathlib.Tactic

/-!
# Intrusive lists

A list of cells is threaded through memory by a link stored in each cell.
`Walk next cell p l q` says that the link `p` leads to the first cell of `l`,
every cell of `l` stores the link to the following one, and the last stores
`q`.  The same predicate covers lists that end at a null link and lists whose
last link is stale, and cells whose link is an index or an optional index.
-/

namespace LinkWalk

variable {ι κ : Type*} {next next' : ι → κ} {cell : ι → κ} {p q r : κ}
  {a : ι} {l l₁ l₂ : List ι}

def Walk (next cell : ι → κ) : κ → List ι → κ → Prop
  | p, [], q => p = q
  | p, a :: l, q => p = cell a ∧ Walk next cell (next a) l q

instance Walk.decidable [DecidableEq κ] :
    ∀ (p : κ) (l : List ι) (q : κ), Decidable (Walk next cell p l q)
  | p, [], q => inferInstanceAs (Decidable (p = q))
  | p, a :: l, q =>
      have := Walk.decidable (next a) l q
      inferInstanceAs (Decidable (p = cell a ∧ Walk next cell (next a) l q))

@[simp] theorem walk_nil : Walk next cell p [] q ↔ p = q := Iff.rfl

@[simp] theorem walk_cons :
    Walk next cell p (a :: l) q ↔ p = cell a ∧ Walk next cell (next a) l q :=
  Iff.rfl

theorem walk_append :
    Walk next cell p (l₁ ++ l₂) q ↔
      ∃ r, Walk next cell p l₁ r ∧ Walk next cell r l₂ q := by
  induction l₁ generalizing p with
  | nil => simp
  | cons a l₁ ih =>
      simp only [List.cons_append, walk_cons, ih]
      constructor
      · rintro ⟨hp, r, hfirst, hsecond⟩
        exact ⟨r, ⟨hp, hfirst⟩, hsecond⟩
      · rintro ⟨r, ⟨hp, hfirst⟩, hsecond⟩
        exact ⟨hp, r, hfirst, hsecond⟩

theorem Walk.congr (h : Walk next cell p l q)
    (heq : ∀ a ∈ l, next' a = next a) : Walk next' cell p l q := by
  induction l generalizing p with
  | nil => exact h
  | cons a l ih =>
      refine ⟨h.1, ?_⟩
      rw [heq a (by simp)]
      exact ih h.2 fun b hb => heq b (by simp [hb])

theorem Walk.end_unique (h : Walk next cell p l q)
    (h' : Walk next cell p l r) : q = r := by
  induction l generalizing p with
  | nil => exact h.symm.trans h'
  | cons a l ih => exact ih h.2 h'.2

theorem Walk.update [DecidableEq ι] (h : Walk next cell p l q)
    (hfresh : a ∉ l) (link : κ) :
    Walk (Function.update next a link) cell p l q := by
  apply h.congr
  intro b hb
  exact Function.update_of_ne (ne_of_mem_of_not_mem hb hfresh) _ _

theorem Walk.push [DecidableEq ι] (h : Walk next cell p l q)
    (hfresh : a ∉ l) :
    Walk (Function.update next a p) cell (cell a) (a :: l) q := by
  refine ⟨rfl, ?_⟩
  rw [Function.update_self]
  exact h.update hfresh p

/-- When links are the cells themselves, the walk is the iteration of the
link from its start. -/
theorem Walk.eq_iterate {next : ι → ι} {p q : ι}
    (h : Walk next id p l q) : l = List.iterate next p l.length := by
  induction l generalizing p with
  | nil => rfl
  | cons a l ih =>
      obtain ⟨hp, hrest⟩ := h
      have hp : p = a := hp
      subst hp
      rw [List.length_cons, List.iterate]
      congr 1
      exact ih hrest

/-- The cells reached from a link, for at most `fuel` of them. -/
def follow (next : ι → Option ι) : ℕ → Option ι → List ι
  | 0, _ => []
  | _ + 1, none => []
  | fuel + 1, some a => a :: follow next fuel (next a)

theorem Walk.eq_follow {next : ι → Option ι} {p : Option ι} {fuel : ℕ}
    (h : Walk next some p l none) (hfuel : l.length ≤ fuel) :
    follow next fuel p = l := by
  induction l generalizing p fuel with
  | nil =>
      rw [walk_nil] at h
      subst h
      cases fuel <;> rfl
  | cons a l ih =>
      cases fuel with
      | zero => simp at hfuel
      | succ fuel =>
          obtain ⟨hp, hrest⟩ := h
          subst hp
          simp only [follow, List.cons.injEq, true_and]
          exact ih hrest (by simpa using hfuel)

end LinkWalk
