import Mathlib.Tactic

/-!
# Items and the places that hold them

Every known item lies in exactly one place, and there once.  Items come in,
move and leave one at a time; each rule replaces the contents of the places
concerned.
-/

namespace Placement

variable {π ι : Type*}

structure Placed (at_ : π → List ι) (known : ι → Prop) : Prop where
  nodup : ∀ p, (at_ p).Nodup
  unique : ∀ p q i, i ∈ at_ p → i ∈ at_ q → p = q
  known_iff : ∀ i, known i ↔ ∃ p, i ∈ at_ p

variable {at_ : π → List ι} {known known' : ι → Prop} {p q : π} {i : ι}
  {l m : List ι}

theorem placed_nil : Placed (fun _ : π => ([] : List ι)) (fun _ => False) where
  nodup := fun _ => List.nodup_nil
  unique := fun _ _ _ h => absurd h List.not_mem_nil
  known_iff := by simp

theorem Placed.of_known (h : Placed at_ known) (hknown : ∀ i, known' i ↔ known i) :
    Placed at_ known' :=
  ⟨h.nodup, h.unique, fun i => (hknown i).trans (h.known_iff i)⟩

variable [DecidableEq π]

theorem Placed.add (h : Placed at_ known) (hnew : ¬ known i)
    (hl : l.Perm (i :: at_ p)) (hknown : ∀ j, known' j ↔ j = i ∨ known j) :
    Placed (Function.update at_ p l) known' where
  nodup := by
    intro q
    by_cases hq : q = p
    · subst hq
      rw [Function.update_self, hl.nodup_iff, List.nodup_cons]
      exact ⟨fun hmem => hnew ((h.known_iff i).mpr ⟨q, hmem⟩), h.nodup q⟩
    · rw [Function.update_of_ne hq]
      exact h.nodup q
  unique := by
    have hmem : ∀ q j, j ∈ Function.update at_ p l q → (j = i ∧ q = p) ∨ j ∈ at_ q := by
      intro q j hj
      by_cases hq : q = p
      · subst hq
        rw [Function.update_self, hl.mem_iff, List.mem_cons] at hj
        exact hj.imp_left fun hji => ⟨hji, rfl⟩
      · rw [Function.update_of_ne hq] at hj
        exact .inr hj
    intro q q' j hj hj'
    rcases hmem q j hj with ⟨hji, rfl⟩ | hold
    · rcases hmem q' j hj' with ⟨-, rfl⟩ | hold'
      · rfl
      · exact absurd ((h.known_iff i).mpr ⟨q', hji ▸ hold'⟩) hnew
    · rcases hmem q' j hj' with ⟨hji, rfl⟩ | hold'
      · exact absurd ((h.known_iff i).mpr ⟨q, hji ▸ hold⟩) hnew
      · exact h.unique q q' j hold hold'
  known_iff := by
    intro j
    rw [hknown, h.known_iff]
    constructor
    · rintro (rfl | ⟨q, hj⟩)
      · exact ⟨p, by rw [Function.update_self, hl.mem_iff]; exact List.mem_cons_self⟩
      · by_cases hq : q = p
        · subst hq
          exact ⟨q, by rw [Function.update_self, hl.mem_iff]; exact List.mem_cons_of_mem _ hj⟩
        · exact ⟨q, by rwa [Function.update_of_ne hq]⟩
    · rintro ⟨q, hj⟩
      by_cases hq : q = p
      · subst hq
        rw [Function.update_self, hl.mem_iff, List.mem_cons] at hj
        exact hj.imp_right fun hmem => ⟨q, hmem⟩
      · rw [Function.update_of_ne hq] at hj
        exact .inr ⟨q, hj⟩

theorem Placed.remove (h : Placed at_ known) (hl : (at_ p).Perm (i :: l))
    (hknown : ∀ j, known' j ↔ known j ∧ j ≠ i) :
    Placed (Function.update at_ p l) known' := by
  have hnodup : (i :: l).Nodup := hl.nodup_iff.mp (h.nodup p)
  have hmem : ∀ q j, j ∈ Function.update at_ p l q ↔ j ∈ at_ q ∧ j ≠ i := by
    intro q j
    by_cases hq : q = p
    · subst hq
      rw [Function.update_self, hl.mem_iff, List.mem_cons]
      constructor
      · intro hj
        refine ⟨.inr hj, ?_⟩
        rintro rfl
        exact (List.nodup_cons.mp hnodup).1 hj
      · rintro ⟨hj, hne⟩
        exact hj.resolve_left hne
    · rw [Function.update_of_ne hq]
      refine ⟨fun hj => ⟨hj, ?_⟩, And.left⟩
      rintro rfl
      have hi : j ∈ at_ p := hl.mem_iff.mpr List.mem_cons_self
      exact hq (h.unique q p j hj hi)
  refine ⟨fun q => ?_, fun q q' j hj hj' => ?_, fun j => ?_⟩
  · by_cases hq : q = p
    · subst hq
      rw [Function.update_self]
      exact (List.nodup_cons.mp hnodup).2
    · rw [Function.update_of_ne hq]
      exact h.nodup q
  · exact h.unique q q' j ((hmem q j).mp hj).1 ((hmem q' j).mp hj').1
  · rw [hknown, h.known_iff]
    constructor
    · rintro ⟨⟨q, hj⟩, hne⟩
      exact ⟨q, (hmem q j).mpr ⟨hj, hne⟩⟩
    · rintro ⟨q, hj⟩
      obtain ⟨hold, hne⟩ := (hmem q j).mp hj
      exact ⟨⟨q, hold⟩, hne⟩

theorem Placed.move (h : Placed at_ known) (hpq : q ≠ p)
    (hl : (at_ p).Perm (i :: l)) (hm : m.Perm (i :: at_ q)) :
    Placed (Function.update (Function.update at_ p l) q m) known := by
  have hi : known i := (h.known_iff i).mpr ⟨p, hl.mem_iff.mpr List.mem_cons_self⟩
  have hleft : Placed (Function.update at_ p l) fun j => known j ∧ j ≠ i :=
    h.remove hl fun _ => Iff.rfl
  refine hleft.add (i := i) (fun hknown => hknown.2 rfl) ?_ ?_
  · rwa [Function.update_of_ne hpq]
  · intro j
    by_cases hj : j = i
    · simp [hj, hi]
    · simp [hj]

end Placement
