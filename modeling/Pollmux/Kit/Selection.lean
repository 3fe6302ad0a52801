import Mathlib.Data.List.Perm.Basic
import Mathlib.Data.List.Sort

/-!
# Taking the least

A sort that is not stable may put elements of equal key in any order, so what it
answers is known only as a permutation without inversions. `Sorting` is any such
sort; the first elements of its answer are the least, whatever it does with ties
(`Sorting.le_of_split`). What is sorted by one of its parts comes with the others
(`exists_map_eq_of_perm`).
-/

namespace Kit

variable {α : Type*}

/-- A sort by integer keys: a permutation in which no element comes before one of a lesser key. -/
structure Sorting (α : Type*) where
  sort : (α → Int) → List α → List α
  perm : ∀ key xs, (sort key xs).Perm xs
  sorted : ∀ key xs, (sort key xs).Pairwise fun a b => key a ≤ key b

namespace Sorting

/-- Insertion sort is one. -/
def insertion (α : Type*) : Sorting α where
  sort key xs := xs.insertionSort fun a b => key a ≤ key b
  perm key xs := List.perm_insertionSort _ xs
  sorted key xs := by
    have : Std.Total fun a b : α => key a ≤ key b := ⟨fun a b => Int.le_total _ _⟩
    have : IsTrans α fun a b => key a ≤ key b := ⟨fun a b c => Int.le_trans⟩
    exact List.pairwise_insertionSort _ xs

/-- Cut anywhere, what comes first is no greater than what comes after. -/
theorem le_of_split (s : Sorting α) {key : α → Int} {xs : List α} {n : Nat} {a b : α}
    (ha : a ∈ (s.sort key xs).take n) (hb : b ∈ (s.sort key xs).drop n) : key a ≤ key b := by
  have h := s.sorted key xs
  rw [← List.take_append_drop n (s.sort key xs), List.pairwise_append] at h
  exact h.2.2 a ha b hb

end Sorting

/-- An order of the images is an order of the elements. -/
theorem exists_map_eq_of_perm {β : Type*} {f : α → β} {xs : List α} {ys : List β}
    (h : ys.Perm (xs.map f)) : ∃ zs : List α, zs.map f = ys ∧ zs.Perm xs := by
  have hpairs : List.Forall₂ (fun b a => b = f a) (xs.map f) xs := by
    rw [List.forall₂_map_left_iff]
    exact List.forall₂_same.mpr fun a _ => rfl
  obtain ⟨zs, hzs, hperm⟩ := List.perm_comp_forall₂ h hpairs
  refine ⟨zs, ?_, hperm⟩
  clear h hperm hpairs
  induction hzs with
  | nil => rfl
  | cons hb _ ih => rw [List.map_cons, ← hb, ih]

end Kit
