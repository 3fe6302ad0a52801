import Mathlib.Data.List.Basic

/-!
# Runs of spans without a gap

A receiver that holds the first `r` positions of a stream and takes the spans
`(off, len)` one after another, in order, must never meet one that starts past
what it holds by then. `cover r q` is how far it gets, or `none` if some span
would leave a gap. Spans may overlap and repeat.
-/

namespace Kit

/-- How far the spans of `q`, taken in order, extend a stream held up to `r`; `none` if one of
them starts past what is held when its turn comes. -/
def cover : Nat → List (Nat × Nat) → Option Nat
  | r, [] => some r
  | r, (off, len) :: q => if off ≤ r then cover (max r (off + len)) q else none

/-- Taking spans never loses a position. -/
theorem le_cover {q : List (Nat × Nat)} {r v : Nat} (h : cover r q = some v) : r ≤ v := by
  induction q generalizing r with
  | nil => exact Nat.le_of_eq (Option.some.inj h)
  | cons span q ih =>
    simp only [cover] at h
    split at h
    next => exact Nat.le_trans (Nat.le_max_left _ _) (ih h)
    next => cases h

theorem cover_append (r : Nat) (p q : List (Nat × Nat)) :
    cover r (p ++ q) = (cover r p).bind fun v => cover v q := by
  induction p generalizing r with
  | nil => rfl
  | cons span p ih =>
    simp only [List.cons_append, cover]
    split
    next => exact ih _
    next => rfl

/-- A span that starts within what is covered joins it. -/
theorem cover_snoc {q : List (Nat × Nat)} {r v off len : Nat} (h : cover r q = some v)
    (hoff : off ≤ v) : cover r (q ++ [(off, len)]) = some (max v (off + len)) := by
  rw [cover_append, h, Option.bind_some, cover, if_pos hoff, cover]

/-- The first spans of a run without a gap are one, and cover no more. -/
theorem cover_of_append {r v : Nat} {p q : List (Nat × Nat)} (h : cover r (p ++ q) = some v) :
    ∃ u, cover r p = some u ∧ u ≤ v := by
  rw [cover_append] at h
  obtain ⟨u, hu, hv⟩ := Option.bind_eq_some_iff.mp h
  exact ⟨u, hu, le_cover hv⟩

end Kit
