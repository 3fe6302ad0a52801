import Mathlib.Data.List.Infix

/-!
# Slices of a stream at absolute offsets

A byte stream is a list that only grows at its end. A chunk numbered `off` is
honest when it is the stretch of the stream that starts at `off`: `SliceAt`.
The lemmas are the operations a numbering layer performs on such chunks. A
slice survives growth of the stream, it can be cut at either end, two adjacent
slices glue, and a slice that overlaps the prefix already held extends that
prefix by exactly what it has beyond it (`SliceAt.extend`).
-/

namespace Kit

variable {α : Type*}

/-- `p` is the stretch of the stream `s` that starts at offset `off`. -/
def SliceAt (s : List α) (off : Nat) (p : List α) : Prop :=
  off ≤ s.length ∧ p <+: s.drop off

instance [DecidableEq α] (s : List α) (off : Nat) (p : List α) : Decidable (SliceAt s off p) :=
  inferInstanceAs (Decidable (_ ∧ _))

namespace SliceAt

variable {s t p q : List α} {off n r : Nat}

/-- A slice ends inside its stream. -/
theorem end_le (h : SliceAt s off p) : off + p.length ≤ s.length := by
  have hlen := h.2.length_le
  have hoff := h.1
  rw [List.length_drop] at hlen
  omega

/-- The empty slice stands at every offset of the stream. -/
theorem nil (h : off ≤ s.length) : SliceAt s off ([] : List α) :=
  ⟨h, List.nil_prefix⟩

/-- A slice stays one when the stream grows. -/
theorem append_stream (h : SliceAt s off p) (t : List α) : SliceAt (s ++ t) off p := by
  refine ⟨by rw [List.length_append]; exact Nat.le_trans h.1 (Nat.le_add_right _ _), ?_⟩
  rw [List.drop_append_of_le_length h.1]
  exact h.2.trans (List.prefix_append _ _)

/-- A shorter chunk at the same offset. -/
theorem take (h : SliceAt s off p) (n : Nat) : SliceAt s off (p.take n) :=
  ⟨h.1, (List.take_prefix n p).trans h.2⟩

/-- What remains of a chunk past its first `n` elements, at its own offset. -/
theorem drop (h : SliceAt s off p) (hn : n ≤ p.length) : SliceAt s (off + n) (p.drop n) := by
  have hend := h.end_le
  refine ⟨by omega, ?_⟩
  obtain ⟨rest, hrest⟩ := h.2
  refine ⟨rest, ?_⟩
  rw [← List.drop_drop, ← hrest, List.drop_append_of_le_length hn]

/-- Two adjacent slices glue. -/
theorem glue (hp : SliceAt s off p) (hq : SliceAt s (off + p.length) q) :
    SliceAt s off (p ++ q) := by
  refine ⟨hp.1, ?_⟩
  obtain ⟨rest, hrest⟩ := hp.2
  have hq2 := hq.2
  rw [← List.drop_drop, ← hrest, List.drop_left] at hq2
  obtain ⟨rest', hrest'⟩ := hq2
  exact ⟨rest', by rw [← hrest, ← hrest', List.append_assoc]⟩

/-- **Extending the prefix held.** A receiver that holds the first `r` elements and is handed
a slice that starts at or before `r` and ends at or past it holds the stream up to the slice's
end once the overlap is dropped. -/
theorem extend (h : SliceAt s off p) (hlo : off ≤ r) (hhi : r ≤ off + p.length) :
    s.take r ++ p.drop (r - off) = s.take (off + p.length) := by
  have hrest := h.drop (n := r - off) (by omega)
  rw [Nat.add_sub_cancel' hlo] at hrest
  have hlen : (p.drop (r - off)).length = off + p.length - r := by
    rw [List.length_drop]; omega
  have hpre : p.drop (r - off) = (s.drop r).take (off + p.length - r) := by
    rw [← hlen]
    exact List.prefix_iff_eq_take.mp hrest.2
  rw [hpre, show off + p.length = r + (off + p.length - r) from by omega, List.take_add]
  congr 2
  omega

end SliceAt

end Kit
