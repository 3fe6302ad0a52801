import Mathlib.Data.List.Induction

/-!
# Counting back in a history

A counter that is reset by some events and raised by others is a function of the
history it has seen. `since r xs` is the history from the last event that meets
`r` on, and what the counter shows is a count over it: `since_concat` says what
one more event does. `streak p xs` is the case of a counter that every event
raises or resets, the number of consecutive events that meet `p` up to now, and
`le_streak_iff` reads it without the counter.
-/

namespace Kit

variable {α : Type*}

/-- The events from the last one that meets `r` on, that one included; all of them if none does. -/
def since (r : α → Bool) : List α → List α
  | [] => []
  | x :: xs => if xs.any r then since r xs else x :: xs

theorem since_concat (r : α → Bool) (xs : List α) (a : α) :
    since r (xs ++ [a]) = if r a then [a] else since r xs ++ [a] := by
  induction xs with
  | nil => simp [since]
  | cons x xs ih =>
    rw [List.cons_append, since, List.any_append, ih]
    cases ha : r a with
    | true => simp [ha]
    | false =>
      simp only [List.any_cons, List.any_nil, ha, Bool.or_false, Bool.false_eq_true, if_false, since]
      split
      next => rfl
      next => rw [List.cons_append]

/-- How many events in a row meet `p`, up to the last one. -/
def streak (p : α → Bool) (xs : List α) : Nat := (since (fun a => !p a) xs).countP p

theorem streak_concat (p : α → Bool) (xs : List α) (a : α) :
    streak p (xs ++ [a]) = if p a then streak p xs + 1 else 0 := by
  rw [streak, since_concat]
  cases ha : p a with
  | true => simp [ha, streak]
  | false => simp [ha]

/-- The streak is at least `n` when the last `n` events meet `p`. -/
theorem le_streak_iff {p : α → Bool} {n : Nat} {xs : List α} :
    n ≤ streak p xs ↔ ∃ ys zs, xs = ys ++ zs ∧ zs.length = n ∧ ∀ a ∈ zs, p a = true := by
  induction xs using List.reverseRecOn generalizing n with
  | nil =>
    constructor
    · intro h
      exact ⟨[], [], rfl, (Nat.le_zero.mp h).symm, by simp⟩
    · rintro ⟨ys, zs, hxs, hlen, -⟩
      rw [(List.append_eq_nil_iff.mp hxs.symm).2] at hlen
      exact hlen ▸ Nat.zero_le _
  | append_singleton xs a ih =>
    cases n with
    | zero => exact ⟨fun _ => ⟨xs ++ [a], [], (List.append_nil _).symm, rfl, by simp⟩,
        fun _ => Nat.zero_le _⟩
    | succ n =>
      rw [streak_concat]
      constructor
      · intro h
        split at h
        next ha =>
          obtain ⟨ys, zs, rfl, hlen, hall⟩ := ih.mp (Nat.le_of_succ_le_succ h)
          refine ⟨ys, zs ++ [a], List.append_assoc _ _ _, by rw [List.length_append, hlen]; rfl, ?_⟩
          intro b hb
          rcases List.mem_append.mp hb with hb | hb
          · exact hall b hb
          · rw [List.mem_singleton.mp hb]
            exact ha
        next => exact absurd h (Nat.not_succ_le_zero n)
      · rintro ⟨ys, zs, hxs, hlen, hall⟩
        -- the last of the `n + 1` events is the new one
        obtain ⟨zs, b, rfl⟩ : ∃ zs' b, zs = zs' ++ [b] := by
          rcases List.eq_nil_or_concat zs with rfl | ⟨zs', b, rfl⟩
          · cases hlen
          · exact ⟨zs', b, by simp⟩
        rw [← List.append_assoc] at hxs
        obtain ⟨hxs, hab⟩ := List.append_inj' hxs rfl
        rw [List.length_append, List.length_singleton] at hlen
        rw [List.cons.inj hab |>.1, if_pos (hall b (by simp))]
        refine Nat.succ_le_succ (ih.mpr ⟨ys, zs, hxs, by omega, ?_⟩)
        intro c hc
        exact hall c (List.mem_append_left _ hc)

end Kit
