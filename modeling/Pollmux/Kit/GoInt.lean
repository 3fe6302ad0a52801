import Mathlib.Algebra.Ring.Int.Defs
import Mathlib.Algebra.Ring.Nat

/-!
# Sixty-four-bit signed arithmetic

`int64 x` is what a 64-bit two's complement word holds after the exact result `x`
was stored in it.
-/

namespace Kit

/-- The value of a 64-bit signed word that was assigned `x`. -/
def int64 (x : Int) : Int := Int.bmod x (2 ^ 64)

theorem int64_of_lt {x : Int} (hlo : -2 ^ 63 ≤ x) (hhi : x < 2 ^ 63) : int64 x = x := by
  unfold int64
  exact Int.bmod_eq_of_le (by omega) (by omega)

end Kit
