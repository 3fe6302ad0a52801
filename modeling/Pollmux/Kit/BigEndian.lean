import Mathlib.Algebra.Ring.Nat
import Mathlib.Data.List.Induction

/-!
# Big-endian numbers of a fixed width

`putBigEndian w n` is the low `8 * w` bits of `n` as `w` bytes, most significant
first, and `bigEndian` reads any number of bytes back.
-/

namespace Kit

/-- The number `n` modulo `256 ^ w` in `w` bytes, most significant first. -/
def putBigEndian : Nat → Nat → List UInt8
  | 0, _ => []
  | w + 1, n => putBigEndian w (n / 256) ++ [UInt8.ofNat n]

/-- The number that bytes spell, most significant first. -/
def bigEndian (bs : List UInt8) : Nat := bs.foldl (fun n b => n * 256 + b.toNat) 0

@[simp] theorem length_putBigEndian (w n : Nat) : (putBigEndian w n).length = w := by
  induction w generalizing n with
  | zero => rfl
  | succ w ih => rw [putBigEndian, List.length_append, ih, List.length_singleton]

/-- Reading back a number of fixed width loses what does not fit and nothing else. -/
theorem bigEndian_put (w n : Nat) : bigEndian (putBigEndian w n) = n % 256 ^ w := by
  induction w generalizing n with
  | zero => rw [Nat.pow_zero, Nat.mod_one]; rfl
  | succ w ih =>
    have hlast : bigEndian (putBigEndian (w + 1) n) =
        bigEndian (putBigEndian w (n / 256)) * 256 + n % 256 := by
      rw [bigEndian, putBigEndian, List.foldl_append, List.foldl_cons, List.foldl_nil,
        UInt8.toNat_ofNat']
      rfl
    rw [hlast, ih, Nat.pow_succ, Nat.mul_comm (256 ^ w) 256, Nat.mod_mul]
    omega

theorem bigEndian_put_of_lt {w n : Nat} (h : n < 256 ^ w) : bigEndian (putBigEndian w n) = n := by
  rw [bigEndian_put, Nat.mod_eq_of_lt h]

/-- `bigEndian` of `w` bytes is a number of width `w`, and putting it gives the bytes back. -/
theorem put_bigEndian (bs : List UInt8) :
    bigEndian bs < 256 ^ bs.length ∧ putBigEndian bs.length (bigEndian bs) = bs := by
  induction bs using List.reverseRecOn with
  | nil => exact ⟨Nat.zero_lt_one, rfl⟩
  | append_singleton bs b ih =>
    have hlast : bigEndian (bs ++ [b]) = bigEndian bs * 256 + b.toNat := by
      rw [bigEndian, List.foldl_append, List.foldl_cons, List.foldl_nil]
      rfl
    have hb := b.toNat_lt
    have hdiv : (bigEndian bs * 256 + b.toNat) / 256 = bigEndian bs := by omega
    have hbyte : UInt8.ofNat (bigEndian bs * 256 + b.toNat) = b := by
      apply UInt8.toNat_inj.mp
      rw [UInt8.toNat_ofNat']
      omega
    rw [List.length_append, List.length_singleton, hlast, putBigEndian, hdiv, ih.2, hbyte,
      Nat.pow_succ]
    refine ⟨?_, rfl⟩
    have hlt := ih.1
    omega

end Kit
