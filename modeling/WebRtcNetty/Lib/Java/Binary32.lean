import Mathlib.Algebra.Group.Nat.Defs
import Mathlib.Data.Nat.Log

/-!
# Rounding to single precision

`toFloat n` is the natural number that the `float` nearest to `n` stands for: `n` rounded to 24
significant bits, ties to the even one. A product by a dyadic fraction is rounded the same way,
since scaling by a power of two does not change the significant bits.
-/

namespace Java

/-- `n` rounded to a multiple of `2 ^ e`, ties to the even multiple. -/
def roundToMultiple (e n : Nat) : Nat :=
  let q := n / 2 ^ e
  let r := n % 2 ^ e
  if 2 * r < 2 ^ e || (2 * r == 2 ^ e && q % 2 == 0) then q * 2 ^ e else (q + 1) * 2 ^ e

/-- A multiple is not rounded. -/
theorem roundToMultiple_mul (e m : Nat) : roundToMultiple e (m * 2 ^ e) = m * 2 ^ e := by
  have hpos : 0 < 2 ^ e := Nat.two_pow_pos e
  simp [roundToMultiple, Nat.mul_mod_left, Nat.mul_div_cancel _ hpos, hpos]

theorem dvd_roundToMultiple (e n : Nat) : 2 ^ e ∣ roundToMultiple e n := by
  unfold roundToMultiple
  dsimp only
  split
  · exact Nat.dvd_mul_left ..
  · exact Nat.dvd_mul_left ..

/-- What is below stays below, if it is a multiple. -/
theorem le_roundToMultiple {e m n : Nat} (h : m * 2 ^ e ≤ n) : m * 2 ^ e ≤ roundToMultiple e n := by
  have hq : m ≤ n / 2 ^ e := (Nat.le_div_iff_mul_le (Nat.two_pow_pos e)).2 h
  unfold roundToMultiple
  dsimp only
  split
  · exact Nat.mul_le_mul_right _ hq
  · exact Nat.mul_le_mul_right _ (Nat.le_succ_of_le hq)

/-- The value of `(float) n`. -/
def toFloat (n : Nat) : Nat := roundToMultiple (Nat.log 2 n + 1 - 24) n

end Java
