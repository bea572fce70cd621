import Mathlib.Data.Nat.Basic
import Mathlib.Algebra.Order.Ring.Nat

/-!
# Big-endian numbers

`bigEndian k n` has the `k` last base-256 digits of `n`, the highest one first, and Horner's rule
makes the number of them again (`foldl_bigEndian`).
-/

/-- The `k` last bytes of a number. -/
def bigEndian : (k : Nat) → (n : Nat) → List UInt8
  | 0, _ => []
  | k + 1, n => bigEndian k (n / 256) ++ [.ofNat (n % 256)]

@[simp] theorem length_bigEndian (k n : Nat) : (bigEndian k n).length = k := by
  induction k generalizing n with
  | zero => rfl
  | succ k ih => rw [bigEndian, List.length_append, ih, List.length_singleton]

/-- The upper bytes and the lower ones. -/
theorem bigEndian_append (j k n : Nat) :
    bigEndian j (n / 256 ^ k) ++ bigEndian k n = bigEndian (j + k) n := by
  induction k generalizing n with
  | zero => rw [Nat.pow_zero, Nat.div_one, bigEndian, List.append_nil, Nat.add_zero]
  | succ k ih =>
    rw [bigEndian, ← List.append_assoc, Nat.pow_succ', ← Nat.div_div_eq_div_mul, ih]
    rfl

/-- The other digits make no difference. -/
theorem bigEndian_mod (k n : Nat) : bigEndian k (n % 256 ^ k) = bigEndian k n := by
  induction k generalizing n with
  | zero => rfl
  | succ k ih =>
    have hdiv : n % 256 ^ (k + 1) / 256 = n / 256 % 256 ^ k := by
      rw [Nat.pow_succ', Nat.mod_mul_right_div_self]
    have hmod : n % 256 ^ (k + 1) % 256 = n % 256 :=
      Nat.mod_mod_of_dvd n (Dvd.intro_left _ (Nat.pow_succ ..).symm)
    rw [bigEndian, hdiv, ih, hmod]
    rfl

theorem toNat_mod_256 (n : Nat) : (UInt8.ofNat (n % 256)).toNat = n % 256 := by
  rw [UInt8.toNat_ofNat']
  omega

/-- Horner's rule, with turns that are right on the numbers they lead to. -/
theorem foldl_bigEndian_of {α : Type} {f : α → UInt8 → α} {g : Nat → α} {P : Nat → Prop}
    (hdiv : ∀ n, P n → P (n / 256)) (h : ∀ n, P n → f (g (n / 256)) (.ofNat (n % 256)) = g n)
    (k : Nat) {n : Nat} (hn : n < 256 ^ k) (hP : P n) : (bigEndian k n).foldl f (g 0) = g n := by
  induction k generalizing n with
  | zero =>
    have hzero : n = 0 := by simpa using hn
    rw [hzero]
    rfl
  | succ k ih =>
    have hlt : n / 256 < 256 ^ k := Nat.div_lt_of_lt_mul (by rwa [← Nat.pow_succ'])
    rw [bigEndian, List.foldl_append, ih hlt (hdiv n hP)]
    exact h n hP

/-- The number of the bytes. -/
theorem foldl_bigEndian (k : Nat) {n : Nat} (hn : n < 256 ^ k) :
    (bigEndian k n).foldl (fun n b => n * 256 + b.toNat) 0 = n := by
  refine foldl_bigEndian_of (g := id) (P := fun _ => True) (fun _ h => h) (fun n _ => ?_) k hn
    trivial
  show n / 256 * 256 + (UInt8.ofNat (n % 256)).toNat = n
  rw [toNat_mod_256]
  omega
