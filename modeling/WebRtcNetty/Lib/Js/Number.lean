import WebRtcNetty.Lib.Java.Binary32
import Mathlib.Algebra.Order.Ring.Int

/-!
# Numbers of ECMAScript

A script's numbers are doubles. `Number` has those that arithmetic on small integers meets: the
integers and NaN. A sum or a difference is rounded to 53 significant bits, and the bit operations go
through the 32-bit integers (`Number.toInt32`), NaN as zero. `int_add` and `int_sub` say that
nothing is rounded up to the safe integers, and `int_shiftRight`, `int_and`, `int_shiftLeft`,
`int_or` what the bit operations are on small natural numbers.
-/

namespace Js

inductive Number where
  | int (n : Int)
  | nan
deriving DecidableEq, Repr

namespace Number

/-- The double nearest to an integer, ties to the even one. -/
def round (n : Int) : Int :=
  n.sign * Java.roundToMultiple (Nat.log 2 n.natAbs + 1 - 53) n.natAbs

/-- The conversion of the operands of the bit operations. -/
def toInt32 : Number → BitVec 32
  | int n => .ofInt 32 n
  | nan => 0

/-- `Number.isSafeInteger`. -/
def IsSafe : Number → Prop
  | int n => n.natAbs ≤ 2 ^ 53 - 1
  | nan => False

instance : DecidablePred IsSafe
  | int n => inferInstanceAs (Decidable (n.natAbs ≤ 2 ^ 53 - 1))
  | nan => inferInstanceAs (Decidable False)

instance : Add Number where
  add
    | int m, int n => int (round (m + n))
    | _, _ => nan

instance : Sub Number where
  sub
    | int m, int n => int (round (m - n))
    | _, _ => nan

instance : AndOp Number where
  and a b := int (a.toInt32 &&& b.toInt32).toInt

instance : OrOp Number where
  or a b := int (a.toInt32 ||| b.toInt32).toInt

/-- The count of a shift is taken modulo 32. -/
instance : HShiftLeft Number Nat Number where
  hShiftLeft a k := int (a.toInt32 <<< (k % 32)).toInt

instance : HShiftRight Number Nat Number where
  hShiftRight a k := int (a.toInt32.sshiftRight (k % 32)).toInt

/-- `Number.isNaN`. -/
def isNaN : Number → Bool
  | int _ => false
  | nan => true

/-! ## Rounding -/

section
open Java

theorem round_neg (n : Int) : round (-n) = -round n := by
  rw [round, round, Int.sign_neg, Int.natAbs_neg, Int.neg_mul]

/-- An integer of 53 significant bits is not rounded. -/
theorem round_natCast {m e : Nat} (hm : m < 2 ^ 53) :
    round (m * 2 ^ e : Nat) = (m * 2 ^ e : Nat) := by
  rcases Nat.eq_zero_or_pos m with rfl | hpos
  · simp [round]
  have hne : m * 2 ^ e ≠ 0 := (Nat.mul_pos hpos (Nat.two_pow_pos e)).ne'
  have hlog : Nat.log 2 (m * 2 ^ e) + 1 - 53 ≤ e := by
    have hlt : m * 2 ^ e < 2 ^ (53 + e) := by
      rw [Nat.pow_add]
      exact Nat.mul_lt_mul_of_pos_right hm (Nat.two_pow_pos e)
    have := (Nat.log_lt_iff_lt_pow (by decide) hne).2 hlt
    omega
  have hexact : roundToMultiple (Nat.log 2 (m * 2 ^ e) + 1 - 53) (m * 2 ^ e) = m * 2 ^ e := by
    have hsplit : m * 2 ^ e = m * 2 ^ (e - (Nat.log 2 (m * 2 ^ e) + 1 - 53)) *
        2 ^ (Nat.log 2 (m * 2 ^ e) + 1 - 53) := by
      rw [Nat.mul_assoc, ← Nat.pow_add, Nat.sub_add_cancel hlog]
    generalize Nat.log 2 (m * 2 ^ e) + 1 - 53 = k at *
    rw [hsplit]
    exact roundToMultiple_mul ..
  rw [round, Int.natAbs_natCast, hexact, Int.sign_eq_one_of_pos (by omega), Int.one_mul]

/-- A double has 53 significant bits. -/
theorem exists_of_round_eq {n : Int} (h : round n = n) :
    ∃ m e, m < 2 ^ 53 ∧ n.natAbs = m * 2 ^ e := by
  rcases eq_or_ne n 0 with rfl | hne
  · exact ⟨0, 0, by decide, rfl⟩
  have hdvd : 2 ^ (Nat.log 2 n.natAbs + 1 - 53) ∣ n.natAbs := by
    have habs : n.natAbs = roundToMultiple (Nat.log 2 n.natAbs + 1 - 53) n.natAbs := by
      have h' := congrArg Int.natAbs h
      rw [round, Int.natAbs_mul, Int.natAbs_sign_of_ne_zero hne, Nat.one_mul,
        Int.natAbs_natCast] at h'
      exact h'.symm
    exact (dvd_roundToMultiple ..).trans habs.symm.dvd
  obtain ⟨m, hm⟩ := hdvd
  refine ⟨m, _, ?_, hm.trans (Nat.mul_comm ..)⟩
  have hlt : n.natAbs < 2 ^ (Nat.log 2 n.natAbs + 1 - 53) * 2 ^ 53 := by
    rw [← Nat.pow_add]
    exact (Nat.lt_pow_succ_log_self (by decide) _).trans_le
      (Nat.pow_le_pow_right (by decide) (by omega))
  exact Nat.lt_of_mul_lt_mul_left (hm.symm.trans_lt hlt)

/-- A number of 53 bits more than `k` is rounded to a multiple of `2 ^ k`. -/
theorem dvd_round {n : Int} {k : Nat} (h : 2 ^ (52 + k) ≤ n.natAbs) : (2 ^ k : Int) ∣ round n := by
  have hlog : k ≤ Nat.log 2 n.natAbs + 1 - 53 := by
    have := Nat.le_log_of_pow_le (by decide) h
    omega
  have hdvd : 2 ^ k ∣ roundToMultiple (Nat.log 2 n.natAbs + 1 - 53) n.natAbs :=
    (Nat.pow_dvd_pow 2 hlog).trans (dvd_roundToMultiple ..)
  refine Dvd.dvd.mul_left ?_ _
  exact_mod_cast hdvd

/-- A multiple of `2 ^ k` is rounded to one. -/
theorem dvd_round_of_dvd {n : Int} {k : Nat} (h : (2 ^ k : Int) ∣ n) : (2 ^ k : Int) ∣ round n := by
  have hnat : 2 ^ k ∣ n.natAbs := by
    rw [← Int.natAbs_dvd_natAbs] at h
    simpa [Int.natAbs_pow] using h
  refine Dvd.dvd.mul_left ?_ _
  rcases Nat.le_total k (Nat.log 2 n.natAbs + 1 - 53) with hk | hk
  · exact_mod_cast (Nat.pow_dvd_pow 2 hk).trans (dvd_roundToMultiple ..)
  · obtain ⟨m, hm⟩ := (Nat.pow_dvd_pow 2 hk).trans hnat
    have hexact : roundToMultiple (Nat.log 2 n.natAbs + 1 - 53) n.natAbs = n.natAbs := by
      generalize Nat.log 2 n.natAbs + 1 - 53 = e at hm
      rw [hm, Nat.mul_comm]
      exact roundToMultiple_mul ..
    rw [hexact]
    exact_mod_cast hnat

/-- A number is not rounded below a power of two, unless it is below it. -/
theorem le_round {n k : Nat} (h : 2 ^ k ≤ n) (hlt : n < 2 ^ (k + 53)) :
    (2 ^ k : Int) ≤ round n := by
  have hne : n ≠ 0 := by
    have := Nat.two_pow_pos k
    omega
  have hlog : Nat.log 2 n + 1 - 53 ≤ k := by
    have := (Nat.log_lt_iff_lt_pow (by decide) hne).2 hlt
    omega
  have hle : 2 ^ k ≤ roundToMultiple (Nat.log 2 n + 1 - 53) n := by
    have hsplit : 2 ^ k = 2 ^ (k - (Nat.log 2 n + 1 - 53)) * 2 ^ (Nat.log 2 n + 1 - 53) := by
      rw [← Nat.pow_add, Nat.sub_add_cancel hlog]
    rw [hsplit] at h ⊢
    exact le_roundToMultiple h
  rw [round, Int.natAbs_natCast, Int.sign_eq_one_of_pos (by omega), Int.one_mul]
  exact_mod_cast hle

end

/-! ## Sums and differences -/

/-- Up to the safe integers nothing is rounded. -/
theorem round_eq {n : Int} (h : n.natAbs ≤ 2 ^ 53 - 1) : round n = n := by
  have hlog : Nat.log 2 n.natAbs + 1 - 53 = 0 := by
    have := Nat.log_lt_of_lt_pow' (b := 2) (x := 53) (y := n.natAbs) (by decide) (by omega)
    omega
  have hexact : Java.roundToMultiple 0 n.natAbs = n.natAbs := by
    rw [Java.roundToMultiple]
    simp [Nat.mod_one]
  rw [round, hlog, hexact, Int.sign_mul_natAbs]

theorem int_add {m n : Int} (h : (m + n).natAbs ≤ 2 ^ 53 - 1) : int m + int n = int (m + n) :=
  congrArg int (round_eq h)

theorem int_sub {m n : Int} (h : (m - n).natAbs ≤ 2 ^ 53 - 1) : int m - int n = int (m - n) :=
  congrArg int (round_eq h)

/-! ## Bit operations -/

/-- `x & x` truncates to 32 bits. -/
theorem int_and_self (n : Int) : int n &&& int n = int (n.bmod (2 ^ 32)) := by
  have h : int n &&& int n = int (BitVec.ofInt 32 n &&& BitVec.ofInt 32 n).toInt := rfl
  rw [h, BitVec.and_self, BitVec.toInt_ofInt]

/-- A left shift multiplies and truncates to 32 bits. -/
theorem int_shiftLeft_bmod (n : Int) {k : Nat} (hk : k < 32) :
    int n <<< k = int ((n * 2 ^ k).bmod (2 ^ 32)) := by
  have h : int n <<< k = int (BitVec.ofInt 32 n <<< (k % 32)).toInt := rfl
  rw [h, Nat.mod_eq_of_lt hk, BitVec.toInt_shiftLeft, Nat.shiftLeft_eq, BitVec.toNat_ofInt]
  push_cast
  rw [Int.toNat_of_nonneg (Int.emod_nonneg _ (by decide))]
  exact congrArg int (Int.emod_mul_bmod ..)

/-- A 32-bit value without its sign bit is the natural number of its bits. -/
theorem int_toInt {x : BitVec 32} {n : Nat} (hx : x.toNat = n) (h : n < 2 ^ 31) :
    int x.toInt = int n := by
  rw [BitVec.toInt_eq_toNat_of_lt (by omega), hx]

theorem toNat_toInt32 {n : Nat} (h : n < 2 ^ 31) : (int n).toInt32.toNat = n := by
  rw [toInt32, BitVec.ofInt_natCast, BitVec.toNat_ofNat, Nat.mod_eq_of_lt (by omega)]

theorem int_shiftLeft {n k : Nat} (hk : k < 32) (h : n * 2 ^ k < 2 ^ 31) :
    int n <<< k = int (n * 2 ^ k : Nat) := by
  have hc : (n : Int) * 2 ^ k = (n * 2 ^ k : Nat) := by push_cast; rfl
  rw [int_shiftLeft_bmod _ hk, hc, Int.bmod_eq_of_le (by omega) (by omega)]

theorem int_shiftRight {n k : Nat} (hk : k < 32) (h : n < 2 ^ 31) :
    int n >>> k = int (n / 2 ^ k : Nat) := by
  have hr : int n >>> k = int ((BitVec.ofInt 32 n).sshiftRight (k % 32)).toInt := rfl
  rw [hr, Nat.mod_eq_of_lt hk, BitVec.toInt_sshiftRight, BitVec.toInt_ofInt,
    Int.bmod_eq_of_le (by omega) (by omega), Int.shiftRight_eq_div_pow, Int.natCast_div]

/-- A mask of `k` ones takes the remainder modulo `2 ^ k`. -/
theorem int_and {n k : Nat} (hk : k < 32) (h : n < 2 ^ 31) :
    int n &&& int (2 ^ k - 1 : Nat) = int (n % 2 ^ k : Nat) := by
  have hm : 2 ^ k - 1 < 2 ^ 31 := by
    have := Nat.pow_le_pow_right (n := 2) (by decide) (show k ≤ 31 by omega)
    omega
  refine int_toInt ?_ ((Nat.mod_le ..).trans_lt h)
  rw [BitVec.toNat_and, toNat_toInt32 h, toNat_toInt32 hm, Nat.and_two_pow_sub_one_eq_mod]

/-- Numbers without common ones are added. -/
theorem int_or {m n k : Nat} (hn : n < 2 ^ k) (h : m * 2 ^ k + n < 2 ^ 31) :
    int (m * 2 ^ k : Nat) ||| int n = int (m * 2 ^ k + n : Nat) := by
  refine int_toInt ?_ h
  rw [BitVec.toNat_or, toNat_toInt32 (by omega), toNat_toInt32 (by omega), Nat.mul_comm m,
    Nat.two_pow_add_eq_or_of_lt hn]

/-- NaN is shifted as zero is. -/
theorem nan_shiftRight (k : Nat) : nan >>> k = int 0 >>> k := rfl

end Number

end Js
