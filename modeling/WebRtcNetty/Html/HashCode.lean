import WebRtcNetty.Lib.Js.Number
import Mathlib.Algebra.BigOperators.Fin
import Mathlib.Data.Int.ModEq
import Mathlib.Tactic.Ring

/-!
# The ids of the peers

The pages register at the peer server, and call each other, under a hash of the user's name. A
string is the list of its UTF-16 code units. The hash is that of Java's strings, computed on
doubles: each turn of the loop truncates to 32 bits, and what it computes before the truncation is
far from the first integer that a double does not have (`hashCode.loop`).
-/

namespace WebRtcNetty.Html

open Js Js.Number

/-! ## The loop -/

/-- A turn of the loop of `hashCode`. -/
def hashCode.turn (hash : Number) (char : UInt16) : Number :=
  let hash := ((hash <<< 5) - hash) + int char.toNat
  hash &&& hash

/-- Reference: `hashCode`, the same in `videocall.js`, `chat_demo.js`, `canvas.js` and
`sendfile.js`. -/
def hashCode (str : List UInt16) : Number :=
  if str.length = 0 then int 0 else str.foldl hashCode.turn (int 0)

/-- The values that the turns over `str` compute from `hash` on, in order. -/
def hashCode.values : Number → List UInt16 → List Number
  | _, [] => []
  | hash, char :: str =>
    [hash <<< 5, (hash <<< 5) - hash, ((hash <<< 5) - hash) + int char.toNat, turn hash char] ++
      values (turn hash char) str

/-! ## Horner's rule -/

/-- A polynomial evaluated from its leading coefficient on. -/
theorem foldl_horner {α R : Type} [CommSemiring R] (b : R) (f : α → R) (cs : List α) (a : R) :
    cs.foldl (fun h c => b * h + f c) a =
      a * b ^ cs.length + ∑ i : Fin cs.length, f cs[i] * b ^ (cs.length - 1 - i) := by
  induction cs generalizing a with
  | nil => simp
  | cons c cs ih =>
    have hexp (i : Fin cs.length) : cs.length - (i + 1) = cs.length - 1 - (i : Nat) := by omega
    rw [List.foldl_cons, ih]
    simp only [List.length_cons, Fin.sum_univ_succ, Fin.getElem_fin, Fin.val_zero, Fin.val_succ,
      List.getElem_cons_zero, List.getElem_cons_succ, Nat.add_sub_cancel, Nat.sub_zero, hexp]
    ring

theorem hashCode.horner (h : Int) (str : List UInt16) :
    str.foldl (fun h c => 31 * h + (c.toNat : Int)) h =
      h * 31 ^ str.length +
        ∑ i : Fin str.length, (str[i].toNat : Int) * 31 ^ (str.length - 1 - i) :=
  foldl_horner 31 (fun c : UInt16 => (c.toNat : Int)) str h

/-! ## The invariant -/

/-- What a turn computes from a 32-bit integer: nothing that needs rounding, and `31 * h + char`
truncated. -/
theorem hashCode.turn_int {h : Int} (hl : -2 ^ 31 ≤ h) (hr : h < 2 ^ 31) (char : UInt16) :
    turn (int h) char = int ((31 * h + char.toNat).bmod (2 ^ 32)) ∧
      (int h <<< 5).IsSafe ∧ ((int h <<< 5) - int h).IsSafe ∧
      (((int h <<< 5) - int h) + int char.toNat).IsSafe ∧ (turn (int h) char).IsSafe := by
  have hc : char.toNat < 2 ^ 16 := char.toNat_lt
  have hs : int h <<< 5 = int ((h * 2 ^ 5).bmod (2 ^ 32)) := int_shiftLeft_bmod h (by decide)
  generalize hsh : (h * 2 ^ 5).bmod (2 ^ 32) = s at hs
  have hsl : -2 ^ 31 ≤ s := by rw [← hsh]; exact Int.le_bmod (by decide)
  have hsr : s < 2 ^ 31 := by rw [← hsh]; exact Int.bmod_lt (by decide)
  have hd : (int h <<< 5) - int h = int (s - h) := by rw [hs]; exact int_sub (by omega)
  have ha : ((int h <<< 5) - int h) + int char.toNat = int (s - h + char.toNat) := by
    rw [hd]; exact int_add (by omega)
  have hmod : (s - h + char.toNat).bmod (2 ^ 32) = (31 * h + char.toNat).bmod (2 ^ 32) :=
    calc (s - h + char.toNat).bmod (2 ^ 32)
        = ((h * 2 ^ 5).bmod (2 ^ 32) + (char.toNat - h)).bmod (2 ^ 32) := by
          rw [hsh]; congr 1; ring
      _ = (31 * h + char.toNat).bmod (2 ^ 32) := by
          rw [Int.bmod_add_bmod]; congr 1; ring
  have ht : turn (int h) char = int ((31 * h + char.toNat).bmod (2 ^ 32)) := by
    rw [turn, ha, int_and_self, hmod]
  have hl' := Int.le_bmod (x := 31 * h + char.toNat) (m := 2 ^ 32) (by decide)
  have hr' := Int.bmod_lt (x := 31 * h + char.toNat) (m := 2 ^ 32) (by decide)
  rw [ht, ha, hd, hs]
  refine ⟨rfl, ?_, ?_, ?_, ?_⟩ <;> simp only [IsSafe] <;> omega

/-- The loop over `str` from a 32-bit integer: it computes safe integers only, and its result is a
32-bit integer with the residue of Horner's rule in the integers. -/
theorem hashCode.loop (str : List UInt16) {h : Int} (hl : -2 ^ 31 ≤ h) (hr : h < 2 ^ 31) :
    (∃ r, str.foldl turn (int h) = int r ∧ -2 ^ 31 ≤ r ∧ r < 2 ^ 31 ∧
      r ≡ str.foldl (fun h c => 31 * h + c.toNat) h [ZMOD 2 ^ 32]) ∧
    ∀ v ∈ values (int h) str, v.IsSafe := by
  induction str generalizing h with
  | nil => exact ⟨⟨h, rfl, hl, hr, .refl h⟩, by simp [values]⟩
  | cons char str ih =>
    obtain ⟨ht, hs₁, hs₂, hs₃, hs₄⟩ := turn_int hl hr char
    have hl' := Int.le_bmod (x := 31 * h + char.toNat) (m := 2 ^ 32) (by decide)
    have hr' := Int.bmod_lt (x := 31 * h + char.toNat) (m := 2 ^ 32) (by decide)
    obtain ⟨⟨r, hfold, hrl, hrr, hmod⟩, hv⟩ := ih hl' hr'
    refine ⟨⟨r, ?_, hrl, hrr, ?_⟩, ?_⟩
    · rw [List.foldl_cons, ht, hfold]
    · have hb : (31 * h + char.toNat).bmod (2 ^ 32) ≡ 31 * h + char.toNat [ZMOD 2 ^ 32] :=
        Int.bmod_emod
      refine hmod.trans ?_
      rw [List.foldl_cons, horner, horner]
      exact (hb.mul_right _).add_right _
    · intro v hv'
      simp only [values, List.mem_append, List.mem_cons, List.not_mem_nil, or_false] at hv'
      rcases hv' with (rfl | rfl | rfl | rfl) | hv'
      · exact hs₁
      · exact hs₂
      · exact hs₃
      · exact hs₄
      · exact hv v (ht ▸ hv')

/-- The hash is the 32-bit integer with the residue of the polynomial of the code units at 31, the
hash code of Java's strings, and computing it meets safe integers only. -/
theorem hashCode_polynomial (str : List UInt16) :
    (∃ r, hashCode str = int r ∧ -2 ^ 31 ≤ r ∧ r < 2 ^ 31 ∧
      r ≡ ∑ i : Fin str.length, (str[i].toNat : Int) * 31 ^ (str.length - 1 - i) [ZMOD 2 ^ 32]) ∧
    ∀ v ∈ hashCode.values (int 0) str, v.IsSafe := by
  -- The loop on the empty string is the early return.
  obtain ⟨⟨r, hfold, hl, hr, hmod⟩, hv⟩ :=
    hashCode.loop str (h := 0) (by decide) (by decide)
  refine ⟨⟨r, ?_, hl, hr, ?_⟩, hv⟩
  · rw [hashCode]
    split
    case isTrue hlen =>
      rw [List.length_eq_zero_iff.1 hlen] at hfold
      exact hfold
    case isFalse => exact hfold
  · rwa [hashCode.horner, zero_mul, zero_add] at hmod

end WebRtcNetty.Html
