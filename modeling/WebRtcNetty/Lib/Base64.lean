import Mathlib.Algebra.Group.Nat.Defs
import Mathlib.Data.List.GetD
import Mathlib.Data.List.Nodup
import Mathlib.Tactic.Common

/-!
# Base64

The encoding of RFC 4648, section 4, over an alphabet of any characters: each three bytes are the 24
bits of four digits, and a group of one or two bytes at the end is filled up with zero bits and
padded. The decoder is a strict one, which refuses padding bits that are not zero.
-/

namespace Base64

/-- 64 digits and a padding character, all different. -/
structure Alphabet (α : Type) where
  digits : List α
  pad : α
  length_digits : digits.length = 64
  nodup : digits.Nodup
  pad_notMem : pad ∉ digits

variable {α : Type} (A : Alphabet α)

namespace Alphabet

/-- The digit with a value below 64. -/
def digit (v : Nat) : α := A.digits.getD v A.pad

/-- The value of a digit. -/
def value [DecidableEq α] (c : α) : Option Nat :=
  if c ∈ A.digits then some (A.digits.idxOf c) else none

/-- A value below 64 has a digit of the alphabet. -/
theorem digit_mem {v : Nat} (h : v < 64) : A.digit v ∈ A.digits := by
  have hv : v < A.digits.length := by rw [A.length_digits]; exact h
  rw [digit, List.getD_eq_getElem _ _ hv]
  exact List.getElem_mem hv

/-- No digit is the padding. -/
theorem digit_ne_pad {v : Nat} (h : v < 64) : A.digit v ≠ A.pad := by
  intro he
  exact A.pad_notMem (he ▸ A.digit_mem h)

/-- A digit has the value that it is the digit of. -/
theorem value_digit [DecidableEq α] {v : Nat} (h : v < 64) : A.value (A.digit v) = some v := by
  have hv : v < A.digits.length := by rw [A.length_digits]; exact h
  rw [value, if_pos (A.digit_mem h), digit, List.getD_eq_getElem _ _ hv,
    A.nodup.idxOf_getElem v hv]

end Alphabet

/-! ## Encoding -/

/-- The 24 bits of a group of three bytes. -/
def group (a b c : UInt8) : Nat := a.toNat * 2 ^ 16 + b.toNat * 2 ^ 8 + c.toNat

/-- The six bits of a group above its lowest `6 * k`. -/
def sextet (k group : Nat) : Nat := group / 64 ^ k % 64

/-- The text of the bytes, group by group. -/
def encode : List UInt8 → List α
  | [] => []
  | [a] =>
    let g := group a 0 0
    [A.digit (sextet 3 g), A.digit (sextet 2 g), A.pad, A.pad]
  | [a, b] =>
    let g := group a b 0
    [A.digit (sextet 3 g), A.digit (sextet 2 g), A.digit (sextet 1 g), A.pad]
  | a :: b :: c :: bytes =>
    let g := group a b c
    A.digit (sextet 3 g) :: A.digit (sextet 2 g) :: A.digit (sextet 1 g) ::
      A.digit (sextet 0 g) :: encode bytes

/-- The padding characters after `n` bytes. -/
def padding (n : Nat) : Nat := (3 - n % 3) % 3

/-! ## Decoding -/

/-- The first, second and third byte of four digits. -/
def byte₁ (v₁ v₂ : Nat) : UInt8 := .ofNat (v₁ * 4 + v₂ / 16)
/-- The second byte. -/
def byte₂ (v₂ v₃ : Nat) : UInt8 := .ofNat (v₂ % 16 * 16 + v₃ / 4)
/-- The third byte. -/
def byte₃ (v₃ v₄ : Nat) : UInt8 := .ofNat (v₃ % 4 * 64 + v₄)

/-- The bytes of a group with padding: one or two, and no bits beyond them. -/
def decodeLast [DecidableEq α] (c₁ c₂ c₃ : α) : Option (List UInt8) := do
  let v₁ ← A.value c₁
  let v₂ ← A.value c₂
  if c₃ = A.pad then
    guard (v₂ % 16 = 0)
    return [byte₁ v₁ v₂]
  else
    let v₃ ← A.value c₃
    guard (v₃ % 4 = 0)
    return [byte₁ v₁ v₂, byte₂ v₂ v₃]

/-- The bytes of a text, if it is an encoding. -/
def decode [DecidableEq α] : List α → Option (List UInt8)
  | [] => some []
  | c₁ :: c₂ :: c₃ :: c₄ :: text =>
    if c₄ = A.pad then
      if text.isEmpty then decodeLast A c₁ c₂ c₃ else none
    else do
      let v₁ ← A.value c₁
      let v₂ ← A.value c₂
      let v₃ ← A.value c₃
      let v₄ ← A.value c₄
      let bytes ← decode text
      return byte₁ v₁ v₂ :: byte₂ v₂ v₃ :: byte₃ v₃ v₄ :: bytes
  | _ => none

/-! ## Shape and round trip -/

/-- Six bits are below 64. -/
theorem sextet_lt (k g : Nat) : sextet k g < 64 := Nat.mod_lt _ (by decide)

/-- The text has four characters for each three bytes that have been begun. -/
theorem length_encode (bytes : List UInt8) :
    (encode A bytes).length = 4 * ((bytes.length + 2) / 3) := by
  induction bytes using encode.induct with
  | case1 => rfl
  | case2 a => simp [encode]
  | case3 a b => simp [encode]
  | case4 a b c bytes ih => simp [encode, ih]; omega

/-- An encoding is digits and the padding. -/
theorem encode_shape (bytes : List UInt8) :
    ∃ text, encode A bytes = text ++ List.replicate (padding bytes.length) A.pad ∧
      ∀ c ∈ text, c ∈ A.digits := by
  have hd (k g : Nat) : A.digit (sextet k g) ∈ A.digits := A.digit_mem (sextet_lt k g)
  induction bytes using encode.induct with
  | case1 => exact ⟨[], by simp [encode, padding]⟩
  | case2 a => exact ⟨[_, _], by rfl, by simp [hd]⟩
  | case3 a b => exact ⟨[_, _, _], by rfl, by simp [hd]⟩
  | case4 a b c bytes ih =>
    obtain ⟨text, heq, htext⟩ := ih
    have hpad : padding (a :: b :: c :: bytes).length = padding bytes.length := by
      simp only [padding, List.length_cons]
      omega
    refine ⟨_ :: _ :: _ :: _ :: text, by rw [encode, heq, hpad]; rfl, ?_⟩
    simpa [hd] using htext

/-- The bytes of a group are made of its bits. -/
theorem bytes_sextets (a b c : UInt8) :
    byte₁ (sextet 3 (group a b c)) (sextet 2 (group a b c)) = a ∧
      byte₂ (sextet 2 (group a b c)) (sextet 1 (group a b c)) = b ∧
      byte₃ (sextet 1 (group a b c)) (sextet 0 (group a b c)) = c := by
  have ha := a.toNat_lt
  have hb := b.toNat_lt
  have hc := c.toNat_lt
  refine ⟨?_, ?_, ?_⟩
  all_goals
    apply UInt8.toNat_inj.1
    simp only [byte₁, byte₂, byte₃, UInt8.toNat_ofNat', sextet, group]
    omega

/-- The bits that fill up a group are zero. -/
theorem sextet_filled (a b : UInt8) :
    sextet 2 (group a 0 0) % 16 = 0 ∧ sextet 1 (group a b 0) % 4 = 0 := by
  have ha := a.toNat_lt
  have hb := b.toNat_lt
  simp only [sextet, group, UInt8.toNat_zero]
  omega

section
variable [DecidableEq α] {v₁ v₂ v₃ v₄ : Nat} (h₁ : v₁ < 64) (h₂ : v₂ < 64)
include h₁ h₂

/-- A group of one byte is decoded if no other bits are set. -/
theorem decodeLast_one (h : v₂ % 16 = 0) :
    decodeLast A (A.digit v₁) (A.digit v₂) A.pad = some [byte₁ v₁ v₂] := by
  have hguard : (guard (v₂ % 16 = 0) : Option Unit) = some () := if_pos h
  rw [decodeLast, A.value_digit h₁, Option.bind_eq_bind, Option.bind_some,
    A.value_digit h₂, Option.bind_eq_bind, Option.bind_some, if_pos rfl, hguard]
  rfl

/-- And so is one of two bytes. -/
theorem decodeLast_two (h₃ : v₃ < 64) (h : v₃ % 4 = 0) :
    decodeLast A (A.digit v₁) (A.digit v₂) (A.digit v₃) = some [byte₁ v₁ v₂, byte₂ v₂ v₃] := by
  have hguard : (guard (v₃ % 4 = 0) : Option Unit) = some () := if_pos h
  rw [decodeLast, A.value_digit h₁, Option.bind_eq_bind, Option.bind_some,
    A.value_digit h₂, Option.bind_eq_bind, Option.bind_some, if_neg (A.digit_ne_pad h₃),
    A.value_digit h₃, Option.bind_some, hguard]
  rfl

/-- A group of four digits is decoded on its own. -/
theorem decode_digits (h₃ : v₃ < 64) (h₄ : v₄ < 64) (text : List α) :
    decode A (A.digit v₁ :: A.digit v₂ :: A.digit v₃ :: A.digit v₄ :: text) =
      (decode A text).map fun bytes => byte₁ v₁ v₂ :: byte₂ v₂ v₃ :: byte₃ v₃ v₄ :: bytes := by
  simp only [decode, if_neg (A.digit_ne_pad h₄), A.value_digit h₁, A.value_digit h₂,
    A.value_digit h₃, A.value_digit h₄, Option.bind_eq_bind, Option.bind_some]
  cases decode A text <;> rfl

end

/-- An encoding is decoded to the bytes that it encodes. -/
theorem decode_encode [DecidableEq α] (bytes : List UInt8) :
    decode A (encode A bytes) = some bytes := by
  have hlt (g k : Nat) : sextet k g < 64 := sextet_lt k g
  induction bytes using encode.induct with
  | case1 => rfl
  | case2 a =>
    obtain ⟨ha, -, -⟩ := bytes_sextets a 0 0
    have h := hlt (group a 0 0)
    rw [encode, decode, if_pos rfl, List.isEmpty_nil, if_pos rfl,
      decodeLast_one A (h 3) (h 2) (sextet_filled a 0).1, ha]
  | case3 a b =>
    obtain ⟨ha, hb, -⟩ := bytes_sextets a b 0
    have h := hlt (group a b 0)
    rw [encode, decode, if_pos rfl, List.isEmpty_nil, if_pos rfl,
      decodeLast_two A (h 3) (h 2) (h 1) (sextet_filled a b).2, ha, hb]
  | case4 a b c bytes ih =>
    obtain ⟨ha, hb, hc⟩ := bytes_sextets a b c
    have h := hlt (group a b c)
    rw [encode, decode_digits A (h 3) (h 2) (h 1) (h 0), ih, ha, hb, hc]
    rfl

end Base64
