import WebRtcNetty.Lib.Base64
import WebRtcNetty.Lib.Js.Number

/-!
# Base64 on the file page

The file page shows a received image through a data URL, whose base64 text `encode` makes of the
received bytes. A byte that is missing at the end is NaN, which the bit operations read as zero, and
the digits that have no byte are overwritten by the index of the padding character.
`encode_eq` says that this is the encoding of the standard.
-/

namespace WebRtcNetty.Html

open Js Js.Number

/-- `s.charAt(n)`. -/
def charAt (s : List Char) : Number → List Char
  | int n => if 0 ≤ n then s[n.toNat]?.toList else []
  | nan => s[0]?.toList

/-- Reference: `keyStr` of `encode` (`sendfile.js`). -/
def keyStr : List Char :=
  "ABCDEFGHIJKLMNOPQRSTUVWXYZabcdefghijklmnopqrstuvwxyz0123456789+/=".toList

/-- A turn of the loop of `encode`: what it adds to the output for the three numbers it has read. -/
def encode.turn (chr1 chr2 chr3 : Number) : List Char :=
  let enc1 := chr1 >>> 2
  let enc2 := ((chr1 &&& int 3) <<< 4) ||| (chr2 >>> 4)
  let enc3 := ((chr2 &&& int 15) <<< 2) ||| (chr3 >>> 6)
  let enc4 := chr3 &&& int 63
  let (enc3, enc4) :=
    if chr2.isNaN then (int 64, int 64)
    else if chr3.isNaN then (enc3, int 64)
    else (enc3, enc4)
  charAt keyStr enc1 ++ charAt keyStr enc2 ++ charAt keyStr enc3 ++ charAt keyStr enc4

/-- A byte of the input as a number. -/
def chr (b : UInt8) : Number := int b.toNat

/-- The loop of `encode` from the bytes that are left. -/
def encode.loop (output : List Char) : List UInt8 → List Char
  | [] => output
  | [a] => output ++ turn (chr a) nan nan
  | [a, b] => output ++ turn (chr a) (chr b) nan
  | a :: b :: c :: input => loop (output ++ turn (chr a) (chr b) (chr c)) input

/-- Reference: `encode` (`sendfile.js`). -/
def encode (input : List UInt8) : List Char := encode.loop [] input

/-! ## The alphabet -/

/-- The alphabet of the standard. -/
def alphabet : Base64.Alphabet Char where
  digits := "ABCDEFGHIJKLMNOPQRSTUVWXYZabcdefghijklmnopqrstuvwxyz0123456789+/".toList
  pad := '='
  length_digits := by decide
  nodup := by decide
  pad_notMem := by decide

/-- The last index of `keyStr` is that of the padding character. -/
theorem charAt_keyStr : ∀ v ≤ 64, charAt keyStr (int (v : Nat)) = [alphabet.digit v] := by
  decide +kernel

/-- The characters of the code are the digits of the alphabet. -/
theorem charAt_sextet (k g : Nat) :
    charAt keyStr (int (Base64.sextet k g)) = [alphabet.digit (Base64.sextet k g)] :=
  charAt_keyStr _ (Base64.sextet_lt k g).le

/-- The last one is the padding. -/
theorem charAt_pad : charAt keyStr (int 64) = [alphabet.pad] := by decide +kernel

/-! ## The turns -/

section
open Base64 (sextet group)
variable (a b c : UInt8)

/-- The digits of a group, each from the one or two bytes it has bits of. -/
theorem sextet_group :
    sextet 3 (group a b c) = a.toNat / 4 ∧
      sextet 2 (group a b c) = a.toNat % 4 * 16 + b.toNat / 16 ∧
      sextet 1 (group a b c) = b.toNat % 16 * 4 + c.toNat / 64 ∧
      sextet 0 (group a b c) = c.toNat % 64 := by
  have ha := a.toNat_lt
  have hb := b.toNat_lt
  have hc := c.toNat_lt
  simp only [sextet, group]
  omega

/-- The first six bits of a group. -/
theorem enc1_eq : chr a >>> 2 = int (sextet 3 (group a b c)) := by
  have ha := a.toNat_lt
  rw [(sextet_group a b c).1]
  exact int_shiftRight (by decide) (by omega)

/-- The second six. -/
theorem enc2_eq : ((chr a &&& int 3) <<< 4) ||| (chr b >>> 4) = int (sextet 2 (group a b c)) := by
  have ha := a.toNat_lt
  have hb := b.toNat_lt
  have hand : chr a &&& int 3 = int (a.toNat % 4 : Nat) := int_and (k := 2) (by decide) (by omega)
  have hshr : chr b >>> 4 = int (b.toNat / 16 : Nat) := int_shiftRight (by decide) (by omega)
  rw [(sextet_group a b c).2.1, hand, hshr, int_shiftLeft (by decide) (by omega)]
  exact int_or (by omega) (by omega)

/-- The third six. -/
theorem enc3_eq : ((chr b &&& int 15) <<< 2) ||| (chr c >>> 6) = int (sextet 1 (group a b c)) := by
  have hb := b.toNat_lt
  have hc := c.toNat_lt
  have hand : chr b &&& int 15 = int (b.toNat % 16 : Nat) := int_and (k := 4) (by decide) (by omega)
  have hshr : chr c >>> 6 = int (c.toNat / 64 : Nat) := int_shiftRight (by decide) (by omega)
  rw [(sextet_group a b c).2.2.1, hand, hshr, int_shiftLeft (by decide) (by omega)]
  exact int_or (by omega) (by omega)

/-- The last six. -/
theorem enc4_eq : chr c &&& int 63 = int (sextet 0 (group a b c)) := by
  have hc := c.toNat_lt
  rw [(sextet_group a b c).2.2.2]
  exact int_and (k := 6) (by decide) (by omega)

/-- A turn on three bytes adds what the standard makes of them. -/
theorem encode.turn_three :
    turn (chr a) (chr b) (chr c) = Base64.encode alphabet [a, b, c] := by
  have hb : (chr b).isNaN = false := rfl
  have hc : (chr c).isNaN = false := rfl
  simp only [turn, hb, hc, Bool.false_eq_true, if_false, enc1_eq a b c, enc2_eq a b c,
    enc3_eq a b c, enc4_eq a b c, charAt_sextet]
  rfl

/-- A turn on two bytes adds what the standard makes of them: the last digit is overwritten, and
the one before has its lower bits from the NaN. -/
theorem encode.turn_two : turn (chr a) (chr b) nan = Base64.encode alphabet [a, b] := by
  have hb : (chr b).isNaN = false := rfl
  have hc : nan.isNaN = true := rfl
  have hnan : nan >>> 6 = chr 0 >>> 6 := nan_shiftRight 6
  simp only [turn, hb, hc, Bool.false_eq_true, if_false, if_true, hnan, enc1_eq a b 0,
    enc2_eq a b 0, enc3_eq a b 0, charAt_sextet, charAt_pad]
  rfl

/-- A turn of the loop with one byte left. -/
theorem encode.turn_one : turn (chr a) nan nan = Base64.encode alphabet [a] := by
  have hb : nan.isNaN = true := rfl
  have hnan : nan >>> 4 = chr 0 >>> 4 := nan_shiftRight 4
  simp only [turn, hb, if_true, hnan, enc1_eq a 0 0, enc2_eq a 0 0, charAt_sextet, charAt_pad]
  rfl

end

/-! ## The text -/

/-- The loop appends the encoding of what is left. -/
theorem encode.loop_eq (output : List Char) (input : List UInt8) :
    loop output input = output ++ Base64.encode alphabet input := by
  induction output, input using encode.loop.induct with
  | case1 output => rw [loop, Base64.encode, List.append_nil]
  | case2 output a => rw [loop, turn_one]
  | case3 output a b => rw [loop, turn_two]
  | case4 output a b c input ih =>
    rw [loop, ih, turn_three, List.append_assoc]
    rfl

/-- The page encodes as Base64 does, over its alphabet. -/
theorem encode_eq (input : List UInt8) : encode input = Base64.encode alphabet input :=
  encode.loop_eq [] input

/-- The text is the one of the standard, with its length, digits and padding, and the standard
decoder makes the bytes of it again. -/
theorem encode_base64 (input : List UInt8) :
    encode input = Base64.encode alphabet input ∧
      (encode input).length = 4 * ((input.length + 2) / 3) ∧
      (∃ text, encode input = text ++ List.replicate (Base64.padding input.length) '=' ∧
        ∀ c ∈ text, c ∈ alphabet.digits) ∧
      Base64.decode alphabet (encode input) = some input := by
  rw [encode_eq]
  exact ⟨rfl, Base64.length_encode alphabet input, Base64.encode_shape alphabet input,
    Base64.decode_encode alphabet input⟩

end WebRtcNetty.Html
