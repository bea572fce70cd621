import WebRtcNetty.Lib.Js.Utf16
import WebRtcNetty.Lib.Java.Platform
import Mathlib.Algebra.Order.BigOperators.Group.List
import Mathlib.Algebra.Order.Ring.Nat

/-!
# UTF-8 on the pages

The pages write and read strings with the UTF-8 functions of their copy of protobuf.js. `write`
turns the code units of a string into the bytes that Java has for it (`write_utf16`), as many as
`length` has announced (`length_write`), and half a surrogate pair that stands alone into three
bytes.

`read` collects the code units in an array that it turns into a string every 8192 units. It uses the
array again, and forgets that a surrogate pair may have made it one unit longer: a chunk of 8192
units after one of 8193 gets a unit of the earlier one at its end. `read_write_iff` says that this
is all that goes wrong, and `read_write` that it does from 16385 units on.
-/

namespace WebRtcNetty.Html.Protobuf.Utf8

open Js

/-! ## The code -/

/-- The first unit starts a surrogate pair that the second one ends. -/
def isPair (c1 c2 : UInt16) : Bool :=
  c1 &&& 0xFC00 == 0xD800 && c2 &&& 0xFC00 == 0xDC00

/-- Reference: `utf8.length` (`protobuf.js:1019`). There is no unit after the last one, and so no
pair. -/
def length : List UInt16 → Nat
  | [] => 0
  | [c] => if c < 128 then 1 else if c < 2048 then 2 else 3
  | c :: c2 :: cs =>
    if c < 128 then 1 + length (c2 :: cs)
    else if c < 2048 then 2 + length (c2 :: cs)
    else if isPair c c2 then 4 + length cs
    else 3 + length (c2 :: cs)

/-- The bytes of a unit below 128. -/
def bytes₁ (c : Nat) : List UInt8 := [.ofNat c]

/-- The bytes of a unit below 2048. -/
def bytes₂ (c : Nat) : List UInt8 := [.ofNat (c >>> 6 ||| 192), .ofNat (c &&& 63 ||| 128)]

/-- The bytes of another unit. -/
def bytes₃ (c : Nat) : List UInt8 :=
  [.ofNat (c >>> 12 ||| 224), .ofNat (c >>> 6 &&& 63 ||| 128), .ofNat (c &&& 63 ||| 128)]

/-- The bytes of a character beyond the code units. -/
def bytes₄ (c : Nat) : List UInt8 :=
  [.ofNat (c >>> 18 ||| 240), .ofNat (c >>> 12 &&& 63 ||| 128), .ofNat (c >>> 6 &&& 63 ||| 128),
    .ofNat (c &&& 63 ||| 128)]

/-- The character of a surrogate pair. -/
def joined (c1 c2 : UInt16) : Nat :=
  0x10000 + ((c1.toNat &&& 0x03FF) <<< 10) + (c2.toNat &&& 0x03FF)

/-- The bytes that `write` puts into the buffer. Reference: `utf8.write` (`protobuf.js:1084`). -/
def write : List UInt16 → List UInt8
  | [] => []
  | [c] =>
    if c < 128 then bytes₁ c.toNat else if c < 2048 then bytes₂ c.toNat else bytes₃ c.toNat
  | c1 :: c2 :: cs =>
    if c1 < 128 then bytes₁ c1.toNat ++ write (c2 :: cs)
    else if c1 < 2048 then bytes₂ c1.toNat ++ write (c2 :: cs)
    else if isPair c1 c2 then bytes₄ (joined c1 c2) ++ write cs
    else bytes₃ c1.toNat ++ write (c2 :: cs)

/-- The variables of `read`: the parts, joined, and the array with the next index. -/
structure Chunks where
  parts : List UInt16
  chunk : List UInt16
  i : Nat
deriving DecidableEq

namespace Chunks

/-- Nothing has been read. -/
def empty : Chunks := ⟨[], [], 0⟩

/-- `chunk[i++] = t`, as the code unit that `String.fromCharCode` makes of the number. -/
def push (s : Chunks) (t : Int) : Chunks where
  parts := s.parts
  chunk := if s.i < s.chunk.length then s.chunk.set s.i (.ofInt t) else s.chunk ++ [.ofInt t]
  i := s.i + 1

/-- A long chunk becomes a part, with whatever the array has at its end. -/
def flush (s : Chunks) : Chunks :=
  if s.i > 8191 then ⟨s.parts ++ s.chunk, s.chunk, 0⟩ else s

/-- The string. -/
def join (s : Chunks) : List UInt16 := s.parts ++ s.chunk.take s.i

end Chunks

/-- A byte as an operand of a bit operation, where a missing one is zero. -/
def byteAt (bs : List UInt8) (i : Nat) : Nat := (bs[i]?.getD 0).toNat

/-- The loop of `read` from the bytes that are left. The first `skip` of them have been read with
the byte before them. -/
def read.loop : List UInt8 → (skip : Nat) → Chunks → Chunks
  | [], _, s => s
  | _ :: bs, skip + 1, s => loop bs skip s
  | t :: bs, 0, s =>
    let t := t.toNat
    if t < 128 then loop bs 0 (s.push t).flush
    else if t > 191 && t < 224 then
      loop bs 1 (s.push ((t &&& 31) <<< 6 ||| byteAt bs 0 &&& 63 : Nat)).flush
    else if t > 239 && t < 365 then
      let t : Int := ((t &&& 7) <<< 18 ||| (byteAt bs 0 &&& 63) <<< 12 |||
        (byteAt bs 1 &&& 63) <<< 6 ||| byteAt bs 2 &&& 63 : Nat) - 0x10000
      loop bs 3 ((s.push (0xD800 + t / 2 ^ 10)).push (0xDC00 + t % 2 ^ 10)).flush
    else
      loop bs 2 (s.push ((t &&& 15) <<< 12 ||| (byteAt bs 0 &&& 63) <<< 6 |||
        byteAt bs 1 &&& 63 : Nat)).flush

/-- Reference: `utf8.read` (`protobuf.js:1044`), of all the bytes of a buffer, as it is called. -/
def read (buffer : List UInt8) : List UInt16 := (read.loop buffer 0 .empty).join

/-! ## Bits -/

/-- The top six bits of a unit. -/
theorem and_surrogate {c : UInt16} (k : Nat) (hk : k < 64) :
    c &&& 0xFC00 = .ofNat (k * 1024) ↔ c.toNat / 1024 = k := by
  have hc : c.toNat < 65536 := c.toNat_lt
  have hmod : (c.toNat &&& 0xFC00) % 2 ^ 10 = 0 := by
    rw [Nat.and_mod_two_pow]
    exact Nat.and_zero _
  have hdiv : (c.toNat &&& 0xFC00) / 2 ^ 10 = c.toNat / 1024 := by
    rw [← Nat.shiftRight_eq_div_pow, Nat.shiftRight_and_distrib, Nat.shiftRight_eq_div_pow]
    show c.toNat / 2 ^ 10 &&& (2 ^ 6 - 1) = _
    rw [Nat.and_two_pow_sub_one_eq_mod]
    omega
  have hofNat : (UInt16.ofNat (k * 1024)).toNat = k * 1024 := by
    rw [UInt16.toNat_ofNat']
    omega
  rw [← UInt16.toNat_inj, UInt16.toNat_and, hofNat]
  show c.toNat &&& 0xFC00 = _ ↔ _
  omega

/-- A pair is a high surrogate before a low one. -/
theorem isPair_iff {c1 c2 : UInt16} :
    isPair c1 c2 = true ↔ c1.toNat / 1024 = 54 ∧ c2.toNat / 1024 = 55 := by
  rw [isPair, Bool.and_eq_true, beq_iff_eq, beq_iff_eq]
  exact and_congr (and_surrogate 54 (by decide)) (and_surrogate 55 (by decide))

/-- Low bits and high bits are added. -/
theorem or_high {n k : Nat} (h : n < 2 ^ k) (m : Nat) : n ||| 2 ^ k * m = n + 2 ^ k * m := by
  rw [Nat.or_comm, ← Nat.two_pow_add_eq_or_of_lt h, Nat.add_comm]

/-- The lowest six bits. -/
theorem and_63 (n : Nat) : n &&& 63 = n % 64 := Nat.and_two_pow_sub_one_eq_mod n 6

/-- The last six bits, in a byte that is not the first one of a character. -/
theorem continuation (n : Nat) : n &&& 63 ||| 128 = n % 64 + 128 := by
  rw [and_63]
  exact or_high (k := 6) (by omega) 2

section
variable {c : Nat}

/-- The two bytes of a character, as numbers. -/
theorem bytes₂_eq (hc : c < 2048) : bytes₂ c = [.ofNat (c / 64 + 192), .ofNat (c % 64 + 128)] := by
  have hlead : c >>> 6 ||| 192 = c / 64 + 192 := by
    rw [Nat.shiftRight_eq_div_pow]
    exact or_high (k := 6) (by omega) 3
  rw [bytes₂, hlead, continuation]

/-- The three bytes. -/
theorem bytes₃_eq (hc : c < 65536) : bytes₃ c =
    [.ofNat (c / 4096 + 224), .ofNat (c / 64 % 64 + 128), .ofNat (c % 64 + 128)] := by
  have hlead : c >>> 12 ||| 224 = c / 4096 + 224 := by
    rw [Nat.shiftRight_eq_div_pow]
    exact or_high (k := 5) (by omega) 7
  rw [bytes₃, hlead, continuation, continuation, Nat.shiftRight_eq_div_pow]

/-- The four bytes. -/
theorem bytes₄_eq (hc : c < 0x110000) : bytes₄ c =
    [.ofNat (c / 262144 + 240), .ofNat (c / 4096 % 64 + 128), .ofNat (c / 64 % 64 + 128),
      .ofNat (c % 64 + 128)] := by
  have hlead : c >>> 18 ||| 240 = c / 262144 + 240 := by
    rw [Nat.shiftRight_eq_div_pow]
    exact or_high (k := 4) (by omega) 15
  rw [bytes₄, hlead, continuation, continuation, continuation, Nat.shiftRight_eq_div_pow,
    Nat.shiftRight_eq_div_pow]

end

/-- The character of a pair, as a number. -/
theorem joined_eq (c1 c2 : UInt16) :
    joined c1 c2 = 0x10000 + c1.toNat % 1024 * 1024 + c2.toNat % 1024 := by
  have h (c : UInt16) : c.toNat &&& 0x3FF = c.toNat % 1024 :=
    Nat.and_two_pow_sub_one_eq_mod c.toNat 10
  rw [joined, h, h, Nat.shiftLeft_eq]

/-! ## Writing -/

/-- As many bytes are written as have been announced. -/
theorem length_write (s : List UInt16) : (write s).length = length s := by
  fun_induction write s <;> simp [length, bytes₁, bytes₂, bytes₃, bytes₄, *] <;> omega

/-- A unit that starts no pair is written by itself. -/
theorem write_cons {c : UInt16} {cs : List UInt16} (h : ∀ c2 ∈ cs.head?, isPair c c2 = false) :
    write (c :: cs) = write [c] ++ write cs := by
  cases cs with
  | nil => rw [write, List.append_nil]
  | cons c2 cs =>
    have hpair : isPair c c2 = false := h c2 rfl
    rw [write, write, hpair]
    split
    · rfl
    · split
      · rfl
      · rfl

/-- The first unit of a pair is none of those of one or two bytes. -/
theorem isPair_ge {c1 c2 : UInt16} (h : isPair c1 c2 = true) : ¬ c1 < 128 ∧ ¬ c1 < 2048 := by
  have := (isPair_iff.1 h).1
  rw [UInt16.lt_iff_toNat_lt, UInt16.lt_iff_toNat_lt]
  show ¬ c1.toNat < 128 ∧ ¬ c1.toNat < 2048
  omega

/-- A pair is written as one character. -/
theorem write_pair {c1 c2 : UInt16} (h : isPair c1 c2 = true) (cs : List UInt16) :
    write (c1 :: c2 :: cs) = bytes₄ (joined c1 c2) ++ write cs := by
  obtain ⟨h₁, h₂⟩ := isPair_ge h
  rw [write, if_neg h₁, if_neg h₂, if_pos h]

/-- The bytes of one unit. -/
theorem write_unit (c : UInt16) : write [c] =
    if c.toNat < 128 then bytes₁ c.toNat
    else if c.toNat < 2048 then bytes₂ c.toNat
    else bytes₃ c.toNat := rfl

/-- A number of 16 bits is a unit. -/
theorem toNat_ofNat {n : Nat} (h : n < 65536) : (UInt16.ofNat n).toNat = n := by
  rw [UInt16.toNat_ofNat']
  omega

/-- The string in pieces: surrogate pairs and single units. -/
def chars : List UInt16 → List (List UInt16)
  | [] => []
  | [c] => [[c]]
  | c1 :: c2 :: cs => if isPair c1 c2 then [c1, c2] :: chars cs else [c1] :: chars (c2 :: cs)

/-- The units of a piece are put into the array, which is then looked at. -/
def Chunks.add (s : Chunks) (us : List UInt16) : Chunks :=
  (us.foldl (fun s c => s.push c.toNat) s).flush

/-- Bits that do not overlap are added. -/
theorem shiftLeft_or {a b k : Nat} (h : b < 2 ^ k) : a <<< k ||| b = a * 2 ^ k + b := by
  rw [Nat.shiftLeft_eq, Nat.mul_comm, Nat.two_pow_add_eq_or_of_lt h]

/-- Two digits to the base 64. -/
theorem digits₂ (a b : Nat) : a <<< 6 ||| b &&& 63 = a * 64 + b % 64 := by
  rw [and_63]
  exact shiftLeft_or (Nat.mod_lt b (by decide))

/-- Three digits. -/
theorem digits₃ (a b c : Nat) :
    a <<< 12 ||| (b &&& 63) <<< 6 ||| c &&& 63 = (a * 64 + b % 64) * 64 + c % 64 := by
  rw [Nat.or_assoc, digits₂, shiftLeft_or (by rw [and_63]; omega), and_63]
  omega

/-- Four digits. -/
theorem digits₄ (a b c d : Nat) :
    a <<< 18 ||| (b &&& 63) <<< 12 ||| (c &&& 63) <<< 6 ||| d &&& 63 =
      ((a * 64 + b % 64) * 64 + c % 64) * 64 + d % 64 := by
  rw [Nat.or_assoc, Nat.or_assoc, ← Nat.or_assoc _ _ (d &&& 63), digits₃,
    shiftLeft_or (by rw [and_63]; omega), and_63]
  omega

/-- A number of eight bits is a byte. -/
theorem toNat_byte {n : Nat} (h : n < 256) : (UInt8.ofNat n).toNat = n := by
  rw [UInt8.toNat_ofNat']
  omega

section
variable {c : Nat} (bs : List UInt8) (st : Chunks)

/-- A character of one byte is read. -/
theorem loop_bytes₁ (h : c < 128) :
    read.loop (bytes₁ c ++ bs) 0 st = read.loop bs 0 (st.push c).flush := by
  have hc : (UInt8.ofNat c).toNat = c := toNat_byte (by omega)
  simp only [bytes₁, List.cons_append, List.nil_append, read.loop, hc, if_pos h]

/-- A character of two bytes is read. -/
theorem loop_bytes₂ (h : 128 ≤ c) (h' : c < 2048) :
    read.loop (bytes₂ c ++ bs) 0 st = read.loop bs 0 (st.push c).flush := by
  have hlead : (UInt8.ofNat (c / 64 + 192)).toNat = c / 64 + 192 := toNat_byte (by omega)
  have hlast : byteAt (.ofNat (c % 64 + 128) :: bs) 0 = c % 64 + 128 := toNat_byte (by omega)
  have hmask : c / 64 + 192 &&& 31 = c / 64 :=
    (Nat.and_two_pow_sub_one_eq_mod _ 5).trans (by omega)
  have hrange : (decide (c / 64 + 192 > 191) && decide (c / 64 + 192 < 224)) = true := by
    rw [Bool.and_eq_true, decide_eq_true_eq, decide_eq_true_eq]
    omega
  have hc : c / 64 * 64 + (c % 64 + 128) % 64 = c := by omega
  simp only [bytes₂_eq h', List.cons_append, List.nil_append, read.loop, hlead,
    if_neg (show ¬ c / 64 + 192 < 128 by omega), if_pos hrange, hmask, digits₂, hlast, hc]

/-- A character of three bytes is read. -/
theorem loop_bytes₃ (h : 2048 ≤ c) (h' : c < 65536) :
    read.loop (bytes₃ c ++ bs) 0 st = read.loop bs 0 (st.push c).flush := by
  have hlead : (UInt8.ofNat (c / 4096 + 224)).toNat = c / 4096 + 224 := toNat_byte (by omega)
  have hmiddle : byteAt (.ofNat (c / 64 % 64 + 128) :: .ofNat (c % 64 + 128) :: bs) 0 =
      c / 64 % 64 + 128 := toNat_byte (by omega)
  have hlast : byteAt (.ofNat (c / 64 % 64 + 128) :: .ofNat (c % 64 + 128) :: bs) 1 =
      c % 64 + 128 := toNat_byte (by omega)
  have hmask : c / 4096 + 224 &&& 15 = c / 4096 :=
    (Nat.and_two_pow_sub_one_eq_mod _ 4).trans (by omega)
  have htwo : (decide (c / 4096 + 224 > 191) && decide (c / 4096 + 224 < 224)) ≠ true := by
    rw [Ne, Bool.and_eq_true, decide_eq_true_eq, decide_eq_true_eq]
    omega
  have hfour : (decide (c / 4096 + 224 > 239) && decide (c / 4096 + 224 < 365)) ≠ true := by
    rw [Ne, Bool.and_eq_true, decide_eq_true_eq, decide_eq_true_eq]
    omega
  have hc : (c / 4096 * 64 + (c / 64 % 64 + 128) % 64) * 64 + (c % 64 + 128) % 64 = c := by omega
  simp only [bytes₃_eq h', List.cons_append, List.nil_append, read.loop, hlead,
    if_neg (show ¬ c / 4096 + 224 < 128 by omega), if_neg htwo, if_neg hfour, hmask, digits₃,
    hmiddle, hlast, hc]

/-- A character of four bytes is read as a pair. -/
theorem loop_bytes₄ (h : 65536 ≤ c) (h' : c < 0x110000) :
    read.loop (bytes₄ c ++ bs) 0 st = read.loop bs 0
      ((st.push ((0xD800 + (c - 0x10000) / 0x400 : Nat) : Int)).push
        ((0xDC00 + (c - 0x10000) % 0x400 : Nat) : Int)).flush := by
  have hlead : (UInt8.ofNat (c / 262144 + 240)).toNat = c / 262144 + 240 := toNat_byte (by omega)
  have h₀ (x : List UInt8) : byteAt (.ofNat (c / 4096 % 64 + 128) :: x) 0 =
      c / 4096 % 64 + 128 := toNat_byte (by omega)
  have h₁ (a : UInt8) (x : List UInt8) : byteAt (a :: .ofNat (c / 64 % 64 + 128) :: x) 1 =
      c / 64 % 64 + 128 := toNat_byte (by omega)
  have h₂ (a b : UInt8) (x : List UInt8) : byteAt (a :: b :: .ofNat (c % 64 + 128) :: x) 2 =
      c % 64 + 128 := toNat_byte (by omega)
  have hmask : c / 262144 + 240 &&& 7 = c / 262144 :=
    (Nat.and_two_pow_sub_one_eq_mod _ 3).trans (by omega)
  have htwo : (decide (c / 262144 + 240 > 191) && decide (c / 262144 + 240 < 224)) ≠ true := by
    rw [Ne, Bool.and_eq_true, decide_eq_true_eq, decide_eq_true_eq]
    omega
  have hfour : (decide (c / 262144 + 240 > 239) && decide (c / 262144 + 240 < 365)) = true := by
    rw [Bool.and_eq_true, decide_eq_true_eq, decide_eq_true_eq]
    omega
  have hc : ((c / 262144 * 64 + (c / 4096 % 64 + 128) % 64) * 64 +
      (c / 64 % 64 + 128) % 64) * 64 + (c % 64 + 128) % 64 = c := by omega
  have hhigh : 0xD800 + ((c : Int) - 0x10000) / 2 ^ 10 =
      ((0xD800 + (c - 0x10000) / 0x400 : Nat) : Int) := by omega
  have hlow : 0xDC00 + ((c : Int) - 0x10000) % 2 ^ 10 =
      ((0xDC00 + (c - 0x10000) % 0x400 : Nat) : Int) := by omega
  simp only [bytes₄_eq h', List.cons_append, List.nil_append, read.loop, hlead,
    if_neg (show ¬ c / 262144 + 240 < 128 by omega), if_neg htwo, if_pos hfour, hmask, digits₄,
    h₀, h₁, h₂, hc, hhigh, hlow]

end

/-- The reader undoes the writer, one piece at a time. -/
theorem loop_write (s : List UInt16) (st : Chunks) :
    read.loop (write s) 0 st = (chars s).foldl Chunks.add st := by
  have hunit (c : UInt16) (bs : List UInt8) (st : Chunks) :
      read.loop (write [c] ++ bs) 0 st = read.loop bs 0 (st.add [c]) := by
    have hc : c.toNat < 65536 := c.toNat_lt
    rw [write_unit]
    split
    · next h => exact loop_bytes₁ bs st h
    · next h =>
      split
      · next h' => exact loop_bytes₂ bs st (by omega) h'
      · next h' => exact loop_bytes₃ bs st (by omega) hc
  induction s using chars.induct generalizing st with
  | case1 => rfl
  | case2 c =>
    have := hunit c [] st
    rwa [List.append_nil] at this
  | case3 c1 c2 cs hpair ih =>
    obtain ⟨h₁, h₂⟩ := isPair_iff.1 hpair
    have hjoined := joined_eq c1 c2
    have hhigh : 0xD800 + (joined c1 c2 - 0x10000) / 0x400 = c1.toNat := by omega
    have hlow : 0xDC00 + (joined c1 c2 - 0x10000) % 0x400 = c2.toNat := by omega
    rw [write_pair hpair, loop_bytes₄ _ _ (by omega) (by omega), hhigh, hlow, ih, chars,
      if_pos hpair]
    rfl
  | case4 c1 c2 cs hpair ih =>
    have hnot : ∀ c ∈ (c2 :: cs).head?, isPair c1 c = false := by
      intro c hc
      cases hc
      exact Bool.eq_false_iff.2 hpair
    rw [write_cons hnot, hunit, ih, chars, if_neg hpair]
    rfl

/-! ## The array -/

/-- The sizes of the chunks that are turned into parts, with `i` units in the array to begin. -/
def flushes : (i : Nat) → List (List UInt16) → List Nat
  | _, [] => []
  | i, us :: ps =>
    if i + us.length > 8191 then (i + us.length) :: flushes 0 ps else flushes (i + us.length) ps

/-- A chunk is flushed when it is full, and not before. -/
theorem le_flushes {n : Nat} : ∀ {i : Nat} {ps : List (List UInt16)}, n ∈ flushes i ps → 8191 < n
  | _, [], h => by cases h
  | i, us :: ps, h => by
    rw [flushes] at h
    split at h
    · next hi =>
      rcases List.mem_cons.1 h with rfl | h
      · exact hi
      · exact le_flushes h
    · exact le_flushes h

/-- The chunks are cut from the string. -/
theorem sum_flushes : ∀ (i : Nat) (ps : List (List UInt16)),
    (flushes i ps).sum ≤ i + ps.flatten.length
  | _, [] => Nat.zero_le _
  | i, us :: ps => by
    rw [flushes, List.flatten_cons, List.length_append]
    split
    · have := sum_flushes 0 ps
      rw [List.sum_cons]
      omega
    · have := sum_flushes (i + us.length) ps
      omega

namespace Chunks

/-- The array has been filled up to the index. -/
def Filled (s : Chunks) : Prop := s.i ≤ s.chunk.length

/-- A unit is what its number is converted to. -/
theorem ofInt_toNat (c : UInt16) : UInt16.ofInt c.toNat = c := by
  have hc : c.toNat < 65536 := c.toNat_lt
  rw [← UInt16.toNat_inj, UInt16.ofInt, UInt16.toNat_ofNat']
  omega

/-- What putting units into the array does. -/
structure Puts (s : Chunks) (us : List UInt16) (s' : Chunks) : Prop where
  parts : s'.parts = s.parts
  i : s'.i = s.i + us.length
  length : s'.chunk.length = max s.chunk.length s'.i
  take : s'.chunk.take s'.i = s.chunk.take s.i ++ us

/-- To put nothing. -/
theorem Puts.nil {s : Chunks} (h : s.Filled) : s.Puts [] s :=
  ⟨rfl, rfl, (Nat.max_eq_left h).symm, (List.append_nil _).symm⟩

/-- To put one unit. -/
theorem puts_push {s : Chunks} (h : s.Filled) (c : UInt16) : s.Puts [c] (s.push c.toNat) := by
  rw [push, ofInt_toNat]
  split
  · next hlt =>
    refine ⟨rfl, rfl, ?_, ?_⟩
    · simp only [List.length_set]
      omega
    · show (s.chunk.set s.i c).take (s.i + 1) = _
      rw [List.take_add_one, List.getElem?_set_self hlt, List.take_set_of_le (le_refl _)]
      rfl
  · next hge =>
    have heq : s.i = s.chunk.length := Nat.le_antisymm h (Nat.not_lt.1 hge)
    refine ⟨rfl, rfl, ?_, ?_⟩
    · simp only [List.length_append, List.length_singleton]
      omega
    · show (s.chunk ++ [c]).take (s.i + 1) = _
      rw [heq, List.take_length, List.take_of_length_le (by rw [List.length_append]; rfl)]

/-- To put units after others. -/
theorem Puts.trans {s s' s'' : Chunks} {us vs : List UInt16} (h : s.Puts us s')
    (h' : s'.Puts vs s'') : s.Puts (us ++ vs) s'' := by
  refine ⟨h'.parts.trans h.parts, ?_, ?_, ?_⟩
  · rw [h'.i, h.i, List.length_append, Nat.add_assoc]
  · have hi := h'.i
    rw [h'.length, h.length]
    omega
  · rw [h'.take, h.take, List.append_assoc]

/-- The chunk has been filled up to its end. -/
theorem Puts.filled {s s' : Chunks} {us : List UInt16} (h : s.Puts us s') : s'.Filled := by
  rw [Filled, h.length]
  exact Nat.le_max_right ..

/-- To put units one after another. -/
theorem puts_foldl {s : Chunks} (h : s.Filled) (us : List UInt16) :
    s.Puts us (us.foldl (fun s c => s.push c.toNat) s) := by
  induction us generalizing s with
  | nil => exact .nil h
  | cons c us ih =>
    have hpush := puts_push h c
    exact hpush.trans (ih hpush.filled)

/-- What adding a piece does: it is added to the string unless it fills the array, and then there
may be more at the end. -/
theorem add_cases {s : Chunks} (h : s.Filled) (us : List UInt16) :
    (s.add us).Filled ∧
      (s.i + us.length ≤ 8191 ∧ (s.add us).i = s.i + us.length ∧
          (s.add us).chunk.length = max s.chunk.length (s.i + us.length) ∧
          (s.add us).join = s.join ++ us ∨
        8191 < s.i + us.length ∧ (s.add us).i = 0 ∧
          (s.add us).chunk.length = max s.chunk.length (s.i + us.length) ∧
          ∃ more, (s.add us).join = s.join ++ us ++ more ∧
            more.length = s.chunk.length - (s.i + us.length)) := by
  have hputs := puts_foldl h us
  rw [add]
  generalize us.foldl (fun s c => s.push c.toNat) s = s' at hputs
  have hi := hputs.i
  have hlength := hputs.length
  rw [flush]
  split
  · next hfull =>
    refine ⟨Nat.zero_le _, .inr ⟨by omega, rfl, by rw [hlength, hi], s'.chunk.drop s'.i, ?_, ?_⟩⟩
    · show s'.parts ++ s'.chunk ++ [] = _
      rw [join, List.append_assoc s.parts, ← hputs.take, hputs.parts, List.append_assoc s.parts,
        List.append_assoc s.parts, List.take_append_drop, List.append_nil]
    · rw [List.length_drop]
      omega
  · next hnot =>
    refine ⟨hputs.filled, .inl ⟨by omega, hi, by rw [hlength, hi], ?_⟩⟩
    rw [join, join, hputs.parts, hputs.take, List.append_assoc]

/-- Nothing gets lost. -/
theorem le_length_join (ps : List (List UInt16)) : ∀ {s : Chunks}, s.Filled →
    s.join.length + ps.flatten.length ≤ (ps.foldl add s).join.length := by
  induction ps with
  | nil => exact fun _ => le_refl _
  | cons us ps ih =>
    intro s h
    obtain ⟨hfilled, hadd⟩ := add_cases h us
    have hrest := ih hfilled
    rw [List.foldl_cons, List.flatten_cons, List.length_append]
    obtain ⟨-, -, -, hjoin⟩ | ⟨-, -, -, more, hjoin, -⟩ := hadd
    · rw [hjoin, List.length_append] at hrest
      omega
    · rw [hjoin, List.length_append, List.length_append] at hrest
      omega

/-- The pieces are all that is added as long as no chunk is shorter than one before it. -/
theorem join_foldl_iff (ps : List (List UInt16)) : ∀ {s : Chunks}, s.Filled →
    ((ps.foldl add s).join = s.join ++ ps.flatten ↔
      (s.chunk.length :: flushes s.i ps).Pairwise (· ≤ ·)) := by
  induction ps with
  | nil =>
    intro s _
    exact iff_of_true (List.append_nil _).symm (List.pairwise_singleton _ _)
  | cons us ps ih =>
    intro s h
    obtain ⟨hfilled, hadd⟩ := add_cases h us
    have hrest := ih hfilled
    rw [List.foldl_cons, List.flatten_cons, flushes, ← List.append_assoc]
    obtain ⟨hnot, hi, hlength, hjoin⟩ | ⟨hfull, hi, hlength, more, hjoin, hmore⟩ := hadd
    · rw [← hjoin, hrest, if_neg (by omega), hi, hlength, List.pairwise_cons, List.pairwise_cons]
      refine and_congr_left' (forall₂_congr fun n hn => ?_)
      have := le_flushes hn
      omega
    · rw [if_pos hfull, List.pairwise_cons, List.forall_mem_cons]
      by_cases hle : s.chunk.length ≤ s.i + us.length
      · rw [List.length_eq_zero_iff.1 (hmore.trans (Nat.sub_eq_zero_of_le hle)),
          List.append_nil] at hjoin
        rw [← hjoin, hrest, hi, hlength, Nat.max_eq_right hle, List.pairwise_cons]
        constructor
        · rintro ⟨hlater, hps⟩
          exact ⟨⟨hle, fun n hn => hle.trans (hlater n hn)⟩, hlater, hps⟩
        · exact And.right
      · -- the array is longer than the chunk, and its end has become part of the string
        have hlong := le_length_join ps hfilled
        refine iff_of_false (fun heq => ?_) fun hsorted => hle hsorted.1.1
        rw [heq, hjoin] at hlong
        simp only [List.length_append] at hlong
        omega

end Chunks

/-! ## The round trip -/

/-- The characters of a string make up the string. -/
theorem flatten_chars (s : List UInt16) : (chars s).flatten = s := by
  induction s using chars.induct with
  | case1 => rfl
  | case2 c => rfl
  | case3 c1 c2 cs hpair ih => rw [chars, if_pos hpair, List.flatten_cons, ih]; rfl
  | case4 c1 c2 cs hpair ih => rw [chars, if_neg hpair, List.flatten_cons, ih]; rfl

/-- The pages read back exactly the strings that they do not cut into chunks of which one is shorter
than one before it. -/
theorem read_write_iff (s : List UInt16) :
    read (write s) = s ↔ (flushes 0 (chars s)).Pairwise (· ≤ ·) := by
  have hiff := Chunks.join_foldl_iff (chars s) (s := .empty) (Nat.zero_le _)
  have hall : ∀ n ∈ flushes 0 (chars s), Chunks.empty.chunk.length ≤ n := fun n _ => Nat.zero_le n
  rw [flatten_chars, List.pairwise_cons] at hiff
  rw [read, loop_write]
  exact hiff.trans (and_iff_right hall)

/-- A string of at most 16384 units is not cut in this way. -/
theorem pairwise_flushes {s : List UInt16} (h : s.length ≤ 16384) :
    (flushes 0 (chars s)).Pairwise (· ≤ ·) := by
  refine List.pairwise_iff_forall_sublist.2 fun {m n} hsub => ?_
  have hmem := hsub.subset
  have hm := le_flushes (hmem (.head _))
  have hn := le_flushes (hmem (.tail _ (.head _)))
  have hsum := hsub.sum_le_sum fun k _ => Nat.zero_le k
  have htotal := sum_flushes 0 (chars s)
  rw [flatten_chars] at htotal
  simp only [List.sum_cons, List.sum_nil] at hsum
  omega

/-- A string with a surrogate pair across the end of its first chunk. -/
def straddling (n : Nat) : List UInt16 :=
  List.replicate 8191 97 ++ 0xD83D :: 0xDE00 :: List.replicate n 97

/-- Letters before a string are characters of their own. -/
theorem chars_replicate (n : Nat) (s : List UInt16) :
    chars (List.replicate n 97 ++ s) = List.replicate n [97] ++ chars s := by
  have hcons (s : List UInt16) : chars (97 :: s) = [97] :: chars s := by
    cases s with
    | nil => rfl
    | cons c s => rfl
  induction n with
  | zero => rfl
  | succ n ih => rw [List.replicate_succ, List.cons_append, hcons, ih]; rfl

/-- Letters fill a chunk up one by one. -/
theorem flushes_replicate (n : Nat) (ps : List (List UInt16)) : ∀ i, i + n ≤ 8191 →
    flushes i (List.replicate n [97] ++ ps) = flushes (i + n) ps := by
  induction n with
  | zero => exact fun _ _ => rfl
  | succ n ih =>
    intro i h
    rw [List.replicate_succ, List.cons_append, flushes, List.length_singleton, if_neg (by omega),
      ih _ (by omega)]
    congr 1
    omega

/-- Its second chunk is one unit shorter than its first one. -/
theorem flushes_straddling (n : Nat) :
    ∃ ns, flushes 0 (chars (straddling (8192 + n))) = 8193 :: 8192 :: ns := by
  have hpair (s : List UInt16) : chars (0xD83D :: 0xDE00 :: s) = [0xD83D, 0xDE00] :: chars s := rfl
  have hsplit : List.replicate (8192 + n) [(97 : UInt16)] =
      List.replicate 8191 [97] ++ [97] :: List.replicate n [97] := by
    rw [← List.replicate_succ, List.replicate_append_replicate]
    congr 1
    omega
  have hrest : chars (List.replicate (8192 + n) 97) = List.replicate (8192 + n) [97] := by
    have := chars_replicate (8192 + n) []
    rwa [List.append_nil, chars, List.append_nil] at this
  refine ⟨flushes 0 (List.replicate n [97]), ?_⟩
  rw [straddling, chars_replicate, hpair, flushes_replicate _ _ _ (by decide), hrest, flushes,
    if_pos (by decide), hsplit, flushes_replicate _ _ _ (by decide), flushes, if_pos (by decide)]
  rfl

/-- The pages read back every string of at most 16384 units, and not all strings of any greater
length. -/
theorem read_write : (∀ s : List UInt16, s.length ≤ 16384 → read (write s) = s) ∧
    ∀ n, 16384 < n → ∃ s : List UInt16, s.length = n ∧ read (write s) ≠ s := by
  refine ⟨fun s h => (read_write_iff s).2 (pairwise_flushes h), fun n hn => ?_⟩
  obtain ⟨k, rfl⟩ := Nat.exists_eq_add_of_lt hn
  refine ⟨straddling (8192 + k), ?_, fun h => ?_⟩
  · simp only [straddling, List.length_append, List.length_cons, List.length_replicate]
    omega
  · obtain ⟨ns, hns⟩ := flushes_straddling k
    have hsorted := (read_write_iff _).1 h
    rw [hns, List.pairwise_cons] at hsorted
    exact absurd (hsorted.1 8192 (.head _)) (by decide)

end WebRtcNetty.Html.Protobuf.Utf8
