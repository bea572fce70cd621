import WebRtcNetty.Html.Protobuf.Utf8
import WebRtcNetty.Lib.Proto2.Wire

/-!
# The writer of the pages

The writer of protobuf.js does not write bytes. It lists operations, each with the number of bytes
that it will write, computed from the value beforehand, and with the sum of these numbers; `finish`
then allocates a buffer of that size and runs the operations on it, each at the position that the
numbers put it. A nested message is a list of its own (`fork`), which `ldelim` puts behind its
length.

`Writer.Sound` says that the numbers are right. Every operation keeps it (`Writer.Adds`), and so
`finish` gives the bytes of the operations one after the other (`Writer.finish_eq`), integers being
the varints of the wire format (`writeVarint32_eq`, `writeVarint64_eq`).
-/

namespace WebRtcNetty.Html.Protobuf

open Proto2 (writeVarint writeVarintAux)

/-! ## 64-bit values -/

/-- Reference: `LongBits` (`protobuf.js:7469`). -/
structure LongBits where
  lo : UInt32
  hi : UInt32
deriving DecidableEq, Repr

namespace LongBits

/-- The number that the two halves make. -/
def toNat (bits : LongBits) : Nat := bits.lo.toNat + bits.hi.toNat * 2 ^ 32

/-- Reference: `LongBits.fromNumber` (`protobuf.js:7510`), of an integer. -/
def fromNumber (value : Int) : LongBits :=
  if value = 0 then ⟨0, 0⟩
  else
    let lo := UInt32.ofNat value.natAbs
    let hi := UInt32.ofNat ((value.natAbs - lo.toNat) / 4294967296)
    if value < 0 then
      -- `++lo` and `++hi` are set to zero where they would not fit into 32 bits
      if (~~~lo).toNat + 1 > 4294967295 then ⟨0, ~~~hi + 1⟩ else ⟨~~~lo + 1, ~~~hi⟩
    else ⟨lo, hi⟩

/-- Reference: `LongBits.prototype.length` (`protobuf.js:7642`). -/
def length (bits : LongBits) : Nat :=
  let part0 := bits.lo
  let part1 := bits.lo >>> 28 ||| bits.hi <<< 4
  let part2 := bits.hi >>> 24
  if part2 = 0 then
    if part1 = 0 then
      if part0 < 16384 then if part0 < 128 then 1 else 2
      else if part0 < 2097152 then 3 else 4
    else if part1 < 16384 then if part1 < 128 then 5 else 6
    else if part1 < 2097152 then 7 else 8
  else if part2 < 128 then 9 else 10

end LongBits

/-! ## What the operations write -/

/-- The bits above the lowest seven. -/
theorem toNat_shiftRight_7 (v : UInt32) : (v >>> 7).toNat = v.toNat / 128 := by
  rw [UInt32.toNat_shiftRight]
  exact Nat.shiftRight_eq_div_pow v.toNat 7

/-- Reference: `writeVarint32` (`protobuf.js:8538`). -/
def writeVarint32 (val : UInt32) : List UInt8 :=
  if val > 127 then (val &&& 127 ||| 128).toUInt8 :: writeVarint32 (val >>> 7)
  else [val.toUInt8]
termination_by val.toNat
decreasing_by
  have h : 127 < val.toNat := ‹val > 127›
  rw [toNat_shiftRight_7]
  omega

/-- Reference: `writeVarint64` (`protobuf.js:8604`). The second loop is the one of 32 bits. -/
def writeVarint64 (val : LongBits) : List UInt8 :=
  if val.hi ≠ 0 then
    (val.lo &&& 127 ||| 128).toUInt8 ::
      writeVarint64 ⟨val.lo >>> 7 ||| val.hi <<< 25, val.hi >>> 7⟩
  else writeVarint32 val.lo
termination_by val.hi.toNat
decreasing_by
  have h : val.hi.toNat ≠ 0 := fun h => ‹val.hi ≠ 0› (UInt32.toNat_inj.1 h)
  show (val.hi >>> 7).toNat < val.hi.toNat
  rw [toNat_shiftRight_7]
  omega

/-- The function and the value of an operation. -/
inductive Action
  | writeByte (val : UInt8)
  | writeVarint32 (val : UInt32)
  | writeVarint64 (val : LongBits)
  | writeBytes (val : List UInt8)
  | writeUtf8 (val : List UInt16)

/-- The bytes that the operation puts into the buffer from its position on. -/
def Action.bytes : Action → List UInt8
  | writeByte val => [val]
  | writeVarint32 val => Protobuf.writeVarint32 val
  | writeVarint64 val => Protobuf.writeVarint64 val
  | writeBytes val => val
  | writeUtf8 val => Utf8.write val

/-- Reference: `Op` (`protobuf.js:8383`). -/
structure Op where
  action : Action
  len : Nat

/-! ## The writer -/

/-- The operations stand in a list from `head` to `tail`, without the first one, which does nothing.
Reference: `Writer` and `State` (`protobuf.js:8453`). -/
structure Writer where
  ops : List Op
  len : Nat
  states : List (List Op × Nat)

namespace Writer

/-- Reference: `Writer.create` (`protobuf.js:8504`). -/
def create : Writer := ⟨[], 0, []⟩

/-- Reference: `Writer.prototype._push` (`protobuf.js:8528`). -/
def push (w : Writer) (action : Action) (len : Nat) : Writer :=
  { w with ops := w.ops ++ [⟨action, len⟩], len := w.len + len }

/-- Reference: `Writer.prototype.uint32` (`protobuf.js:8569`), of the 32 bits that `>>> 0` leaves of
the number. -/
def uint32 (w : Writer) (value : UInt32) : Writer :=
  w.push (.writeVarint32 value)
    (if value < 128 then 1
    else if value < 16384 then 2
    else if value < 2097152 then 3
    else if value < 268435456 then 4
    else 5)

/-- Reference: `Writer.prototype.int32` (`protobuf.js:8589`), of an integer. -/
def int32 (w : Writer) (value : Int) : Writer :=
  if value < 0 then w.push (.writeVarint64 (.fromNumber value)) 10
  else w.uint32 (.ofNat value.toNat)

/-- Reference: `Writer.prototype.int64` (`protobuf.js:8635`), of an integer. -/
def int64 (w : Writer) (value : Int) : Writer :=
  w.push (.writeVarint64 (.fromNumber value)) (LongBits.fromNumber value).length

/-- Reference: `Writer.prototype.bool` (`protobuf.js:8653`). -/
def bool (w : Writer) (value : Bool) : Writer := w.push (.writeByte value.toUInt8) 1

/-- Reference: `Writer.prototype.bytes` (`protobuf.js:8736`), of an array. -/
def bytes (w : Writer) (value : List UInt8) : Writer :=
  if value.length = 0 then w.push (.writeByte 0) 1
  else (w.uint32 (.ofNat value.length)).push (.writeBytes value) value.length

/-- Reference: `Writer.prototype.string` (`protobuf.js:8753`). -/
def string (w : Writer) (value : List UInt16) : Writer :=
  if Utf8.length value = 0 then w.push (.writeByte 0) 1
  else (w.uint32 (.ofNat (Utf8.length value))).push (.writeUtf8 value) (Utf8.length value)

/-- Reference: `Writer.prototype.fork` (`protobuf.js:8765`). -/
def fork (w : Writer) : Writer := ⟨[], 0, (w.ops, w.len) :: w.states⟩

/-- Reference: `Writer.prototype.reset` (`protobuf.js:8776`). -/
def reset (w : Writer) : Writer :=
  match w.states with
  | (ops, len) :: states => ⟨ops, len, states⟩
  | [] => ⟨[], 0, []⟩

/-- Reference: `Writer.prototype.ldelim` (`protobuf.js:8793`). -/
def ldelim (w : Writer) : Writer :=
  let outer := w.reset.uint32 (.ofNat w.len)
  if w.len = 0 then outer else { outer with ops := outer.ops ++ w.ops, len := outer.len + w.len }

/-- Writes bytes from a position on. There is nothing behind the end of a buffer to write to. -/
def put (buf : List UInt8) (pos : Nat) : List UInt8 → List UInt8
  | [] => buf
  | b :: bs => put (buf.set pos b) (pos + 1) bs

/-- The loop of `finish`. -/
def finish.loop (buf : List UInt8) (pos : Nat) : List Op → List UInt8
  | [] => buf
  | op :: ops => loop (put buf pos op.action.bytes) (pos + op.len) ops

/-- Reference: `Writer.prototype.finish` (`protobuf.js:8810`). -/
def finish (w : Writer) : List UInt8 := finish.loop (List.replicate w.len 0) 0 w.ops

end Writer

/-! ## Varints -/

/-- The byte of a number. -/
theorem toUInt8_eq (v : UInt32) : v.toUInt8 = UInt8.ofNat v.toNat := by
  rw [← UInt8.toNat_inj, UInt32.toNat_toUInt8, UInt8.toNat_ofNat']

/-- The lowest seven bits, in a byte that is not the last one. -/
theorem toUInt8_more (v : UInt32) :
    (v &&& 127 ||| 128).toUInt8 = UInt8.ofNat (v.toNat % 128 + 128) := by
  have hmask : v.toNat &&& 127 = v.toNat % 128 := Nat.and_two_pow_sub_one_eq_mod v.toNat 7
  have hor : v.toNat % 128 ||| 128 = v.toNat % 128 + 128 := Utf8.or_high (k := 7) (by omega) 1
  rw [toUInt8_eq, UInt32.toNat_or, UInt32.toNat_and]
  show UInt8.ofNat (v.toNat &&& 127 ||| 128) = _
  rw [hmask, hor]

/-- The loop over a number of 32 bits, with enough bytes for it. -/
theorem writeVarint32_aux (k : Nat) : ∀ v : UInt32, v.toNat < 128 ^ (k + 1) →
    writeVarint32 v = writeVarintAux (k + 1) v.toNat := by
  induction k with
  | zero =>
    intro v h
    have hnot : ¬ v > 127 := fun hgt => by
      have : 127 < v.toNat := hgt
      omega
    rw [writeVarint32, if_neg hnot, writeVarintAux, if_pos (by omega), toUInt8_eq]
  | succ k ih =>
    intro v h
    rw [writeVarint32, writeVarintAux]
    by_cases hgt : v > 127
    · have : 127 < v.toNat := hgt
      have hrest : (v >>> 7).toNat < 128 ^ (k + 1) := by
        rw [toNat_shiftRight_7, Nat.div_lt_iff_lt_mul (by decide), ← Nat.pow_succ]
        exact h
      rw [if_pos hgt, if_neg (by omega), toUInt8_more, ih _ hrest, toNat_shiftRight_7]
    · have : ¬ 127 < v.toNat := hgt
      rw [if_neg hgt, if_pos (by omega), toUInt8_eq]

/-- A number of 32 bits is written as a varint. -/
theorem writeVarint32_eq (v : UInt32) : writeVarint32 v = writeVarint v.toNat :=
  writeVarint32_aux 9 v (v.toNat_lt.trans (by decide))

namespace LongBits

/-- The halves make a number of 64 bits. -/
theorem toNat_lt (bits : LongBits) : bits.toNat < 2 ^ 64 := by
  have hlo := bits.lo.toNat_lt
  have hhi := bits.hi.toNat_lt
  rw [toNat]
  omega

/-- The bits of the high half that a shift moves into the low half. -/
theorem toNat_shift (bits : LongBits) :
    toNat ⟨bits.lo >>> 7 ||| bits.hi <<< 25, bits.hi >>> 7⟩ = bits.toNat / 128 := by
  have hlo := bits.lo.toNat_lt
  have hcarry : (bits.hi <<< 25).toNat = 2 ^ 25 * (bits.hi.toNat % 128) := by
    rw [UInt32.toNat_shiftLeft]
    show bits.hi.toNat <<< 25 % 2 ^ 32 = _
    rw [Nat.shiftLeft_eq]
    omega
  have hor : (bits.lo >>> 7 ||| bits.hi <<< 25).toNat =
      bits.lo.toNat / 128 + 2 ^ 25 * (bits.hi.toNat % 128) := by
    rw [UInt32.toNat_or, hcarry, toNat_shiftRight_7]
    exact Utf8.or_high (by omega) _
  rw [toNat, toNat, hor, toNat_shiftRight_7]
  omega

end LongBits

/-- The loop over a number of 64 bits, with enough bytes for it. -/
theorem writeVarint64_aux (k : Nat) : ∀ bits : LongBits, bits.toNat < 128 ^ (k + 1) →
    writeVarint64 bits = writeVarintAux (k + 1) bits.toNat := by
  induction k with
  | zero =>
    intro bits h
    have hbits : bits.toNat = bits.lo.toNat + bits.hi.toNat * 2 ^ 32 := rfl
    have hhi : ¬ bits.hi ≠ 0 := not_not.2 (UInt32.toNat_inj.1 (show bits.hi.toNat = 0 by omega))
    rw [writeVarint64, if_neg hhi, writeVarint32_aux 0 _ (by omega)]
    congr 1
    omega
  | succ k ih =>
    intro bits h
    have hbits : bits.toNat = bits.lo.toNat + bits.hi.toNat * 2 ^ 32 := rfl
    rw [writeVarint64]
    by_cases hhi : bits.hi ≠ 0
    · have hne : bits.hi.toNat ≠ 0 := fun h => hhi (UInt32.toNat_inj.1 h)
      have hlow : bits.lo.toNat % 128 = bits.toNat % 128 := by omega
      have hrest : LongBits.toNat ⟨bits.lo >>> 7 ||| bits.hi <<< 25, bits.hi >>> 7⟩ <
          128 ^ (k + 1) := by
        rw [LongBits.toNat_shift, Nat.div_lt_iff_lt_mul (by decide), ← Nat.pow_succ]
        exact h
      rw [if_pos hhi, writeVarintAux, if_neg (by omega), toUInt8_more, ih _ hrest,
        LongBits.toNat_shift, hlow]
    · have hzero : bits.hi.toNat = 0 := UInt32.toNat_inj.2 (not_not.1 hhi)
      have hlo : bits.lo.toNat = bits.toNat := by omega
      rw [if_neg hhi, writeVarint32_aux (k + 1) _ (hlo ▸ h), hlo]

/-- A number of 64 bits is written as a varint. -/
theorem writeVarint64_eq (bits : LongBits) : writeVarint64 bits = writeVarint bits.toNat :=
  writeVarint64_aux 9 bits (bits.toNat_lt.trans (by decide))

/-! ## Their lengths -/

/-- A varint has a byte for each seven bits of its number. -/
theorem length_writeVarintAux (j : Nat) : ∀ {k n : Nat}, j = 0 ∨ 128 ^ j ≤ n → n < 128 ^ (j + 1) →
    j < k → (writeVarintAux k n).length = j + 1 := by
  induction j with
  | zero =>
    intro k n _ h hk
    obtain ⟨k, rfl⟩ := Nat.exists_eq_succ_of_ne_zero (Nat.ne_of_gt hk)
    rw [writeVarintAux, if_pos (by omega)]
    rfl
  | succ j ih =>
    intro k n hlow hhigh hk
    obtain ⟨k, rfl⟩ := Nat.exists_eq_succ_of_ne_zero (Nat.ne_of_gt (Nat.zero_lt_of_lt hk))
    have hn : 128 ^ (j + 1) ≤ n := hlow.resolve_left (Nat.succ_ne_zero j)
    have hpos : 1 ≤ 128 ^ j := Nat.one_le_two_pow.trans (Nat.pow_le_pow_left (by decide) j)
    rw [Nat.pow_succ] at hn hhigh
    have hrest : (writeVarintAux k (n / 128)).length = j + 1 :=
      ih (.inr (by omega)) (by omega) (by omega)
    rw [writeVarintAux, if_neg (by omega), List.length_cons, hrest]

/-- A number with `j + 1` digits to the base 128. -/
theorem length_writeVarint {n : Nat} (j : Nat) (hlow : j = 0 ∨ 128 ^ j ≤ n)
    (hhigh : n < 128 ^ (j + 1)) (hj : j < 10) : j + 1 = (writeVarint n).length :=
  (length_writeVarintAux j hlow hhigh hj).symm

/-- The length that is announced for a number of 32 bits is that of its varint. -/
theorem UInt32.length_eq (value : UInt32) :
    (if value < 128 then 1
    else if value < 16384 then 2
    else if value < 2097152 then 3
    else if value < 268435456 then 4
    else 5) = (writeVarint value.toNat).length := by
  have hlt := value.toNat_lt
  simp only [UInt32.lt_iff_toNat_lt]
  show (if value.toNat < 128 then 1 else if value.toNat < 16384 then 2
    else if value.toNat < 2097152 then 3 else if value.toNat < 268435456 then 4 else 5) = _
  split
  · exact length_writeVarint 0 (.inl rfl) (by omega) (by decide)
  split
  · exact length_writeVarint 1 (.inr (by omega)) (by omega) (by decide)
  split
  · exact length_writeVarint 2 (.inr (by omega)) (by omega) (by decide)
  split
  · exact length_writeVarint 3 (.inr (by omega)) (by omega) (by decide)
  · exact length_writeVarint 4 (.inr (by omega)) (by omega) (by decide)

namespace LongBits

/-- So is the one for a number of 64 bits. -/
theorem length_eq (bits : LongBits) : bits.length = (writeVarint bits.toNat).length := by
  have hlo := bits.lo.toNat_lt
  have hhi := bits.hi.toNat_lt
  have hbits : bits.toNat = bits.lo.toNat + bits.hi.toNat * 2 ^ 32 := rfl
  have hcarry : (bits.hi <<< 4).toNat = 2 ^ 4 * (bits.hi.toNat % 2 ^ 28) := by
    rw [UInt32.toNat_shiftLeft]
    show bits.hi.toNat <<< 4 % 2 ^ 32 = _
    rw [Nat.shiftLeft_eq]
    omega
  have hlow : (bits.lo >>> 28).toNat = bits.lo.toNat / 2 ^ 28 := by
    rw [UInt32.toNat_shiftRight]
    exact Nat.shiftRight_eq_div_pow bits.lo.toNat 28
  have hpart1 : (bits.lo >>> 28 ||| bits.hi <<< 4).toNat = bits.toNat / 2 ^ 28 % 2 ^ 32 := by
    have hor : bits.lo.toNat / 2 ^ 28 ||| 2 ^ 4 * (bits.hi.toNat % 2 ^ 28) =
        bits.lo.toNat / 2 ^ 28 + 2 ^ 4 * (bits.hi.toNat % 2 ^ 28) := Utf8.or_high (by omega) _
    rw [UInt32.toNat_or, hcarry, hlow, hor]
    omega
  have hpart2 : (bits.hi >>> 24).toNat = bits.toNat / 2 ^ 56 := by
    have : (bits.hi >>> 24).toNat = bits.hi.toNat / 2 ^ 24 := by
      rw [UInt32.toNat_shiftRight]
      exact Nat.shiftRight_eq_div_pow bits.hi.toNat 24
    omega
  simp only [length, ← UInt32.toNat_inj, UInt32.lt_iff_toNat_lt, hpart1, hpart2]
  show (if bits.toNat / 2 ^ 56 = 0 then
      if bits.toNat / 2 ^ 28 % 2 ^ 32 = 0 then
        if bits.lo.toNat < 16384 then if bits.lo.toNat < 128 then 1 else 2
        else if bits.lo.toNat < 2097152 then 3 else 4
      else if bits.toNat / 2 ^ 28 % 2 ^ 32 < 16384 then
        if bits.toNat / 2 ^ 28 % 2 ^ 32 < 128 then 5 else 6
      else if bits.toNat / 2 ^ 28 % 2 ^ 32 < 2097152 then 7 else 8
    else if bits.toNat / 2 ^ 56 < 128 then 9 else 10) = _
  split
  · split
    · split
      · split
        · exact length_writeVarint 0 (.inl rfl) (by omega) (by decide)
        · exact length_writeVarint 1 (.inr (by omega)) (by omega) (by decide)
      · split
        · exact length_writeVarint 2 (.inr (by omega)) (by omega) (by decide)
        · exact length_writeVarint 3 (.inr (by omega)) (by omega) (by decide)
    · split
      · split
        · exact length_writeVarint 4 (.inr (by omega)) (by omega) (by decide)
        · exact length_writeVarint 5 (.inr (by omega)) (by omega) (by decide)
      · split
        · exact length_writeVarint 6 (.inr (by omega)) (by omega) (by decide)
        · exact length_writeVarint 7 (.inr (by omega)) (by omega) (by decide)
  · split
    · exact length_writeVarint 8 (.inr (by omega)) (by omega) (by decide)
    · exact length_writeVarint 9 (.inr (by omega)) (by omega) (by decide)

/-- The halves of a number. -/
theorem toNat_mk (lo hi : UInt32) : toNat ⟨lo, hi⟩ = lo.toNat + hi.toNat * 2 ^ 32 := rfl

/-- A number is written as its two's complement. -/
theorem toNat_fromNumber (value : Int) :
    (fromNumber value).toNat = (BitVec.ofInt 64 value).toNat := by
  rw [BitVec.toNat_ofInt]
  generalize hlo : UInt32.ofNat value.natAbs = lo
  generalize hhi : UInt32.ofNat ((value.natAbs - lo.toNat) / 4294967296) = hi
  have hlo' : lo.toNat = value.natAbs % 2 ^ 32 := by rw [← hlo, UInt32.toNat_ofNat']
  have hhi' : hi.toNat = value.natAbs / 2 ^ 32 % 2 ^ 32 := by
    rw [← hhi, UInt32.toNat_ofNat']
    omega
  have hnlo : (~~~lo).toNat = 2 ^ 32 - 1 - lo.toNat := UInt32.toNat_not lo
  have hnhi : (~~~hi).toNat = 2 ^ 32 - 1 - hi.toNat := UInt32.toNat_not hi
  have hsucc (x : UInt32) : (x + 1).toNat = (x.toNat + 1) % 2 ^ 32 := UInt32.toNat_add x 1
  simp only [fromNumber, hlo, hhi]
  split
  · next h =>
    rw [h]
    rfl
  · split
    · split
      · rw [toNat_mk, hsucc, UInt32.toNat_zero]
        omega
      · rw [toNat_mk, hsucc]
        omega
    · rw [toNat_mk]
      omega

end LongBits

/-! ## Soundness -/

/-- The operations have been counted: each writes as many bytes as it says, all of them the sum. -/
structure Counted (ops : List Op) (len : Nat) : Prop where
  each : ∀ op ∈ ops, op.action.bytes.length = op.len
  all : (ops.map (·.len)).sum = len

/-- Nothing has length zero. -/
theorem Counted.nil : Counted [] 0 := ⟨fun _ h => (nomatch h), rfl⟩

/-- Lengths are added. -/
theorem Counted.append {ops ops' : List Op} {len len' : Nat} (h : Counted ops len)
    (h' : Counted ops' len') : Counted (ops ++ ops') (len + len') where
  each op hop := (List.mem_append.1 hop).elim (h.each op) (h'.each op)
  all := by rw [List.map_append, List.sum_append, h.all, h'.all]

/-- The lengths add up to that of the bytes. -/
theorem Counted.length_flatMap {ops : List Op} {len : Nat} (h : Counted ops len) :
    (ops.flatMap (·.action.bytes)).length = len := by
  have hmap : ops.map (fun op => op.action.bytes.length) = ops.map (·.len) :=
    List.map_congr_left h.each
  rw [List.length_flatMap, hmap, h.all]

namespace Writer

/-- The bytes that are going to be written. -/
def content (w : Writer) : List UInt8 := w.ops.flatMap (·.action.bytes)

/-- The numbers of bytes are right, in the writer and in what it has put aside. -/
structure Sound (w : Writer) : Prop where
  ops : Counted w.ops w.len
  states : ∀ s ∈ w.states, Counted s.1 s.2

/-- `w'` goes on to write the bytes where `w` ends. -/
structure Adds (w : Writer) (bs : List UInt8) (w' : Writer) : Prop where
  sound : w'.Sound
  content : w'.content = w.content ++ bs
  states : w'.states = w.states

/-- A new writer is sound. -/
theorem sound_create : create.Sound := ⟨.nil, fun _ h => (nomatch h)⟩

section
variable {w w' w'' : Writer} {bs cs : List UInt8}

/-- To write nothing. -/
theorem Sound.adds_nil (hw : w.Sound) : w.Adds [] w := ⟨hw, (List.append_nil _).symm, rfl⟩

/-- To write something after something else. -/
theorem Adds.trans (h : w.Adds bs w') (h' : w'.Adds cs w'') : w.Adds (bs ++ cs) w'' where
  sound := h'.sound
  content := by rw [h'.content, h.content, List.append_assoc]
  states := h'.states.trans h.states

/-- To push an operation with its length. -/
theorem Sound.push (hw : w.Sound) {action : Action} {len : Nat}
    (h : action.bytes.length = len) : w.Adds action.bytes (w.push action len) where
  sound := by
    refine ⟨hw.ops.append ⟨?_, Nat.add_zero len⟩, hw.states⟩
    intro op hop
    rw [List.mem_singleton.1 hop]
    exact h
  content := by
    rw [Writer.content, Writer.push, List.flatMap_append, List.flatMap_cons, List.flatMap_nil,
      List.append_nil]
    rfl
  states := rfl

/-- To write a number of 32 bits. -/
theorem Sound.uint32 (hw : w.Sound) (value : UInt32) :
    w.Adds (writeVarint value.toNat) (w.uint32 value) := by
  have hbytes : (Action.writeVarint32 value).bytes = writeVarint value.toNat :=
    writeVarint32_eq value
  have hpush := hw.push (congrArg List.length hbytes)
  rw [hbytes] at hpush
  rw [Writer.uint32, UInt32.length_eq]
  exact hpush

/-- To write a number with a sign. -/
theorem Sound.int64 (hw : w.Sound) (value : Int) :
    w.Adds (writeVarint (BitVec.ofInt 64 value).toNat) (w.int64 value) := by
  have hbytes : (Action.writeVarint64 (.fromNumber value)).bytes =
      writeVarint (BitVec.ofInt 64 value).toNat :=
    (writeVarint64_eq _).trans (congrArg _ (LongBits.toNat_fromNumber value))
  have hpush := hw.push (congrArg List.length hbytes)
  rw [hbytes] at hpush
  rw [Writer.int64, LongBits.length_eq, LongBits.toNat_fromNumber]
  exact hpush

/-- A negative number takes ten bytes. -/
theorem Sound.int32 (hw : w.Sound) (value : BitVec 32) :
    w.Adds (writeVarint (value.signExtend 64).toNat) (w.int32 value.toInt) := by
  have hvalue := value.isLt
  have hsign : value.signExtend 64 = BitVec.ofInt 64 value.toInt := rfl
  have hnat : (value.signExtend 64).toNat = (value.toInt % 2 ^ 64).toNat := by
    rw [hsign, BitVec.toNat_ofInt]
    rfl
  have hint := BitVec.toInt_eq_toNat_cond value
  rw [Writer.int32]
  by_cases hneg : value.toInt < 0
  · rw [if_neg (by omega)] at hint
    have hten : (writeVarint (value.signExtend 64).toNat).length = 10 :=
      (length_writeVarint 9 (.inr (by omega)) (by omega) (by decide)).symm
    have hbytes : (Action.writeVarint64 (.fromNumber value.toInt)).bytes =
        writeVarint (value.signExtend 64).toNat := by
      rw [hsign, ← LongBits.toNat_fromNumber]
      exact writeVarint64_eq _
    have hpush := hw.push ((congrArg List.length hbytes).trans hten)
    rw [hbytes] at hpush
    rw [if_pos hneg]
    exact hpush
  · have hofNat : (UInt32.ofNat value.toInt.toNat).toNat = (value.signExtend 64).toNat := by
      rw [UInt32.toNat_ofNat', hnat]
      omega
    have hadds := hw.uint32 (.ofNat value.toInt.toNat)
    rw [hofNat] at hadds
    rw [if_neg hneg]
    exact hadds

/-- To write a boolean. -/
theorem Sound.bool (hw : w.Sound) (value : Bool) :
    w.Adds (writeVarint value.toNat) (w.bool value) := by
  have hbytes : (Action.writeByte value.toUInt8).bytes = writeVarint value.toNat := by
    cases value <;> rfl
  have hpush : w.Adds (Action.writeByte value.toUInt8).bytes (w.bool value) := hw.push rfl
  rw [hbytes] at hpush
  exact hpush

/-- Bytes behind their number. -/
theorem Sound.counted (hw : w.Sound) {a : Action} (h : a.bytes.length < 2 ^ 32) :
    w.Adds (writeVarint a.bytes.length ++ a.bytes)
      ((w.uint32 (.ofNat a.bytes.length)).push a a.bytes.length) := by
  have hlen : (UInt32.ofNat a.bytes.length).toNat = a.bytes.length := by
    rw [UInt32.toNat_ofNat']
    omega
  have hadds := hw.uint32 (.ofNat a.bytes.length)
  rw [hlen] at hadds
  exact hadds.trans (hadds.sound.push rfl)

/-- No bytes behind their number. -/
theorem Sound.empty (hw : w.Sound) : w.Adds (writeVarint 0 ++ []) (w.push (.writeByte 0) 1) :=
  show w.Adds (Action.writeByte 0).bytes (w.push (.writeByte 0) 1) from hw.push rfl

/-- To write bytes behind their length. -/
theorem Sound.bytes (hw : w.Sound) {value : List UInt8} (h : value.length < 2 ^ 32) :
    w.Adds (writeVarint value.length ++ value) (w.bytes value) := by
  rw [Writer.bytes]
  split
  · next hnil =>
    obtain rfl := List.length_eq_zero_iff.1 hnil
    exact hw.empty
  · exact Sound.counted (a := .writeBytes value) hw h

/-- To write a string behind the length of its bytes. -/
theorem Sound.string (hw : w.Sound) {value : List UInt16} (h : (Utf8.write value).length < 2 ^ 32) :
    w.Adds (writeVarint (Utf8.write value).length ++ Utf8.write value) (w.string value) := by
  rw [Writer.string, ← Utf8.length_write]
  split
  · next hnil =>
    rw [List.length_eq_zero_iff.1 hnil]
    exact hw.empty
  · exact Sound.counted (a := .writeUtf8 value) hw h

/-- A fork begins with nothing. -/
theorem Sound.fork (hw : w.Sound) : w.fork.Sound where
  ops := .nil
  states s hs := (List.mem_cons.1 hs).elim (fun heq => heq ▸ hw.ops) (hw.states s)

/-- What has been written since the last `fork` is put behind its length. -/
theorem Sound.ldelim (hw : w.Sound) (h : w.fork.Adds bs w') (hlen : bs.length < 2 ^ 32) :
    w.Adds (writeVarint bs.length ++ bs) w'.ldelim := by
  have hcontent : w'.content = bs := h.content
  have hw' : w'.len = bs.length := by
    rw [← h.sound.ops.length_flatMap, ← hcontent]
    rfl
  have hreset : w'.reset = w := by
    rw [reset, h.states]
    rfl
  have hofNat : (UInt32.ofNat w'.len).toNat = bs.length := by
    rw [UInt32.toNat_ofNat']
    omega
  have houter := hw.uint32 (.ofNat w'.len)
  rw [hofNat] at houter
  rw [Writer.ldelim, hreset]
  refine houter.trans ?_
  split
  · next hzero =>
    obtain rfl : bs = [] := List.length_eq_zero_iff.1 (hw'.symm.trans hzero)
    exact houter.sound.adds_nil
  · refine ⟨⟨houter.sound.ops.append h.sound.ops, houter.sound.states⟩, ?_, rfl⟩
    rw [content, List.flatMap_append, ← hcontent]
    rfl

end

/-! ## Finishing -/

/-- What is written replaces as many bytes. -/
theorem put_append (done new rest : List UInt8) : ∀ {old : List UInt8}, old.length = new.length →
    put (done ++ old ++ rest) done.length new = done ++ new ++ rest := by
  induction new generalizing done with
  | nil =>
    intro old h
    rw [List.length_eq_zero_iff.1 h]
    rfl
  | cons b bs ih =>
    intro old h
    cases old with
    | nil => cases h
    | cons a old =>
      have hset : (done ++ (a :: old) ++ rest).set done.length b = done ++ [b] ++ old ++ rest := by
        simp
      have hrest := ih (done ++ [b]) (Nat.succ.inj h)
      rw [List.length_append, List.length_singleton] at hrest
      rw [put, hset, hrest]
      simp

/-- The operations fill the buffer from the front. -/
theorem loop_eq {ops : List Op} (h : ∀ op ∈ ops, op.action.bytes.length = op.len) :
    ∀ (done : List UInt8) {rest : List UInt8}, rest.length = (ops.map (·.len)).sum →
      finish.loop (done ++ rest) done.length ops = done ++ ops.flatMap (·.action.bytes) := by
  induction ops with
  | nil =>
    intro done rest hrest
    rw [List.length_eq_zero_iff.1 hrest]
    rfl
  | cons op ops ih =>
    intro done rest hrest
    have hop := h op (.head _)
    rw [List.map_cons, List.sum_cons] at hrest
    obtain ⟨old, rest, rfl, hold⟩ : ∃ old rest', rest = old ++ rest' ∧ old.length = op.len :=
      ⟨rest.take op.len, rest.drop op.len, (List.take_append_drop _ _).symm,
        List.length_take_of_le (by omega)⟩
    rw [List.length_append] at hrest
    have hput := put_append done op.action.bytes rest (hold.trans hop.symm)
    have hsum : rest.length = (ops.map (·.len)).sum := by omega
    have hloop := ih (fun op hmem => h op (.tail _ hmem)) (done ++ op.action.bytes) hsum
    rw [List.length_append, hop] at hloop
    rw [finish.loop, ← List.append_assoc, hput, hloop, List.flatMap_cons, List.append_assoc]

/-- The buffer has the bytes of the operations. -/
theorem Sound.finish_eq {w : Writer} (hw : w.Sound) : w.finish = w.content := by
  have hlen : (List.replicate w.len (0 : UInt8)).length = (w.ops.map (·.len)).sum := by
    rw [List.length_replicate, hw.ops.all]
  exact loop_eq hw.ops.each [] hlen

end Writer

end WebRtcNetty.Html.Protobuf
