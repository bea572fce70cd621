import WebRtcNetty.Html.BinaryPack
import WebRtcNetty.Lib.BigEndian
import Mathlib.Tactic.IntervalCases

/-!
# Numbers on the data channels

Lengths and numbers are packed with their bytes in big-endian order. The numbers of 64 bits are
put together as doubles again, and those of a negative number are rounded if it has more than 53 of
them (`unpackAt_number`).
-/

namespace WebRtcNetty.Html.BinaryPack

open Js

/-! ## Bytes -/

/-- A byte of a 32-bit number. -/
theorem toNat_mask (n : BitVec 32) {m : BitVec 32} {k : Nat} (h : m.toNat = 255 * 2 ^ k) :
    ((n &&& m) >>> k).toNat = n.toNat / 2 ^ k % 256 := by
  have hmask : 255 * 2 ^ k / 2 ^ k = 255 := Nat.mul_div_cancel _ (Nat.two_pow_pos k)
  rw [BitVec.toNat_ushiftRight, BitVec.toNat_and, h, Nat.shiftRight_and_distrib,
    Nat.shiftRight_eq_div_pow, Nat.shiftRight_eq_div_pow, hmask]
  exact Nat.and_two_pow_sub_one_eq_mod _ 8

/-- The last byte of a 32-bit number. -/
theorem toNat_and_255 (n : BitVec 32) : (n &&& 255#32).toNat = n.toNat % 256 := by
  rw [BitVec.toNat_and]
  exact Nat.and_two_pow_sub_one_eq_mod _ 8

/-- The four bytes of a 32-bit number. -/
theorem bytesOf_32 (n : BitVec 32) :
    bytesOf [(n &&& 0xff000000) >>> 24, (n &&& 0x00ff0000) >>> 16, (n &&& 0x0000ff00) >>> 8,
      n &&& 0x000000ff] = bigEndian 4 n.toNat := by
  have h24 : ((n &&& 0xff000000) >>> 24).toNat = n.toNat / (256 * 256 * 256) % 256 :=
    toNat_mask n rfl
  have h16 : ((n &&& 0x00ff0000) >>> 16).toNat = n.toNat / (256 * 256) % 256 := toNat_mask n rfl
  have h8 : ((n &&& 0x0000ff00) >>> 8).toNat = n.toNat / 256 % 256 := toNat_mask n rfl
  have h0 : (n &&& 0xff).toNat = n.toNat % 256 := toNat_and_255 n
  simp only [bytesOf, List.map_cons, List.map_nil, bigEndian, List.nil_append, List.cons_append,
    Nat.div_div_eq_div_mul, h24, h16, h8, h0]

/-- A 32-bit number without a sign is packed in four bytes. -/
theorem packUint32_eq (num : Int) : packUint32 num = bigEndian 4 (BitVec.ofInt 32 num).toNat := by
  have hones : BitVec.ofInt 32 num &&& 0xffffffff = BitVec.ofInt 32 num := BitVec.and_allOnes
  rw [packUint32, hones]
  exact bytesOf_32 _

/-- One with a sign is packed in the same bytes. -/
theorem packInt32_eq (num : Int) : packInt32 num = bigEndian 4 (BitVec.ofInt 32 num).toNat := by
  have h (n : BitVec 32) : n >>> 24 &&& 255#32 = (n &&& 0xff000000#32) >>> 24 := by
    refine BitVec.eq_of_toNat_eq ?_
    rw [toNat_mask n rfl, toNat_and_255, BitVec.toNat_ushiftRight, Nat.shiftRight_eq_div_pow]
  rw [← bytesOf_32]
  exact congrArg (bytesOf [·, _, _, _]) (h (BitVec.ofInt 32 num))

/-- A 64-bit number is packed by its halves, the higher one first. -/
theorem packHalves_eq (high low : Int) : packHalves high low =
    bigEndian 4 (BitVec.ofInt 32 high).toNat ++ bigEndian 4 (BitVec.ofInt 32 low).toNat := by
  rw [← bytesOf_32, ← bytesOf_32]
  rfl

/-- The conversion to 32 bits takes the number modulo `2 ^ 32`. -/
theorem toNat_ofInt (num : Int) : (BitVec.ofInt 32 num).toNat = (num % 2 ^ 32).toNat := by
  rw [BitVec.toNat_ofInt]
  rfl

/-- A 16-bit number with a sign is packed in two bytes. -/
theorem packInt16_eq (num : Int) : packInt16 num = bigEndian 2 (num % 2 ^ 16).toNat := by
  have hmsb (n : BitVec 32) : (n &&& 0xff00#32).msb = false := by
    rw [BitVec.msb_and]
    exact Bool.and_false _
  have hhigh : ((BitVec.ofInt 32 num &&& 0xff00#32).sshiftRight 8).toNat =
      (num % 2 ^ 16).toNat / 256 % 256 := by
    rw [BitVec.sshiftRight_eq_of_msb_false (hmsb _), toNat_mask _ rfl, toNat_ofInt]
    omega
  have hlow : (BitVec.ofInt 32 num &&& 0xff#32).toNat = (num % 2 ^ 16).toNat % 256 := by
    rw [toNat_and_255, toNat_ofInt]
    omega
  exact congrArg₂ (fun a b => [UInt8.ofNat a, UInt8.ofNat b]) hhigh hlow

/-- A 16-bit number without a sign is packed in two bytes. -/
theorem packUint16_eq {n : Nat} (h : n ≤ 0xffff) : packUint16 n = bigEndian 2 n := by
  have hn : (BitVec.ofInt 32 n).toNat = n := by
    rw [toNat_ofInt]
    omega
  have hhigh : ((BitVec.ofInt 32 n).sshiftRight 8).toNat = n / 256 % 256 := by
    have hmsb : (BitVec.ofInt 32 n).msb = false := by
      rw [BitVec.msb_eq_decide, hn]
      exact decide_eq_false (by omega)
    rw [BitVec.sshiftRight_eq_of_msb_false hmsb, BitVec.toNat_ushiftRight, hn,
      Nat.shiftRight_eq_div_pow]
    omega
  have hlow : (BitVec.ofInt 32 n &&& 0xff#32).toNat = n % 256 := by
    rw [toNat_and_255, hn]
  exact congrArg₂ (fun a b => [UInt8.ofNat a, UInt8.ofNat b]) hhigh hlow

/-- A number up to 255 is packed in one byte. -/
theorem packUint8_eq {n : Nat} (h : n ≤ 0xff) : packUint8 n = [.ofNat n] := by
  have hn : (BitVec.ofInt 32 n).toNat = n := by
    rw [toNat_ofInt]
    omega
  exact congrArg (fun a => [UInt8.ofNat a]) hn

/-- A number with a sign is packed in one byte, modulo 256. -/
theorem packInt8_eq (num : Int) : packInt8 num = [.ofNat (num % 256).toNat] := by
  have hlow : (BitVec.ofInt 32 num &&& 0xff#32).toNat = (num % 256).toNat := by
    rw [toNat_and_255, toNat_ofInt]
    omega
  exact congrArg (fun a => [UInt8.ofNat a]) hlow

/-- The 64 bits of a number. -/
theorem packInt64_eq (num : Int) : packInt64 num = bigEndian 8 (num % 2 ^ 64).toNat := by
  have hhigh : (BitVec.ofInt 32 (num.fdiv (2 ^ 32))).toNat = (num % 2 ^ 64).toNat / 2 ^ 32 := by
    rw [toNat_ofInt, Int.fdiv_eq_ediv_of_nonneg _ (by decide)]
    omega
  have hlow : (BitVec.ofInt 32 (num.tmod (2 ^ 32))).toNat = (num % 2 ^ 64).toNat % 256 ^ 4 := by
    rw [toNat_ofInt, Int.tmod_def, Int.sub_mul_emod_self_left]
    omega
  rw [packInt64, packHalves_eq, hhigh, hlow, bigEndian_mod]
  exact bigEndian_append 4 4 _

/-- A 64-bit number without a sign is packed in the same bytes as one with a sign. -/
theorem packUint64_eq {num : Int} (hnum : 0 ≤ num) :
    packUint64 num = bigEndian 8 (num % 2 ^ 64).toNat := by
  rw [← packInt64_eq, packUint64, packInt64, Int.tdiv_eq_ediv_of_nonneg hnum,
    Int.fdiv_eq_ediv_of_nonneg _ (by decide)]

/-! ## Reading -/

/-- The bytes are in the data at the index. -/
def At (data : List UInt8) (index : Nat) (bytes : List UInt8) : Prop :=
  ∃ before after, data = before ++ (bytes ++ after) ∧ before.length = index

section
variable {data : List UInt8} {index : Nat} {bytes bytes' : List UInt8}

/-- Bytes are in themselves, at the start. -/
theorem at_self (bytes : List UInt8) : At bytes 0 bytes :=
  ⟨[], [], (List.append_nil bytes).symm, rfl⟩

/-- The first of two runs of bytes is where both are. -/
theorem At.left (h : At data index (bytes ++ bytes')) : At data index bytes := by
  obtain ⟨before, after, rfl, hlen⟩ := h
  exact ⟨before, bytes' ++ after, by rw [List.append_assoc], hlen⟩

/-- The second is behind the first. -/
theorem At.right (h : At data index (bytes ++ bytes')) :
    At data (index + bytes.length) bytes' := by
  obtain ⟨before, after, rfl, rfl⟩ := h
  exact ⟨before ++ bytes, after, by simp, List.length_append⟩

/-- What is behind a byte. -/
theorem At.tail {b : UInt8} (h : At data index (b :: bytes)) : At data (index + 1) bytes := by
  obtain ⟨before, after, rfl, rfl⟩ := h
  exact ⟨before ++ [b], after, by simp, List.length_append⟩

/-- Bytes in the data do not reach beyond its end. -/
theorem At.length_le (h : At data index bytes) : index + bytes.length ≤ data.length := by
  obtain ⟨before, after, rfl, rfl⟩ := h
  simp only [List.length_append]
  omega

/-- The bytes are what is cut from the data. -/
theorem At.take_drop (h : At data index bytes) :
    (data.drop index).take bytes.length = bytes := by
  obtain ⟨before, after, rfl, rfl⟩ := h
  rw [List.drop_left, List.take_left]

/-- They are what is read there. -/
theorem At.read (h : At data index bytes) : read data index bytes.length = some bytes := by
  rw [BinaryPack.read, if_pos h.length_le, h.take_drop]

/-- A byte is read as its number. -/
theorem At.unpackUint8 {b : UInt8} (h : At data index (b :: bytes)) :
    unpackUint8 data index = (b.toNat, index + 1) := by
  obtain ⟨before, after, rfl, rfl⟩ := h
  simp [BinaryPack.unpackUint8]

/-- The big-endian bytes of a number are read as the number. -/
theorem At.unpackUint {k n : Nat} (h : At data index (bigEndian k n)) (hn : n < 256 ^ k) :
    unpackUint data k index = some (n, index + k) := by
  have hread := h.read
  rw [length_bigEndian] at hread
  rw [BinaryPack.unpackUint, hread, Option.map_some, foldl_bigEndian k hn]

/-- A value behind its type. -/
theorem At.unpackAt {b : UInt8} (h : At data index (b :: bytes)) (depth : Nat) :
    unpackAt data (depth + 1) index =
      unpackType data (unpackAt data depth) b.toNat (index + 1) := by
  rw [BinaryPack.unpackAt, h.unpackUint8]

/-- A length, and what comes after it. -/
theorem At.unpackAt_length {short : Nat} {tag16 tag32 : UInt8} {length : Nat}
    {continues : Nat → Nat → Option (Value × Nat)} {depth : Nat} (hshort : short + 15 < 256)
    (h8 : ∀ n ≤ 15, ∀ i, unpackType data (BinaryPack.unpackAt data depth) (short + n) i =
      continues n i)
    (h16 : ∀ i, unpackType data (BinaryPack.unpackAt data depth) tag16.toNat i =
      (BinaryPack.unpackUint data 2 i).bind fun (size, i) => continues size i)
    (h32 : ∀ i, unpackType data (BinaryPack.unpackAt data depth) tag32.toNat i =
      (BinaryPack.unpackUint data 4 i).bind fun (size, i) => continues size i)
    (hpack : packLength short tag16 tag32 length = some bytes) (h : At data index bytes) :
    BinaryPack.unpackAt data (depth + 1) index = continues length (index + bytes.length) := by
  unfold packLength at hpack
  split at hpack
  · next hlength =>
    have hbytes : packUint8 (short + length) = [.ofNat (short + length)] := by
      exact_mod_cast packUint8_eq (show short + length ≤ 0xff by omega)
    rw [hbytes] at hpack
    cases hpack
    rw [At.unpackAt h, UInt8.toNat_ofNat', Nat.mod_eq_of_lt (by omega), h8 _ hlength]
    rfl
  · split at hpack
    · next hlength =>
      rw [packUint16_eq hlength] at hpack
      cases hpack
      have htail : At data (index + 1) (bigEndian 2 length) := h.tail
      rw [At.unpackAt h, h16, htail.unpackUint (by omega), Option.bind_some, List.length_cons,
        length_bigEndian, Nat.add_assoc, Nat.add_comm 1]
    · split at hpack
      · next hlength =>
        rw [packUint32_eq] at hpack
        have hlen : (BitVec.ofInt 32 length).toNat = length := by
          rw [toNat_ofInt]
          omega
        rw [hlen] at hpack
        cases hpack
        have htail : At data (index + 1) (bigEndian 4 length) := h.tail
        rw [At.unpackAt h, h32, htail.unpackUint (by omega), Option.bind_some, List.length_cons,
          length_bigEndian, Nat.add_assoc, Nat.add_comm 1]
      · cases hpack

end

/-! ## Lengths -/

section
variable {short : Nat} {tag16 tag32 : UInt8} {length : Nat} {bytes : List UInt8}

/-- A length of 32 bits is packed. -/
theorem packLength_isSome (short : Nat) (tag16 tag32 : UInt8) (h : length ≤ 0xffffffff) :
    ∃ bytes, packLength short tag16 tag32 length = some bytes := by
  unfold packLength
  split
  · exact ⟨_, rfl⟩
  split
  · exact ⟨_, rfl⟩
  · exact ⟨_, rfl⟩

/-- A length that is packed has 32 bits, and takes a byte at least. -/
theorem packLength_some (h : packLength short tag16 tag32 length = some bytes) :
    0 < bytes.length ∧ length ≤ 0xffffffff := by
  unfold packLength at h
  split at h
  · cases h
    exact ⟨Nat.one_pos, by omega⟩
  split at h
  · cases h
    exact ⟨Nat.succ_pos _, by omega⟩
  split at h
  · cases h
    exact ⟨Nat.succ_pos _, by assumption⟩
  · cases h

end

section
variable {data : List UInt8} {index depth length : Nat} {bytes : List UInt8}

/-- Bytes are read behind their length. -/
theorem unpackAt_raw (hpack : packLength 0xa0 0xda 0xdb length = some bytes)
    (h : At data index bytes) :
    unpackAt data (depth + 1) index = unpackRaw data length (index + bytes.length) := by
  refine h.unpackAt_length (by decide) (fun n hn i => ?_) (fun i => rfl) (fun i => rfl) hpack
  interval_cases n <;> rfl

/-- So is a string. -/
theorem unpackAt_string (hpack : packLength 0xb0 0xd8 0xd9 length = some bytes)
    (h : At data index bytes) :
    unpackAt data (depth + 1) index = unpackString data length (index + bytes.length) := by
  refine h.unpackAt_length (by decide) (fun n hn i => ?_) (fun i => rfl) (fun i => rfl) hpack
  interval_cases n <;> rfl

/-- So are the elements of an array. -/
theorem unpackAt_array (hpack : packLength 0x90 0xdc 0xdd length = some bytes)
    (h : At data index bytes) :
    unpackAt data (depth + 1) index =
      unpackArray (unpackAt data depth) length (index + bytes.length) := by
  refine h.unpackAt_length (by decide) (fun n hn i => ?_) (fun i => rfl) (fun i => rfl) hpack
  interval_cases n <;> rfl

/-- So are the properties of an object. -/
theorem unpackAt_map (hpack : packLength 0x80 0xde 0xdf length = some bytes)
    (h : At data index bytes) :
    unpackAt data (depth + 1) index =
      unpackMap (unpackAt data depth) length (index + bytes.length) := by
  refine h.unpackAt_length (by decide) (fun n hn i => ?_) (fun i => rfl) (fun i => rfl) hpack
  interval_cases n <;> rfl

end

/-! ## Numbers -/

section
variable {data : List UInt8} {index depth : Nat} {n : Int}

/-- The number of 64 bits, if it has 53 significant ones. -/
theorem At.unpackUint64 {m e : Nat} (h : At data index (bigEndian 8 (m * 2 ^ e)))
    (hm : m < 2 ^ 53) (hn : m * 2 ^ e < 256 ^ 8) :
    BinaryPack.unpackUint64 data index = some (((m * 2 ^ e : Nat) : Int), index + 8) := by
  have hfold : (bigEndian 8 (m * 2 ^ e)).foldl
      (fun n b => Number.round (n * 256 + b.toNat)) ((0 : Nat) : Int) =
        ((m * 2 ^ e : Nat) : Int) := by
    refine foldl_bigEndian_of (g := Nat.cast) (P := fun n => ∃ m e, m < 2 ^ 53 ∧ n = m * 2 ^ e)
      ?_ ?_ 8 hn ⟨m, e, hm, rfl⟩
    · rintro n ⟨m, e, hm, rfl⟩
      rcases Nat.le_total 8 e with he | he
      · refine ⟨m, e - 8, hm, Nat.div_eq_of_eq_mul_left (by decide) ?_⟩
        rw [Nat.mul_assoc, show (256 : Nat) = 2 ^ 8 from rfl, ← Nat.pow_add, Nat.sub_add_cancel he]
      · refine ⟨m * 2 ^ e / 256, 0, ?_, (Nat.mul_one _).symm⟩
        have hle : m * 2 ^ e ≤ m * 256 :=
          Nat.mul_le_mul_left m (Nat.pow_le_pow_right (by decide) he)
        omega
    · rintro n ⟨m, e, hm, rfl⟩
      rw [toNat_mod_256, ← Number.round_natCast hm]
      congr 1
      omega
  have hread := h.read
  rw [length_bigEndian] at hread
  rw [BinaryPack.unpackUint64, hread, Option.map_some]
  exact congrArg (fun n => some (n, index + 8)) hfold

/-- The number of 64 bits is a multiple of 2048, if the highest ones are set. -/
theorem At.unpackUint64_dvd {u : Nat} (h : At data index (bigEndian 8 u)) (hu : 2 ^ 63 ≤ u)
    (hlt : u < 2 ^ 64) :
    ∃ v : Int, BinaryPack.unpackUint64 data index = some (v, index + 8) ∧ (2 ^ 11 : Int) ∣ v := by
  have hread := h.read
  rw [length_bigEndian] at hread
  rw [BinaryPack.unpackUint64, hread, Option.map_some]
  refine ⟨_, rfl, ?_⟩
  -- The first six bytes are exact, and the next sum has not become too small.
  have hsix : (bigEndian 6 (u / 256 / 256)).foldl
      (fun n b => Number.round (n * 256 + b.toNat)) ((0 : Nat) : Int) = (u / 256 / 256 : Nat) := by
    refine foldl_bigEndian_of (g := Nat.cast) (P := (· < 2 ^ 53)) (fun n hn => ?_)
      (fun n hn => ?_) 6 (by omega) (by omega)
    · omega
    · rw [toNat_mod_256, ← Nat.mul_one n, ← Nat.pow_zero 2, ← Number.round_natCast hn]
      congr 1
      omega
  have hseven : Number.round ((u / 256 / 256 : Nat) * 256 + (UInt8.ofNat (u / 256 % 256)).toNat) =
      Number.round (u / 256 : Nat) := by
    rw [toNat_mod_256]
    congr 1
    omega
  have hle : (2 ^ 55 : Int) ≤ Number.round (u / 256 : Nat) := Number.le_round (by omega) (by omega)
  show _ ∣ (bigEndian 6 (u / 256 / 256) ++ [_] ++ [_]).foldl _ _
  rw [List.foldl_append, List.foldl_append, ← Nat.cast_zero, hsix]
  refine Number.dvd_round (k := 11) ?_
  show _ ≤ (Number.round _ * 256 + _).natAbs
  rw [hseven]
  omega

/-- The bits of a number below the sign are those of the number. -/
theorem signed_eq {b : Nat} (hlo : -2 ^ (b - 1) ≤ n) (hhi : n < 2 ^ (b - 1))
    (hround : Number.round n = n) (hb : 0 < b) : signed b (n % 2 ^ b) = n := by
  obtain ⟨k, rfl⟩ := Nat.exists_eq_add_of_lt hb
  rw [Nat.zero_add] at *
  rw [Nat.add_sub_cancel] at hlo hhi
  have hpow : (2 : Int) ^ (k + 1) = 2 * 2 ^ k := pow_succ' 2 k
  unfold signed
  rw [Nat.add_sub_cancel]
  rcases Int.lt_or_le n 0 with hneg | hpos
  · have hmod : n % 2 ^ (k + 1) = n + 2 ^ (k + 1) := by
      rw [← Int.add_emod_right]
      exact Int.emod_eq_of_lt (by omega) (by omega)
    rw [hmod, if_neg (by omega), Int.add_sub_cancel, hround]
  · rw [Int.emod_eq_of_lt hpos (by omega), if_pos hhi]

/-- The numbers in one byte. -/
theorem unpackType_fixnum (unpack : Nat → Option (Value × Nat)) (hlo : -0x20 ≤ n) (hhi : n ≤ 0x7f) :
    unpackType data unpack (n % 256).toNat index = some (.number n, index) := by
  rcases Int.lt_or_le n 0 with hneg | hpos
  · obtain ⟨k, hk, rfl⟩ : ∃ k : Nat, k < 32 ∧ n = (k : Int) - 0x20 := ⟨(n + 0x20).toNat, by omega⟩
    have htype : (((k : Int) - 0x20) % 256).toNat = 0xe0 + k := by omega
    rw [htype]
    interval_cases k <;> rfl
  · obtain ⟨k, rfl⟩ := Int.eq_ofNat_of_zero_le hpos
    have htype : ((k : Int) % 256).toNat = k := by omega
    rw [htype]
    exact if_pos (by omega)

/-- A number of one byte behind its type. -/
theorem At.unpackAt_uint8 {type : UInt8} {m : Nat} {v : Nat → Value}
    (h : At data index [type, .ofNat m]) (hm : m < 256)
    (htype : ∀ i, unpackType data (BinaryPack.unpackAt data depth) type.toNat i =
      some (v (BinaryPack.unpackUint8 data i).1, (BinaryPack.unpackUint8 data i).2)) :
    BinaryPack.unpackAt data (depth + 1) index = some (v m, index + 2) := by
  have htail : At data (index + 1) [.ofNat m] := h.tail
  rw [At.unpackAt h, htype, htail.unpackUint8, UInt8.toNat_ofNat', Nat.mod_eq_of_lt hm]

/-- A number of some bytes behind its type. -/
theorem At.unpackAt_uint {type : UInt8} {k m : Nat} {v : Nat → Value}
    (h : At data index (type :: bigEndian k m)) (hm : m < 256 ^ k)
    (htype : ∀ i, unpackType data (BinaryPack.unpackAt data depth) type.toNat i =
      (BinaryPack.unpackUint data k i).map fun (n, i) => (v n, i)) :
    BinaryPack.unpackAt data (depth + 1) index =
      some (v m, index + (type :: bigEndian k m).length) := by
  have htail : At data (index + 1) (bigEndian k m) := h.tail
  rw [At.unpackAt h, htype, htail.unpackUint hm, Option.map_some, List.length_cons,
    length_bigEndian, Nat.add_assoc, Nat.add_comm 1]

/-- A number with a sign. -/
theorem At.unpackAt_signed {type : UInt8} {k b : Nat}
    (h : At data index (type :: bigEndian k (n % 2 ^ b).toNat)) (hb : 256 ^ k = 2 ^ b)
    (hpos : 0 < b) (hlo : -2 ^ (b - 1) ≤ n) (hhi : n < 2 ^ (b - 1)) (hround : Number.round n = n)
    (htype : ∀ i, unpackType data (BinaryPack.unpackAt data depth) type.toNat i =
      (BinaryPack.unpackUint data k i).map fun (n, i) => (.number (signed b n), i)) :
    BinaryPack.unpackAt data (depth + 1) index =
      some (.number n, index + (type :: bigEndian k (n % 2 ^ b).toNat).length) := by
  have hmod : (0 : Int) ≤ n % 2 ^ b := Int.emod_nonneg n (pow_ne_zero b (by decide))
  have hlt : (n % 2 ^ b).toNat < 256 ^ k := by
    have := Int.emod_lt_of_pos n (show (0 : Int) < 2 ^ b from pow_pos (by decide) b)
    rw [hb, Int.toNat_lt hmod]
    exact_mod_cast this
  have hread := h.unpackAt_uint (v := fun m => .number (signed b m)) hlt htype
  rwa [Int.toNat_of_nonneg hmod, signed_eq hlo hhi hround hpos] at hread

/-- The 64 bits of a double, if it is natural or ends in 11 zeros. -/
theorem exists_bits (hround : Number.round n = n) (hlo : -2 ^ 63 ≤ n) (hhi : n < 2 ^ 64)
    (h : 0 ≤ n ∨ (2048 : Int) ∣ n) : ∃ m e, m < 2 ^ 53 ∧ (n % 2 ^ 64).toNat = m * 2 ^ e := by
  rcases Int.lt_or_le n 0 with hneg | hpos
  · exact ⟨(n % 2 ^ 64).toNat / 2 ^ 11, 11, by omega, by omega⟩
  · obtain ⟨m, e, hm, hn⟩ := Number.exists_of_round_eq hround
    exact ⟨m, e, hm, by omega⟩

/-- A number that arrives. The number `2 ^ 63` becomes a negative one. -/
def IntactNumber (n : Int) : Prop :=
  (-2 ^ 31 ≤ n ∨ -2 ^ 63 ≤ n ∧ (2048 : Int) ∣ n) ∧ n < 2 ^ 64 ∧ n ≠ 2 ^ 63

instance (n : Int) : Decidable (IntactNumber n) :=
  inferInstanceAs (Decidable ((_ ∨ _ ∧ _) ∧ _ ∧ _))

/-- A number of 64 bits with a sign is read, and is the same if it is intact. -/
theorem At.unpackAt_int64 (h : At data index (0xd3 :: bigEndian 8 (n % 2 ^ 64).toNat))
    (hround : Number.round n = n) (hn : -2 ^ 63 ≤ n ∧ n ≤ 2 ^ 63) (hlarge : -2 ^ 31 ≤ n → 0 ≤ n) :
    ∃ m, BinaryPack.unpackAt data (depth + 1) index = some (.number m, index + 9) ∧
      (m = n ↔ IntactNumber n) := by
  have hread : BinaryPack.unpackAt data (depth + 1) index =
      (BinaryPack.unpackUint64 data (index + 1)).map fun p => (.number (signed 64 p.1), p.2) :=
    h.unpackAt depth
  have htail := h.tail
  rw [hread]
  unfold IntactNumber
  by_cases hbits : 0 ≤ n ∨ (2048 : Int) ∣ n
  · obtain ⟨m, e, hm, hu⟩ := exists_bits hround hn.1 (by omega) hbits
    have hcast : ((m * 2 ^ e : Nat) : Int) = n % 2 ^ 64 := by omega
    rw [hu] at htail
    rw [htail.unpackUint64 hm (by omega), Option.map_some, hcast]
    refine ⟨_, rfl, ?_⟩
    rcases Int.lt_or_eq_of_le hn.2 with hlt | rfl
    · rw [signed_eq (by omega) (by omega) hround (by decide)]
      omega
    · have hneg : signed 64 (2 ^ 63 % 2 ^ 64) = Number.round (-2 ^ 63) := rfl
      rw [hneg, Number.round_neg, hround]
      omega
  · obtain ⟨v, hv, hdvd⟩ := htail.unpackUint64_dvd (by omega) (by omega)
    have hsigned : (2 ^ 11 : Int) ∣ signed 64 v := by
      unfold signed
      split
      · exact hdvd
      · exact Number.dvd_round_of_dvd (Int.dvd_sub hdvd (by decide))
    rw [hv]
    refine ⟨_, rfl, iff_of_false (fun heq => ?_) (by omega)⟩
    rw [heq] at hsigned
    exact hbits (.inr hsigned)

/-- So is one without a sign. -/
theorem At.unpackAt_uint64 (h : At data index (0xcf :: bigEndian 8 (n % 2 ^ 64).toNat))
    (hround : Number.round n = n) (hlo : 2 ^ 63 < n) (hhi : n ≤ 2 ^ 64) :
    ∃ m, BinaryPack.unpackAt data (depth + 1) index = some (.number m, index + 9) ∧
      (m = n ↔ IntactNumber n) := by
  have hread : BinaryPack.unpackAt data (depth + 1) index =
      (BinaryPack.unpackUint64 data (index + 1)).map fun p => (.number p.1, p.2) :=
    h.unpackAt depth
  obtain ⟨m, e, hm, hu⟩ : ∃ m e, m < 2 ^ 53 ∧ (n % 2 ^ 64).toNat = m * 2 ^ e := by
    rcases Int.lt_or_eq_of_le hhi with hlt | rfl
    · exact exists_bits hround (by omega) hlt (.inl (by omega))
    · exact ⟨0, 0, by decide, rfl⟩
  have htail := h.tail
  rw [hu] at htail
  rw [hread, htail.unpackUint64 hm (by omega), Option.map_some]
  refine ⟨_, rfl, ?_⟩
  unfold IntactNumber
  omega

/-- A number is read, though not always the same. -/
theorem unpackAt_number (hround : Number.round n = n) {bytes : List UInt8}
    (hpack : packInteger n = some bytes) (h : At data index bytes) :
    ∃ m, unpackAt data (depth + 1) index = some (.number m, index + bytes.length) ∧
      (m = n ↔ IntactNumber n) := by
  have hsame : -2 ^ 31 ≤ n → n < 2 ^ 63 → (n = n ↔ IntactNumber n) :=
    fun hlo hhi => iff_of_true rfl ⟨.inl hlo, by omega, by omega⟩
  unfold packInteger at hpack
  split at hpack
  · next hn =>
    cases hpack
    have hbytes : bytesOf [BitVec.ofInt 32 n &&& 0xff] = [.ofNat (n % 256).toNat] := packInt8_eq n
    rw [hbytes] at h ⊢
    refine ⟨n, ?_, hsame (by omega) (by omega)⟩
    rw [h.unpackAt, UInt8.toNat_ofNat', Nat.mod_eq_of_lt (by omega)]
    exact unpackType_fixnum _ hn.1 hn.2
  split at hpack
  · next hn =>
    obtain ⟨k, rfl⟩ := Int.eq_ofNat_of_zero_le hn.1
    rw [packUint8_eq (by omega)] at hpack
    cases hpack
    exact ⟨k, h.unpackAt_uint8 (v := fun m => .number m) (by omega) fun _ => rfl,
      hsame (by omega) (by omega)⟩
  split at hpack
  · next hn =>
    rw [packInt8_eq] at hpack
    cases hpack
    have hread : unpackAt data (depth + 1) index =
        some (.number (signed 8 (n % 256).toNat), index + 2) :=
      h.unpackAt_uint8 (v := fun m => .number (signed 8 m)) (by omega) fun _ => rfl
    have hsigned := signed_eq (b := 8) (by omega) (by omega) hround (by decide)
    have hcast : (((n % 256).toNat : Nat) : Int) = n % 2 ^ 8 := by omega
    rw [hcast, hsigned] at hread
    exact ⟨n, hread, hsame (by omega) (by omega)⟩
  split at hpack
  · next hn =>
    obtain ⟨k, rfl⟩ := Int.eq_ofNat_of_zero_le hn.1
    rw [packUint16_eq (by omega)] at hpack
    cases hpack
    exact ⟨k, h.unpackAt_uint (v := fun m => .number m) (by omega) fun _ => rfl,
      hsame (by omega) (by omega)⟩
  split at hpack
  · next hn =>
    rw [packInt16_eq] at hpack
    cases hpack
    exact ⟨n, h.unpackAt_signed rfl (by decide) (by omega) (by omega) hround fun _ => rfl,
      hsame (by omega) (by omega)⟩
  split at hpack
  · next hn =>
    obtain ⟨k, rfl⟩ := Int.eq_ofNat_of_zero_le hn.1
    have hk : (BitVec.ofInt 32 k).toNat = k := by
      rw [toNat_ofInt]
      omega
    rw [packUint32_eq, hk] at hpack
    cases hpack
    exact ⟨k, h.unpackAt_uint (v := fun m => .number m) (by omega) fun _ => rfl,
      hsame (by omega) (by omega)⟩
  split at hpack
  · next hn =>
    rw [packInt32_eq, toNat_ofInt] at hpack
    cases hpack
    exact ⟨n, h.unpackAt_signed rfl (by decide) (by omega) (by omega) hround fun _ => rfl,
      hsame (by omega) (by omega)⟩
  split at hpack
  · next hn =>
    rw [packInt64_eq] at hpack
    cases hpack
    rw [List.length_cons, length_bigEndian]
    exact h.unpackAt_int64 hround hn (by omega)
  split at hpack
  · next hn =>
    rw [packUint64_eq hn.1] at hpack
    cases hpack
    rw [List.length_cons, length_bigEndian]
    exact h.unpackAt_uint64 hround (by omega) hn.2
  · cases hpack

/-- Numbers that arrive are packed. -/
theorem packInteger_isSome (hn : IntactNumber n) : ∃ bytes, packInteger n = some bytes := by
  unfold IntactNumber at hn
  unfold packInteger
  split_ifs
  all_goals first | exact ⟨_, rfl⟩ | omega

/-- No number is packed without a byte. -/
theorem packInteger_length {bytes : List UInt8} (h : packInteger n = some bytes) :
    0 < bytes.length := by
  unfold packInteger at h
  split_ifs at h
  all_goals cases h
  all_goals exact Nat.succ_pos _

end

end WebRtcNetty.Html.BinaryPack
