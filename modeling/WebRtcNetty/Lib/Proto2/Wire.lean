import Mathlib.Data.Nat.Basic
import Mathlib.Tactic.NormNum

/-!
# The proto2 wire format

The bytes of a message are a sequence of fields, each a tag (field number and wire type, as a
base-128 varint) followed by a payload. `serialize` writes the fields with the wire types 0 (varint)
and 2 (length-delimited), the two that generated code writes for integers, booleans, strings, bytes
and messages. `parseFields` reads a byte string into its fields: it reads every wire type, skips
groups, and fails on a truncated payload, on a malformed varint, on field number 0 and on an end of
group that closes no group. `parseFields_serialize` is the round trip.

As in the generated Java code a tag and a length are the low 32 bits of their varint, the length as
a signed number, and nested groups and messages are read up to a recursion limit.
-/

namespace Proto2

abbrev ByteString := List UInt8

/-! ## Varints -/

/-- The base-128 varint of `n`, at most `k` bytes. -/
def writeVarintAux : Nat → Nat → ByteString
  | 0, _ => []
  | k + 1, n =>
    if n < 128 then [UInt8.ofNat n]
    else UInt8.ofNat (n % 128 + 128) :: writeVarintAux k (n / 128)

/-- The varint of a 64-bit value: at most ten bytes. -/
def writeVarint (n : Nat) : ByteString := writeVarintAux 10 n

/-- Reads a varint of at most `k` bytes. -/
def readVarintAux : Nat → ByteString → Option (Nat × ByteString)
  | 0, _ => none
  | _ + 1, [] => none
  | k + 1, b :: bs =>
    if b.toNat < 128 then some (b.toNat, bs)
    else
      match readVarintAux k bs with
      | none => none
      | some (v, rest) => some (b.toNat - 128 + 128 * v, rest)

/-- Reads a varint as a 64-bit value. An eleventh byte is malformed, and the bits of the tenth byte
above the 64th are dropped. -/
def readVarint (bs : ByteString) : Option (Nat × ByteString) :=
  (readVarintAux 10 bs).map fun (v, rest) => (v % 2 ^ 64, rest)

theorem toNat_ofNat_of_lt {n : Nat} (h : n < 256) : (UInt8.ofNat n).toNat = n := by
  rw [UInt8.toNat_ofNat']; omega

/-- The reader gives back the value of a varint and the bytes after it. -/
theorem readVarintAux_writeVarintAux (rest : ByteString) : ∀ (k n : Nat), n < 128 ^ (k + 1) →
    readVarintAux (k + 1) (writeVarintAux (k + 1) n ++ rest) = some (n, rest)
  | 0, n, h => by
    have hn : n < 128 := by simpa using h
    simp [writeVarintAux, readVarintAux, hn, toNat_ofNat_of_lt (show n < 256 by omega)]
  | k + 1, n, h => by
    rw [writeVarintAux]
    split
    · next hn => simp [readVarintAux, toNat_ofNat_of_lt (show n < 256 by omega), hn]
    · next hn =>
      have hdiv : n / 128 < 128 ^ (k + 1) := by
        rw [Nat.div_lt_iff_lt_mul (by decide), ← Nat.pow_succ]; exact h
      have hb : (UInt8.ofNat (n % 128 + 128)).toNat = n % 128 + 128 :=
        toNat_ofNat_of_lt (by omega)
      rw [List.cons_append, readVarintAux, hb, if_neg (by omega),
        readVarintAux_writeVarintAux rest k _ hdiv]
      simp only [Option.some.injEq, Prod.mk.injEq, and_true]
      omega

theorem readVarint_writeVarint {n : Nat} (h : n < 2 ^ 64) (rest : ByteString) :
    readVarint (writeVarint n ++ rest) = some (n, rest) := by
  have h10 : n < 128 ^ (9 + 1) := Nat.lt_trans h (by decide)
  rw [readVarint, writeVarint, readVarintAux_writeVarintAux rest 9 n h10]
  show some (n % 2 ^ 64, rest) = _
  rw [Nat.mod_eq_of_lt h]

theorem writeVarint_ne_nil (n : Nat) : writeVarint n ≠ [] := by
  rw [writeVarint, writeVarintAux]
  split <;> simp

/-- A varint that was read had at least one byte. -/
theorem readVarint_length {bs rest : ByteString} {v : Nat} (h : readVarint bs = some (v, rest)) :
    rest.length < bs.length := by
  have haux : ∀ (k : Nat) (bs rest : ByteString) (v : Nat),
      readVarintAux k bs = some (v, rest) → rest.length < bs.length := by
    intro k
    induction k with
    | zero => intro bs rest v h; cases h
    | succ k ih =>
      intro bs rest v h
      cases bs with
      | nil => cases h
      | cons b bs =>
        rw [readVarintAux] at h
        split at h
        · cases h; simp
        · cases hk : readVarintAux k bs with
          | none => rw [hk] at h; cases h
          | some p =>
            rw [hk] at h
            cases h
            exact Nat.lt_succ_of_lt (ih _ _ _ hk)
  rw [readVarint, Option.map_eq_some_iff] at h
  obtain ⟨⟨w, rest'⟩, hw, he⟩ := h
  cases he
  exact haux _ _ _ _ hw

/-! ## Fields -/

/-- The payload of a field, by wire type. Groups have no payload of their own: they are skipped. -/
inductive WireValue
  | varint (n : Nat)
  | fixed64 (bytes : ByteString)
  | lengthDelimited (bytes : ByteString)
  | fixed32 (bytes : ByteString)
  deriving DecidableEq, Repr

/-- A field as it stands on the wire. -/
structure RawField where
  number : Nat
  value : WireValue
  deriving DecidableEq, Repr

/-- Reads a tag: the field number and the wire type, from the low 32 bits of a varint. -/
def readTag (bs : ByteString) : Option (Nat × Nat × ByteString) :=
  match readVarint bs with
  | none => none
  | some (v, rest) =>
    let tag := v % 2 ^ 32
    if tag / 8 = 0 then none else some (tag / 8, tag % 8, rest)

/-- Reads `n` bytes. -/
def readRaw (n : Nat) (bs : ByteString) : Option (ByteString × ByteString) :=
  if n ≤ bs.length then some (bs.take n, bs.drop n) else none

/-- Reads a length-delimited payload. The length is the low 32 bits of a varint as a signed number;
a negative length is malformed. -/
def readBytes (bs : ByteString) : Option (ByteString × ByteString) :=
  match readVarint bs with
  | none => none
  | some (v, rest) =>
    let len := v % 2 ^ 32
    if len < 2 ^ 31 then readRaw len rest else none

/-- What one tag introduces: a field with its payload, or a group's start or end. -/
inductive Token
  | field (value : WireValue)
  | startGroup
  | endGroup

/-- Reads the payload that a wire type announces. -/
def readPayload (wireType : Nat) (bs : ByteString) : Option (Token × ByteString) :=
  match wireType with
  | 0 => (readVarint bs).map fun (v, rest) => (.field (.varint v), rest)
  | 1 => (readRaw 8 bs).map fun (p, rest) => (.field (.fixed64 p), rest)
  | 2 => (readBytes bs).map fun (p, rest) => (.field (.lengthDelimited p), rest)
  | 3 => some (.startGroup, bs)
  | 4 => some (.endGroup, bs)
  | 5 => (readRaw 4 bs).map fun (p, rest) => (.field (.fixed32 p), rest)
  | _ => none

/-- Reads a tag and what it introduces. -/
def readToken (bs : ByteString) : Option (Nat × Token × ByteString) :=
  match readTag bs with
  | none => none
  | some (number, wireType, rest) =>
    (readPayload wireType rest).map fun (token, rest) => (number, token, rest)

/-- Reads fields up to the end of the input (`group = none`), or up to the end of the group with the
given number. `depth` is how many more groups may be opened. -/
def readFields : (fuel depth : Nat) → (group : Option Nat) → ByteString →
    Option (List RawField × ByteString)
  | 0, _, _, _ => none
  | _ + 1, _, none, [] => some ([], [])
  | _ + 1, _, some _, [] => none
  | fuel + 1, depth, group, b :: bs =>
    match readToken (b :: bs) with
    | none => none
    | some (number, .field value, rest) =>
      (readFields fuel depth group rest).map fun (fs, rest) => (⟨number, value⟩ :: fs, rest)
    | some (number, .startGroup, rest) =>
      match depth with
      | 0 => none
      | depth' + 1 =>
        match readFields fuel depth' (some number) rest with
        | none => none
        | some (_, rest) => readFields fuel (depth' + 1) group rest
    | some (number, .endGroup, rest) => if group = some number then some ([], rest) else none

/-- The fields of a byte string, with at most `depth` nested groups. Every field has at least one
byte, so the fuel suffices (`readFields_fuel`). -/
def parseFields (depth : Nat) (bs : ByteString) : Option (List RawField) :=
  (readFields (bs.length + 1) depth none bs).map (·.1)

theorem readTag_length {bs rest : ByteString} {n w : Nat} (h : readTag bs = some (n, w, rest)) :
    rest.length < bs.length := by
  unfold readTag at h
  cases hv : readVarint bs with
  | none => rw [hv] at h; cases h
  | some p =>
    rw [hv] at h
    simp only at h
    split at h
    · cases h
    · cases h; exact readVarint_length hv

theorem readRaw_length {n : Nat} {bs p rest : ByteString} (h : readRaw n bs = some (p, rest)) :
    rest.length ≤ bs.length := by
  unfold readRaw at h
  split at h
  · cases h; simp
  · cases h

theorem readBytes_length {bs p rest : ByteString} (h : readBytes bs = some (p, rest)) :
    rest.length < bs.length := by
  unfold readBytes at h
  cases hv : readVarint bs with
  | none => rw [hv] at h; cases h
  | some q =>
    rw [hv] at h
    simp only at h
    split at h
    · exact Nat.lt_of_le_of_lt (readRaw_length h) (readVarint_length hv)
    · cases h

theorem readPayload_length {w : Nat} {t : Token} {bs rest : ByteString}
    (h : readPayload w bs = some (t, rest)) : rest.length ≤ bs.length := by
  unfold readPayload at h
  split at h
  · obtain ⟨⟨v, r⟩, hv, he⟩ := Option.map_eq_some_iff.1 h
    cases he; exact (readVarint_length hv).le
  · obtain ⟨⟨p, r⟩, hp, he⟩ := Option.map_eq_some_iff.1 h
    cases he; exact readRaw_length hp
  · obtain ⟨⟨p, r⟩, hp, he⟩ := Option.map_eq_some_iff.1 h
    cases he; exact (readBytes_length hp).le
  · cases h; exact Nat.le_refl _
  · cases h; exact Nat.le_refl _
  · obtain ⟨⟨p, r⟩, hp, he⟩ := Option.map_eq_some_iff.1 h
    cases he; exact readRaw_length hp
  · cases h

/-- A tag and its payload take at least one byte. -/
theorem readToken_length {bs rest : ByteString} {n : Nat} {t : Token}
    (h : readToken bs = some (n, t, rest)) : rest.length < bs.length := by
  unfold readToken at h
  cases ht : readTag bs with
  | none => rw [ht] at h; cases h
  | some p =>
    obtain ⟨m, w, r⟩ := p
    rw [ht] at h
    simp only [Option.map_eq_some_iff, Prod.mk.injEq] at h
    obtain ⟨⟨t', r'⟩, hp, -, -, rfl⟩ := h
    exact Nat.lt_of_le_of_lt (readPayload_length hp) (readTag_length ht)

/-- Reading fields leaves a rest of the input. -/
theorem readFields_length : ∀ {fuel depth : Nat} {group : Option Nat} {bs rest : ByteString}
    {fs : List RawField}, readFields fuel depth group bs = some (fs, rest) →
      rest.length ≤ bs.length
  | 0, _, _, _, _, _, h => by cases h
  | _ + 1, _, none, [], _, _, h => by cases h; exact Nat.le_refl _
  | _ + 1, _, some _, [], _, _, h => by cases h
  | fuel + 1, depth, group, b :: bs, rest, fs, h => by
    rw [readFields] at h
    split at h
    · cases h
    · next ht =>
      simp only [Option.map_eq_some_iff, Prod.mk.injEq] at h
      obtain ⟨⟨fs', r'⟩, hr, -, rfl⟩ := h
      exact Nat.le_trans (readFields_length hr) (readToken_length ht).le
    · next ht =>
      split at h
      · cases h
      · split at h
        · cases h
        · next hg =>
          exact Nat.le_trans (readFields_length h)
            (Nat.le_trans (readFields_length hg) (readToken_length ht).le)
    · next ht =>
      split at h
      · cases h; exact (readToken_length ht).le
      · cases h

/-- Any two amounts of fuel above the length of the input read the same. -/
theorem readFields_fuel : ∀ {fuel fuel' depth : Nat} {group : Option Nat} {bs : ByteString},
    bs.length < fuel → bs.length < fuel' →
      readFields fuel depth group bs = readFields fuel' depth group bs
  | 0, _, _, _, _, h, _ => by cases h
  | _ + 1, 0, _, _, _, _, h => by cases h
  | _ + 1, _ + 1, _, none, [], _, _ => rfl
  | _ + 1, _ + 1, _, some _, [], _, _ => rfl
  | fuel + 1, fuel' + 1, depth, group, b :: bs, h, h' => by
    rw [readFields, readFields]
    cases ht : readToken (b :: bs) with
    | none => rfl
    | some p =>
      obtain ⟨n, t, rest⟩ := p
      have hlt := readToken_length ht
      have h₁ : rest.length < fuel := by omega
      have h₂ : rest.length < fuel' := by omega
      cases t with
      | field v => simp only [readFields_fuel h₁ h₂]
      | endGroup => rfl
      | startGroup =>
        cases depth with
        | zero => rfl
        | succ depth =>
          have hsame : readFields fuel depth (some n) rest = readFields fuel' depth (some n) rest :=
            readFields_fuel h₁ h₂
          simp only [hsame]
          cases hg : readFields fuel' depth (some n) rest with
          | none => rfl
          | some q =>
            have := readFields_length hg
            exact readFields_fuel (by omega) (by omega)

/-! ## Writing -/

/-- The payload of a field can be read back: what it holds fits its wire type. -/
def WireValue.Valid : WireValue → Prop
  | .varint n => n < 2 ^ 64
  | .lengthDelimited p => p.length < 2 ^ 31
  | .fixed64 _ | .fixed32 _ => False

/-- A field that generated code may write: a field number in range and a payload that fits. -/
def RawField.Valid (f : RawField) : Prop :=
  0 < f.number ∧ f.number < 2 ^ 29 ∧ f.value.Valid

/-- The bytes of a field. -/
def writeField (f : RawField) : ByteString :=
  match f.value with
  | .varint n => writeVarint (8 * f.number) ++ writeVarint n
  | .fixed64 p => writeVarint (8 * f.number + 1) ++ p
  | .lengthDelimited p => writeVarint (8 * f.number + 2) ++ (writeVarint p.length ++ p)
  | .fixed32 p => writeVarint (8 * f.number + 5) ++ p

/-- The bytes of a sequence of fields. -/
def serialize (fs : List RawField) : ByteString := fs.flatMap writeField

@[simp] theorem serialize_append (fs gs : List RawField) :
    serialize (fs ++ gs) = serialize fs ++ serialize gs :=
  List.flatMap_append

theorem serialize_cons (f : RawField) (fs : List RawField) :
    serialize (f :: fs) = writeField f ++ serialize fs := rfl

theorem readTag_writeVarint {n w : Nat} (hn : 0 < n) (hn' : n < 2 ^ 29) (hw : w < 8)
    (rest : ByteString) : readTag (writeVarint (8 * n + w) ++ rest) = some (n, w, rest) := by
  have h1 : (8 * n + w) % 2 ^ 32 = 8 * n + w := Nat.mod_eq_of_lt (by omega)
  have h2 : (8 * n + w) / 8 = n := by omega
  have h3 : (8 * n + w) % 8 = w := by omega
  rw [readTag, readVarint_writeVarint (by omega)]
  simp only [h1, h2, h3]
  rw [if_neg (by omega)]

theorem readBytes_write {p : ByteString} (h : p.length < 2 ^ 31) (rest : ByteString) :
    readBytes (writeVarint p.length ++ p ++ rest) = some (p, rest) := by
  have h1 : p.length % 2 ^ 32 = p.length := Nat.mod_eq_of_lt (by omega)
  rw [readBytes, List.append_assoc, readVarint_writeVarint (by omega)]
  simp only [h1]
  rw [if_pos h, readRaw, if_pos (by simp), List.take_left, List.drop_left]

/-- A written field is read back as one token. -/
theorem readToken_writeField {f : RawField} (h : f.Valid) (rest : ByteString) :
    readToken (writeField f ++ rest) = some (f.number, .field f.value, rest) := by
  obtain ⟨n, v⟩ := f
  obtain ⟨h0, h1, hv⟩ := h
  cases v with
  | fixed64 p => exact hv.elim
  | fixed32 p => exact hv.elim
  | varint v =>
    have ht := readTag_writeVarint (w := 0) h0 h1 (by decide) (writeVarint v ++ rest)
    rw [Nat.add_zero] at ht
    simp only [writeField, List.append_assoc, readToken, ht, readPayload,
      readVarint_writeVarint hv, Option.map_some]
  | lengthDelimited p =>
    have ht := readTag_writeVarint (w := 2) h0 h1 (by decide) (writeVarint p.length ++ p ++ rest)
    have hb := readBytes_write hv rest
    simp only [List.append_assoc] at ht hb
    simp only [writeField, List.append_assoc, readToken, ht, readPayload, hb, Option.map_some]

theorem writeField_ne_nil (f : RawField) : writeField f ≠ [] := by
  unfold writeField
  split <;> simp [writeVarint_ne_nil]

theorem length_le_length_serialize (fs : List RawField) : fs.length ≤ (serialize fs).length := by
  induction fs with
  | nil => exact Nat.le_refl _
  | cons f fs ih =>
    have := List.length_pos_iff.2 (writeField_ne_nil f)
    rw [serialize_cons, List.length_append, List.length_cons]
    omega

theorem readFields_serialize {depth : Nat} : ∀ {fs : List RawField} {fuel : Nat},
    (∀ f ∈ fs, f.Valid) → fs.length < fuel →
      readFields fuel depth none (serialize fs) = some (fs, [])
  | _, 0, _, h => by cases h
  | [], _ + 1, _, _ => rfl
  | f :: fs, fuel + 1, hv, hf => by
    have ht := readToken_writeField (hv f (.head _)) (serialize fs)
    rw [serialize_cons]
    cases hb : writeField f ++ serialize fs with
    | nil => exact absurd (List.append_eq_nil_iff.1 hb).1 (writeField_ne_nil f)
    | cons b bs =>
      rw [hb] at ht
      rw [readFields, ht]
      simp only
      rw [readFields_serialize (fun g hg => hv g (.tail _ hg)) (Nat.lt_of_succ_lt_succ hf)]
      rfl

/-- The round trip: the fields of a serialized sequence of valid fields are these fields. -/
theorem parseFields_serialize {fs : List RawField} (h : ∀ f ∈ fs, f.Valid) (depth : Nat) :
    parseFields depth (serialize fs) = some fs := by
  rw [parseFields, readFields_serialize h (Nat.lt_succ_of_le (length_le_length_serialize fs))]
  rfl

/-- A byte string that starts with the end of a group does not parse: no group is open. -/
theorem parseFields_endGroup {bs rest : ByteString} {n : Nat}
    (h : readToken bs = some (n, .endGroup, rest)) (depth : Nat) : parseFields depth bs = none := by
  cases bs with
  | nil => cases h
  | cons b bs =>
    rw [parseFields, readFields, h]
    rfl

end Proto2
