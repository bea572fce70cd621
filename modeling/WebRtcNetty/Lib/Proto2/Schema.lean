import WebRtcNetty.Lib.Proto2.Wire
import Mathlib.Data.List.ReduceOption

/-!
# proto2 schemas

A message type is a list of fields, each with a name, a number, a label and a type (`Fields`).
`Fields.Val` is the type of its values, computed from the schema: a value has, for every declared
field, an optional value or a list of values of the field's type, so an ill-typed value cannot be
built. A required field is optional in `Val`, as it is in a builder; `Fields.isInitialized` says
that the required fields are set, here and in the nested messages, and a `Message` is a value with a
proof of it: what `build()` returns and what a successful parse returns.

`Fields.encode` and `Fields.decode` go between values and wire fields. Decoding follows the
generated code: fields with an undeclared number or another wire type are skipped, the last value of
a scalar field counts, the values of a singular message field are merged, and those of a repeated
field are collected. `Fields.parseFrom_toByteArray` is the round trip.
-/

namespace Proto2

/-- How often a field may occur: at most once, and then perhaps required, or any number of times. -/
inductive Label
  | singular (isRequired : Bool)
  | repeated
  deriving DecidableEq, Repr

@[match_pattern] abbrev Label.required : Label := .singular true

@[match_pattern] abbrev Label.optional : Label := .singular false

mutual
/-- The type of a field. -/
inductive FieldType
  | int32
  | int64
  | bool
  | string
  | bytes
  | message (fields : Fields)

/-- The fields of a message type. -/
inductive Fields
  | nil
  | cons (name : String) (number : Nat) (label : Label) (type : FieldType) (rest : Fields)
end

mutual
/-- The values of a field type. A string is held as its UTF-8 bytes. -/
@[reducible] def FieldType.Val : FieldType → Type
  | .int32 => BitVec 32
  | .int64 => BitVec 64
  | .bool => Bool
  | .string => ByteString
  | .bytes => ByteString
  | .message fs => fs.Val

/-- The values of a message type: one component for each field, in order. -/
@[reducible] def Fields.Val : Fields → Type
  | .nil => Unit
  | .cons _ _ (.singular _) t rest => Option t.Val × rest.Val
  | .cons _ _ .repeated t rest => List t.Val × rest.Val
end

mutual
/-- Equality of values is decidable, field by field. -/
def FieldType.decEq : (t : FieldType) → DecidableEq t.Val
  | .int32 => inferInstanceAs (DecidableEq (BitVec 32))
  | .int64 => inferInstanceAs (DecidableEq (BitVec 64))
  | .bool => inferInstanceAs (DecidableEq Bool)
  | .string => inferInstanceAs (DecidableEq ByteString)
  | .bytes => inferInstanceAs (DecidableEq ByteString)
  | .message fs => fs.decEq

/-- Equality of message values is decidable. -/
def Fields.decEq : (fs : Fields) → DecidableEq fs.Val
  | .nil => inferInstanceAs (DecidableEq Unit)
  | .cons _ _ (.singular _) t rest =>
    haveI := t.decEq; haveI := rest.decEq; inferInstanceAs (DecidableEq (Option t.Val × rest.Val))
  | .cons _ _ .repeated t rest =>
    haveI := t.decEq; haveI := rest.decEq; inferInstanceAs (DecidableEq (List t.Val × rest.Val))
end

instance (fs : Fields) : DecidableEq fs.Val := fs.decEq

/-! ## Builders -/

/-- The value with no field set: a new builder. -/
def Fields.newBuilder : (fs : Fields) → fs.Val
  | .nil => ()
  | .cons _ _ (.singular _) _ rest => (none, rest.newBuilder)
  | .cons _ _ .repeated _ rest => ([], rest.newBuilder)

mutual
/-- The required fields of a nested message are set. -/
def FieldType.isInitialized : (t : FieldType) → t.Val → Bool
  | .message fs, v => fs.isInitialized v
  | .int32, _ | .int64, _ | .bool, _ | .string, _ | .bytes, _ => true

/-- Every required field is set, in the message and in the messages it holds. -/
def Fields.isInitialized : (fs : Fields) → fs.Val → Bool
  | .nil, _ => true
  | .cons _ _ (.singular isRequired) t rest, (v, vs) =>
    (!isRequired || v.isSome) && v.all t.isInitialized && rest.isInitialized vs
  | .cons _ _ .repeated t rest, (v, vs) => v.all t.isInitialized && rest.isInitialized vs
end

mutual
/-- The nested messages have no required field. -/
def FieldType.allOptional : FieldType → Bool
  | .message fs => fs.allOptional
  | .int32 | .int64 | .bool | .string | .bytes => true

/-- There is no required field, in the message or in the messages it holds. -/
def Fields.allOptional : Fields → Bool
  | .nil => true
  | .cons _ _ (.singular isRequired) t rest => !isRequired && t.allOptional && rest.allOptional
  | .cons _ _ .repeated t rest => t.allOptional && rest.allOptional
end

mutual
theorem FieldType.isInitialized_of_allOptional : ∀ {t : FieldType}, t.allOptional = true →
    ∀ v, t.isInitialized v = true
  | .message fs, h, v => @Fields.isInitialized_of_allOptional fs h v
  | .int32, _, _ | .int64, _, _ | .bool, _, _ | .string, _, _ | .bytes, _, _ => rfl

/-- Where no field is required, every value can be built. -/
theorem Fields.isInitialized_of_allOptional : ∀ {fs : Fields}, fs.allOptional = true →
    ∀ v, fs.isInitialized v = true
  | .nil, _, _ => rfl
  | .cons _ _ (.singular isRequired) t rest, h, (v, vs) => by
    simp only [Fields.allOptional, Bool.and_eq_true, Bool.not_eq_eq_eq_not, Bool.not_true] at h
    obtain ⟨⟨hrequired, ht⟩, hrest⟩ := h
    have hv : v.all t.isInitialized = true := by
      cases v with
      | none => rfl
      | some x => exact FieldType.isInitialized_of_allOptional ht x
    have hvs := Fields.isInitialized_of_allOptional hrest vs
    simp only [Fields.isInitialized, hrequired, hv, hvs, Bool.not_false, Bool.true_or,
      Bool.and_self]
  | .cons _ _ .repeated t rest, h, (v, vs) => by
    simp only [Fields.allOptional, Bool.and_eq_true] at h
    have hv : v.all t.isInitialized = true :=
      List.all_eq_true.2 fun x _ => FieldType.isInitialized_of_allOptional h.1 x
    have hvs := Fields.isInitialized_of_allOptional h.2 vs
    simp only [Fields.isInitialized, hv, hvs, Bool.and_self]
end

/-- A built message: its required fields are set. -/
structure Message (fs : Fields) where
  val : fs.Val
  initialized : fs.isInitialized val = true

/-- `builder.build()`: `none` where it throws `UninitializedMessageException`. -/
def Fields.build (fs : Fields) (v : fs.Val) : Option (Message fs) :=
  if h : fs.isInitialized v = true then some ⟨v, h⟩ else none

theorem Fields.build_ok {fs : Fields} {v : fs.Val} (h : fs.isInitialized v = true) :
    fs.build v = some ⟨v, h⟩ := dif_pos h

/-! ## Encoding -/

mutual
/-- The payload of a value. A negative `int32` is sign-extended to 64 bits. -/
def FieldType.encode : (t : FieldType) → t.Val → WireValue
  | .int32, v => .varint (v.signExtend 64).toNat
  | .int64, v => .varint v.toNat
  | .bool, v => .varint v.toNat
  | .string, v => .lengthDelimited v
  | .bytes, v => .lengthDelimited v
  | .message fs, v => .lengthDelimited (serialize (fs.encode v))

/-- The wire fields of a message, in the order of the schema. -/
def Fields.encode : (fs : Fields) → fs.Val → List RawField
  | .nil, _ => []
  | .cons _ n (.singular _) t rest, (v, vs) =>
    (v.toList.map fun x => ⟨n, t.encode x⟩) ++ rest.encode vs
  | .cons _ n .repeated t rest, (v, vs) => (v.map fun x => ⟨n, t.encode x⟩) ++ rest.encode vs
end

/-- `message.toByteArray()`. -/
def Fields.toByteArray (fs : Fields) (v : fs.Val) : ByteString := serialize (fs.encode v)

/-! ## Decoding -/

mutual
/-- Merges a later value of a singular field into an earlier one: the later scalar counts, messages
are merged field by field. -/
def FieldType.merge : (t : FieldType) → t.Val → t.Val → t.Val
  | .message fs, v, w => fs.merge v w
  | .int32, _, w | .int64, _, w | .bool, _, w | .string, _, w | .bytes, _, w => w

/-- Merges two message values. -/
def Fields.merge : (fs : Fields) → fs.Val → fs.Val → fs.Val
  | .nil, _, _ => ()
  | .cons _ _ (.singular _) t rest, (v, vs), (w, ws) => (v.merge t.merge w, rest.merge vs ws)
  | .cons _ _ .repeated _ rest, (v, vs), (w, ws) => (v ++ w, rest.merge vs ws)
end

/-- The value of a singular field from its occurrences on the wire, oldest first. -/
def FieldType.mergeAll (t : FieldType) (vs : List t.Val) : Option t.Val :=
  vs.foldl (fun acc v => acc.merge t.merge (some v)) none

mutual
/-- The value of a payload: `some none` for another wire type than the declared one, `none` where
reading it throws. `depth` is how many more nested messages may be read. -/
def FieldType.decode : (t : FieldType) → (depth : Nat) → WireValue → Option (Option t.Val)
  | .int32, _, .varint n => some (some (BitVec.ofNat 32 n))
  | .int64, _, .varint n => some (some (BitVec.ofNat 64 n))
  | .bool, _, .varint n => some (some (n != 0))
  | .string, _, .lengthDelimited p => some (some p)
  | .bytes, _, .lengthDelimited p => some (some p)
  | .message fs, depth, .lengthDelimited p =>
    match depth with
    | 0 => none
    | depth + 1 =>
      match parseFields depth p with
      | none => none
      | some raws => (fs.decode depth raws).map some
  | _, _, _ => some none

/-- The value of a message type from its wire fields. -/
def Fields.decode : (fs : Fields) → (depth : Nat) → List RawField → Option fs.Val
  | .nil, _, _ => some ()
  | .cons _ n (.singular _) t rest, depth, raws => do
    let vs ← (raws.filter (·.number = n)).mapM fun f => t.decode depth f.value
    return (t.mergeAll vs.reduceOption, ← rest.decode depth raws)
  | .cons _ n .repeated t rest, depth, raws => do
    let vs ← (raws.filter (·.number = n)).mapM fun f => t.decode depth f.value
    return (vs.reduceOption, ← rest.decode depth raws)
end

/-- The field numbers of a message type. -/
def Fields.numbers : Fields → List Nat
  | .nil => []
  | .cons _ n _ _ rest => n :: rest.numbers

mutual
/-- The schemas of the nested messages are well formed. -/
def FieldType.wf : FieldType → Bool
  | .message fs => fs.wf
  | .int32 | .int64 | .bool | .string | .bytes => true

/-- The field numbers are in range and distinct, here and in the nested messages. -/
def Fields.wf : Fields → Bool
  | .nil => true
  | .cons _ n _ t rest => 0 < n && n < 2 ^ 29 && n ∉ rest.numbers && t.wf && rest.wf
end

mutual
/-- How deep messages are nested in the values of a field type. -/
def FieldType.depth : FieldType → Nat
  | .message fs => fs.depth + 1
  | .int32 | .int64 | .bool | .string | .bytes => 0

/-- How deep messages are nested in the values of a message type. -/
def Fields.depth : Fields → Nat
  | .nil => 0
  | .cons _ _ _ t rest => max t.depth rest.depth
end

/-- How many nested messages and groups the parser reads at most (`setRecursionLimit`). -/
def recursionLimit : Nat := 100

/-- Parses a message without checking its required fields. -/
def Fields.parsePartialFrom (fs : Fields) (bs : ByteString) : Option fs.Val := do
  fs.decode recursionLimit (← parseFields recursionLimit bs)

/-- `parseFrom`: `none` where it throws `InvalidProtocolBufferException`, for malformed bytes and
for a missing required field. -/
def Fields.parseFrom (fs : Fields) (bs : ByteString) : Option (Message fs) := do
  fs.build (← fs.parsePartialFrom bs)

/-! ## Round trip -/

/-- Encoding writes fields of the schema, each with an encoded value. -/
theorem Fields.mem_encode : ∀ {fs : Fields} {v : fs.Val} {f : RawField}, f ∈ fs.encode v →
    f.number ∈ fs.numbers ∧ ∃ (t : FieldType) (x : t.Val), f.value = t.encode x
  | .nil, _, _, h => by cases h
  | .cons _ n (.singular _) t rest, (v, vs), f, h => by
    rw [Fields.encode, List.mem_append] at h
    rcases h with h | h
    · obtain ⟨x, -, rfl⟩ := List.mem_map.1 h
      exact ⟨.head _, t, x, rfl⟩
    · exact ⟨.tail _ (Fields.mem_encode h).1, (Fields.mem_encode h).2⟩
  | .cons _ n .repeated t rest, (v, vs), f, h => by
    rw [Fields.encode, List.mem_append] at h
    rcases h with h | h
    · obtain ⟨x, -, rfl⟩ := List.mem_map.1 h
      exact ⟨.head _, t, x, rfl⟩
    · exact ⟨.tail _ (Fields.mem_encode h).1, (Fields.mem_encode h).2⟩

/-- Decoding reads the fields with the schema's numbers only. -/
theorem Fields.decode_congr {depth : Nat} {raws raws' : List RawField} : ∀ {fs : Fields},
    (∀ n ∈ fs.numbers, raws.filter (·.number = n) = raws'.filter (·.number = n)) →
      fs.decode depth raws = fs.decode depth raws'
  | .nil, _ => rfl
  | .cons _ n (.singular _) t rest, h => by
    rw [Fields.decode, Fields.decode, h n (.head _),
      @Fields.decode_congr depth raws raws' rest fun m hm => h m (.tail _ hm)]
  | .cons _ n .repeated t rest, h => by
    rw [Fields.decode, Fields.decode, h n (.head _),
      @Fields.decode_congr depth raws raws' rest fun m hm => h m (.tail _ hm)]

/-- The number of every field of a well-formed schema is in range. -/
theorem Fields.number_range : ∀ {fs : Fields}, fs.wf = true → ∀ n ∈ fs.numbers, 0 < n ∧ n < 2 ^ 29
  | .cons _ m _ t rest, h, n, hn => by
    simp only [Fields.wf, Bool.and_eq_true, decide_eq_true_eq] at h
    rcases List.mem_cons.1 hn with rfl | hn
    · exact ⟨h.1.1.1.1, h.1.1.1.2⟩
    · exact Fields.number_range h.2 n hn

/-- A payload is no longer than the fields it stands in. -/
theorem length_le_length_serialize_of_mem {raws : List RawField} {n : Nat} {p : ByteString}
    (h : ⟨n, .lengthDelimited p⟩ ∈ raws) : p.length ≤ (serialize raws).length := by
  induction raws with
  | nil => cases h
  | cons f fs ih =>
    rw [serialize_cons, List.length_append]
    rcases List.mem_cons.1 h with rfl | h
    · simp only [writeField, List.length_append]; omega
    · have := ih h; omega

/-- A value is encoded as a varint of 64 bits or as a length-delimited payload. -/
theorem FieldType.encode_cases : ∀ (t : FieldType) (v : t.Val),
    (∃ n, n < 2 ^ 64 ∧ t.encode v = .varint n) ∨ ∃ p, t.encode v = .lengthDelimited p
  | .int32, v => .inl ⟨_, (v.signExtend 64).isLt, by rw [FieldType.encode]⟩
  | .int64, v => .inl ⟨_, v.isLt, by rw [FieldType.encode]⟩
  | .bool, v => .inl ⟨v.toNat, by cases v <;> decide, by rw [FieldType.encode]⟩
  | .string, v => .inr ⟨v, by rw [FieldType.encode]⟩
  | .bytes, v => .inr ⟨v, by rw [FieldType.encode]⟩
  | .message fs, v => .inr ⟨_, by rw [FieldType.encode]⟩

/-- The fields of a message that takes less than 2 ^ 31 bytes can be read back. -/
theorem Fields.encode_valid {fs : Fields} {v : fs.Val} (hwf : fs.wf = true)
    (hlen : (fs.toByteArray v).length < 2 ^ 31) : ∀ f ∈ fs.encode v, f.Valid := by
  intro f hf
  obtain ⟨hn, t, x, hx⟩ := Fields.mem_encode hf
  obtain ⟨h0, h1⟩ := Fields.number_range hwf _ hn
  refine ⟨h0, h1, ?_⟩
  rcases t.encode_cases x with ⟨n, hlt, he⟩ | ⟨p, he⟩
  · rw [hx, he]; exact hlt
  · rw [hx, he]
    obtain ⟨m, w⟩ := f
    rw [show w = _ from hx, he] at hf
    exact Nat.lt_of_le_of_lt (length_le_length_serialize_of_mem hf) hlen

/-- The occurrences of a field among its own and those of other fields are its own. -/
theorem filter_occurrences {t : FieldType} {n : Nat} (xs : List t.Val) {raws : List RawField}
    (h : ∀ f ∈ raws, f.number ≠ n) :
    ((xs.map fun x => (⟨n, t.encode x⟩ : RawField)) ++ raws).filter (·.number = n) =
      xs.map fun x => ⟨n, t.encode x⟩ := by
  have h1 : (xs.map fun x => (⟨n, t.encode x⟩ : RawField)).filter (·.number = n) =
      xs.map fun x => ⟨n, t.encode x⟩ := by
    refine List.filter_eq_self.2 fun f hf => ?_
    obtain ⟨x, -, rfl⟩ := List.mem_map.1 hf
    simp
  have h2 : raws.filter (·.number = n) = [] :=
    List.filter_eq_nil_iff.2 fun f hf => by simpa using h f hf
  rw [List.filter_append, h1, h2, List.append_nil]

/-- The occurrences of a field do not change what another field reads. -/
theorem filter_occurrences_ne {t : FieldType} {n m : Nat} (xs : List t.Val)
    (raws : List RawField) (h : m ≠ n) :
    ((xs.map fun x => (⟨n, t.encode x⟩ : RawField)) ++ raws).filter (·.number = m) =
      raws.filter (·.number = m) := by
  have h1 : (xs.map fun x => (⟨n, t.encode x⟩ : RawField)).filter (·.number = m) = [] := by
    refine List.filter_eq_nil_iff.2 fun f hf => ?_
    obtain ⟨x, -, rfl⟩ := List.mem_map.1 hf
    simpa using h.symm
  rw [List.filter_append, h1, List.nil_append]

/-- Decoding the occurrences of a field, each of which decodes. -/
theorem mapM_decode {t : FieldType} {n depth : Nat} {xs : List t.Val}
    (h : ∀ x ∈ xs, t.decode depth (t.encode x) = some (some x)) :
    ((xs.map fun x => (⟨n, t.encode x⟩ : RawField)).mapM fun f => t.decode depth f.value) =
      some (xs.map some) := by
  induction xs with
  | nil => rfl
  | cons x xs ih =>
    rw [List.map_cons, List.mapM_cons, h x (.head _), ih fun y hy => h y (.tail _ hy)]
    rfl

@[simp] theorem reduceOption_map_some {α : Type} (xs : List α) :
    (xs.map some).reduceOption = xs := by
  induction xs with
  | nil => rfl
  | cons x xs ih => rw [List.map_cons, List.reduceOption_cons_of_some, ih]

/-- The value of a singular field that occurs at most once. -/
theorem FieldType.mergeAll_toList (t : FieldType) (v : Option t.Val) :
    t.mergeAll v.toList = v := by
  cases v <;> rfl

/-- What a field of a well-formed schema and the fields after it read of their own encoding. -/
theorem Fields.decode_occurrences {t : FieldType} {n depth : Nat} {rest : Fields} {vs : rest.Val}
    (xs : List t.Val) (hn : n ∉ rest.numbers)
    (hxs : ∀ x ∈ xs, t.decode depth (t.encode x) = some (some x))
    (hvs : rest.decode depth (rest.encode vs) = some vs) :
    ((((xs.map fun x => (⟨n, t.encode x⟩ : RawField)) ++ rest.encode vs).filter
        (·.number = n)).mapM fun f => t.decode depth f.value) = some (xs.map some) ∧
      rest.decode depth ((xs.map fun x => (⟨n, t.encode x⟩ : RawField)) ++ rest.encode vs) =
        some vs := by
  constructor
  · rw [filter_occurrences xs fun f hf he => hn (by rw [← he]; exact (Fields.mem_encode hf).1)]
    exact mapM_decode hxs
  · rw [Fields.decode_congr fun m hm => filter_occurrences_ne xs _ fun he => hn (by rwa [← he])]
    exact hvs

/-- The low 32 bits of a sign-extended value are the value. -/
theorem ofNat_toNat_signExtend (v : BitVec 32) : BitVec.ofNat 32 (v.signExtend 64).toNat = v := by
  rw [BitVec.ofNat_toNat]
  refine BitVec.eq_of_getLsbD_eq fun i hi => ?_
  rw [BitVec.getLsbD_setWidth, BitVec.getLsbD_signExtend]
  simp [hi, show i < 64 by omega]

mutual
/-- A payload of a value decodes to the value. -/
theorem FieldType.decode_encode : ∀ {t : FieldType} {v : t.Val} {depth : Nat}, t.wf = true →
    t.depth ≤ depth → (t.encode v).Valid → t.decode depth (t.encode v) = some (some v)
  | .int32, v, _, _, _, _ => by rw [FieldType.encode, FieldType.decode, ofNat_toNat_signExtend]
  | .int64, v, _, _, _, _ => by rw [FieldType.encode, FieldType.decode, BitVec.ofNat_toNat]; simp
  | .bool, v, _, _, _, _ => by cases v <;> rfl
  | .string, v, _, _, _, _ => by rw [FieldType.encode, FieldType.decode]
  | .bytes, v, _, _, _, _ => by rw [FieldType.encode, FieldType.decode]
  | .message fs, v, 0, _, hd, _ => by simp [FieldType.depth] at hd
  | .message fs, v, depth + 1, hwf, hd, hv => by
    have hlen : (fs.toByteArray v).length < 2 ^ 31 := by
      rw [FieldType.encode] at hv; exact hv
    rw [FieldType.wf] at hwf
    rw [FieldType.depth] at hd
    have h := Fields.decode_encode hwf (Nat.le_of_succ_le_succ hd) hlen
    rw [FieldType.encode, FieldType.decode, parseFields_serialize (Fields.encode_valid hwf hlen)]
    simp only [h, Option.map_some]

/-- The wire fields of a value decode to the value. -/
theorem Fields.decode_encode : ∀ {fs : Fields} {v : fs.Val} {depth : Nat}, fs.wf = true →
    fs.depth ≤ depth → (fs.toByteArray v).length < 2 ^ 31 → fs.decode depth (fs.encode v) = some v
  | .nil, _, _, _, _, _ => rfl
  | .cons _ n (.singular _) t rest, (v, vs), depth, hwf, hd, hlen => by
    have hvalid := Fields.encode_valid hwf hlen
    simp only [Fields.wf, Bool.and_eq_true, decide_eq_true_eq] at hwf
    obtain ⟨⟨⟨-, hn⟩, ht⟩, hr⟩ := hwf
    rw [Fields.depth, max_le_iff] at hd
    rw [Fields.toByteArray, Fields.encode, serialize_append, List.length_append] at hlen
    rw [Fields.encode] at hvalid
    obtain ⟨h₁, h₂⟩ := Fields.decode_occurrences v.toList hn (fun x hx =>
        FieldType.decode_encode ht hd.1
          (hvalid _ (List.mem_append_left _ (List.mem_map_of_mem hx))).2.2)
      (Fields.decode_encode hr hd.2 (v := vs) (by rw [Fields.toByteArray]; omega))
    rw [Fields.encode, Fields.decode, h₁, h₂]
    simp [reduceOption_map_some, FieldType.mergeAll_toList]
  | .cons _ n .repeated t rest, (v, vs), depth, hwf, hd, hlen => by
    have hvalid := Fields.encode_valid hwf hlen
    simp only [Fields.wf, Bool.and_eq_true, decide_eq_true_eq] at hwf
    obtain ⟨⟨⟨-, hn⟩, ht⟩, hr⟩ := hwf
    rw [Fields.depth, max_le_iff] at hd
    rw [Fields.toByteArray, Fields.encode, serialize_append, List.length_append] at hlen
    rw [Fields.encode] at hvalid
    obtain ⟨h₁, h₂⟩ := Fields.decode_occurrences v hn (fun x hx =>
        FieldType.decode_encode ht hd.1
          (hvalid _ (List.mem_append_left _ (List.mem_map_of_mem hx))).2.2)
      (Fields.decode_encode hr hd.2 (v := vs) (by rw [Fields.toByteArray]; omega))
    rw [Fields.encode, Fields.decode, h₁, h₂]
    simp
end

/-- The round trip: the bytes of a built message parse as that message. -/
theorem Fields.parseFrom_toByteArray {fs : Fields} (m : Message fs) (hwf : fs.wf = true)
    (hd : fs.depth ≤ recursionLimit) (hlen : (fs.toByteArray m.val).length < 2 ^ 31) :
    fs.parseFrom (fs.toByteArray m.val) = some m := by
  have hp : fs.parsePartialFrom (fs.toByteArray m.val) = some m.val := by
    rw [Fields.parsePartialFrom, Fields.toByteArray,
      parseFields_serialize (Fields.encode_valid hwf hlen)]
    exact Fields.decode_encode hwf hd hlen
  rw [Fields.parseFrom, hp]
  show fs.build m.val = some m
  rw [Fields.build, dif_pos m.initialized]

/-- Bytes that start with the end of a group are not a message. -/
theorem Fields.parseFrom_endGroup {fs : Fields} {bs rest : ByteString} {n : Nat}
    (h : readToken bs = some (n, .endGroup, rest)) : fs.parseFrom bs = none := by
  rw [Fields.parseFrom, Fields.parsePartialFrom, parseFields_endGroup h]
  rfl

end Proto2
