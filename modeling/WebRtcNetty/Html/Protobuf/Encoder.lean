import WebRtcNetty.Html.Protobuf.Writer
import WebRtcNetty.Lib.Proto2.Schema

/-!
# The encoders of the pages

protobuf.js makes an encoder for each message type from its schema. `encode` is the encoder of a
schema whose fields are in the order of their numbers, into which the generated code sorts them. It
writes what it finds in an object: a field that is not required is left out when the object does not
have it, and a required one is written anyway, a missing integer or boolean as zero, while for the
other types reading the missing value throws.

`written` says which message comes out of it, and `encoded_eq` that its bytes are those that the
server's `toByteArray` has for this message. It has all its required fields (`written_initialized`).
-/

namespace WebRtcNetty.Html.Protobuf

open Proto2

/-! ## Objects -/

mutual
/-- What a page has for a value of a field type. The number of an `int32` is given by its 32 bits,
which are read as a signed number; that of an `int64` is an integer. -/
@[reducible] def Value : FieldType → Type
  | .int32 => BitVec 32
  | .int64 => Int
  | .bool => Bool
  | .string => List UInt16
  | .bytes => List UInt8
  | .message fs => Object fs

/-- The objects for a message type. A property that is missing, `undefined` or `null` is `none`. -/
@[reducible] def Object : Fields → Type
  | .nil => Unit
  | .cons _ _ (.singular _) t rest => Option (Value t) × Object rest
  | .cons _ _ .repeated t rest => List (Value t) × Object rest
end

/-! ## The code -/

/-- `(field.id << 3 | wireType) >>> 0` -/
def tag (id wireType : Nat) : UInt32 := .ofNat (id <<< 3 ||| wireType)

mutual
/-- A tag and a value, which may be missing. `none` where the code throws. Reference: `encoder` and
`genTypePartial` (`protobuf.js:1954`). -/
def encodeField : (t : FieldType) → (id : Nat) → Option (Value t) → Writer → Option Writer
  | .int32, id, value, w => some ((w.uint32 (tag id 0)).int32 (value.getD 0).toInt)
  | .int64, id, some value, w => some ((w.uint32 (tag id 0)).int64 value)
  | .int64, _, none, _ => none
  | .bool, id, value, w => some ((w.uint32 (tag id 0)).bool (value.getD false))
  | .string, id, some value, w => some ((w.uint32 (tag id 2)).string value)
  | .string, _, none, _ => none
  | .bytes, id, some value, w => some ((w.uint32 (tag id 2)).bytes value)
  | .bytes, _, none, _ => none
  -- without an object the encoder of a message type throws at the first field
  | .message fs, id, some m, w => (encode fs m (w.uint32 (tag id 2)).fork).map Writer.ldelim
  | .message .nil, id, none, w => some (w.uint32 (tag id 2)).fork.ldelim
  | .message (.cons _ _ _ _ _), _, none, _ => none

/-- The generated encoder. Reference: `encoder` (`protobuf.js:1965`). -/
def encode : (fs : Fields) → Object fs → Writer → Option Writer
  | .nil, _, w => some w
  | .cons _ id (.singular true) t rest, (v, vs), w =>
    (encodeField t id v w).bind (encode rest vs)
  | .cons _ id (.singular false) t rest, (v, vs), w =>
    match v with
    | none => encode rest vs w
    | some x => (encodeField t id (some x) w).bind (encode rest vs)
  | .cons _ id .repeated t rest, (v, vs), w =>
    (v.foldlM (fun w x => encodeField t id (some x) w) w).bind (encode rest vs)
end

/-! ## What is written -/

/-- Both values, if both are there. -/
def both {α β : Type} (a : Option α) (b : Option β) : Option (α × β) :=
  a.bind fun x => b.map fun y => (x, y)

theorem both_eq_none {α β : Type} {a : Option α} {b : Option β} :
    both a b = none ↔ a = none ∨ b = none := by
  cases a <;> cases b <;> simp [both]

theorem both_eq_some {α β : Type} {a : Option α} {b : Option β} {x : α} {y : β} :
    both a b = some (x, y) ↔ a = some x ∧ b = some y := by
  cases a <;> cases b <;> simp [both]

mutual
/-- The value that is written, `none` where the code throws. -/
def writtenValue : (t : FieldType) → Option (Value t) → Option t.Val
  | .int32, v => some (v.getD 0)
  | .int64, v => v.map (BitVec.ofInt 64)
  | .bool, v => some (v.getD false)
  | .string, v => v.map Utf8.write
  | .bytes, v => v
  | .message fs, some m => written fs m
  | .message .nil, none => some ()
  | .message (.cons _ _ _ _ _), none => none

/-- The message that is written, `none` where the code throws. -/
def written : (fs : Fields) → Object fs → Option fs.Val
  | .nil, _ => some ()
  | .cons _ _ (.singular true) t rest, (v, vs) =>
    both ((writtenValue t v).map some) (written rest vs)
  | .cons _ _ (.singular false) t rest, (v, vs) =>
    match v with
    | none => both (some none) (written rest vs)
    | some x => both ((writtenValue t (some x)).map some) (written rest vs)
  | .cons _ _ .repeated t rest, (v, vs) =>
    both (v.mapM fun x => writtenValue t (some x)) (written rest vs)
end

/-! ## Repeated fields -/

section
variable {α β : Type} {f : Writer → α → Option Writer} {g : α → Option β} {xs : List α}

/-- Where a value cannot be written, the loop over the values throws. -/
theorem foldlM_none (h : ∀ a ∈ xs, g a = none → ∀ w, f w a = none) :
    xs.mapM g = none → ∀ w, xs.foldlM f w = none := by
  induction xs with
  | nil => exact fun hnone => nomatch hnone
  | cons a xs ih =>
    intro hnone w
    rw [List.foldlM_cons]
    cases ha : g a with
    | none =>
      rw [h a (.head _) ha]
      rfl
    | some b =>
      have hrest : xs.mapM g = none := by
        rw [List.mapM_cons, ha] at hnone
        cases hxs : xs.mapM g with
        | none => rfl
        | some bs =>
          rw [hxs] at hnone
          cases hnone
      cases f w a with
      | none => rfl
      | some w' => exact ih (fun a ha => h a (.tail _ ha)) hrest w'

/-- What comes out of the values comes out of one of them. -/
theorem of_mem_mapM {b : β} : ∀ {xs : List α} {ys : List β}, xs.mapM g = some ys → b ∈ ys →
    ∃ a, g a = some b
  | [], ys, h, hb => by
    cases h
    cases hb
  | a :: xs, ys, h, hb => by
    rw [List.mapM_cons] at h
    obtain ⟨c, hc, h⟩ := Option.bind_eq_some_iff.1 h
    obtain ⟨cs, hcs, h⟩ := Option.bind_eq_some_iff.1 h
    cases h
    rcases List.mem_cons.1 hb with rfl | hb
    · exact ⟨a, hc⟩
    · exact of_mem_mapM hcs hb

/-- The loop over the values writes one after the other. -/
theorem foldlM_adds {bytes : β → List UInt8}
    (h : ∀ a ∈ xs, ∀ b, g a = some b → (bytes b).length < 2 ^ 32 → ∀ w : Writer, w.Sound →
      ∃ w', f w a = some w' ∧ w.Adds (bytes b) w') :
    ∀ {ys : List β}, xs.mapM g = some ys → (ys.flatMap bytes).length < 2 ^ 32 →
      ∀ w : Writer, w.Sound → ∃ w', xs.foldlM f w = some w' ∧ w.Adds (ys.flatMap bytes) w' := by
  induction xs with
  | nil =>
    intro ys hys _ w hw
    cases hys
    exact ⟨w, rfl, hw.adds_nil⟩
  | cons a xs ih =>
    intro ys hys hlen w hw
    rw [List.mapM_cons] at hys
    obtain ⟨b, hb, hys⟩ := Option.bind_eq_some_iff.1 hys
    obtain ⟨bs, hbs, hys⟩ := Option.bind_eq_some_iff.1 hys
    cases hys
    rw [List.flatMap_cons, List.length_append] at hlen
    obtain ⟨w₁, hw₁, hadds₁⟩ := h a (.head _) b hb (by omega) w hw
    obtain ⟨w₂, hw₂, hadds₂⟩ := ih (fun a ha => h a (.tail _ ha)) hbs (by omega) w₁ hadds₁.sound
    refine ⟨w₂, ?_, hadds₁.trans hadds₂⟩
    rw [List.foldlM_cons, hw₁]
    exact hw₂

end

/-! ## Throwing -/

mutual
theorem encodeField_none : ∀ {t : FieldType} {v : Option (Value t)}, writtenValue t v = none →
    ∀ (id : Nat) (w : Writer), encodeField t id v w = none
  | .int64, none, _, _, _ | .string, none, _, _, _ | .bytes, none, _, _, _ => by rw [encodeField]
  | .message (.cons _ _ _ _ _), none, _, _, _ => by rw [encodeField]
  | .message fs, some m, h, id, w => by
    rw [writtenValue] at h
    rw [encodeField, encode_none h]
    rfl
  | .int64, some _, h, _, _ | .string, some _, h, _, _ | .bytes, some _, h, _, _ => nomatch h
  | .int32, _, h, _, _ | .bool, _, h, _, _ => nomatch h
  | .message .nil, none, h, _, _ => nomatch h

/-- The encoder throws where nothing is written. -/
theorem encode_none : ∀ {fs : Fields} {m : Object fs}, written fs m = none →
    ∀ w : Writer, encode fs m w = none
  | .nil, _, h, _ => nomatch h
  | .cons _ id (.singular true) t rest, (v, vs), h, w => by
    rw [written, both_eq_none, Option.map_eq_none_iff] at h
    rw [encode]
    rcases h with h | h
    · rw [encodeField_none h]
      rfl
    · exact Option.bind_eq_none_iff.2 fun w' _ => encode_none h w'
  | .cons _ id (.singular false) t rest, (none, vs), h, w => by
    rw [written, both_eq_none] at h
    rw [encode]
    exact encode_none (h.resolve_left (Option.some_ne_none _)) w
  | .cons _ id (.singular false) t rest, (some x, vs), h, w => by
    rw [written, both_eq_none, Option.map_eq_none_iff] at h
    rw [encode]
    rcases h with h | h
    · rw [encodeField_none h]
      rfl
    · exact Option.bind_eq_none_iff.2 fun w' _ => encode_none h w'
  | .cons _ id .repeated t rest, (v, vs), h, w => by
    rw [written, both_eq_none] at h
    rw [encode]
    rcases h with h | h
    · rw [foldlM_none (fun x _ hx => encodeField_none hx id) h]
      rfl
    · exact Option.bind_eq_none_iff.2 fun w' _ => encode_none h w'
end

/-! ## Writing -/

section
variable {id wireType : Nat} {w : Writer}

theorem toNat_tag (hid : id < 2 ^ 29) (hw : wireType < 8) :
    (tag id wireType).toNat = 8 * id + wireType := by
  have hor : id <<< 3 ||| wireType = id * 2 ^ 3 + wireType := Utf8.shiftLeft_or hw
  rw [tag, hor, UInt32.toNat_ofNat']
  omega

/-- A tag and the varint behind it. -/
theorem adds_varint (hid : id < 2 ^ 29) {n : Nat} {f : Writer → Writer} (hw : w.Sound)
    (h : ∀ w : Writer, w.Sound → w.Adds (writeVarint n) (f w)) :
    w.Adds (writeField ⟨id, .varint n⟩) (f (w.uint32 (tag id 0))) := by
  have htag := hw.uint32 (tag id 0)
  rw [toNat_tag hid (by decide)] at htag
  exact htag.trans (h _ htag.sound)

/-- A tag and the bytes behind it, with their number. -/
theorem adds_lengthDelimited (hid : id < 2 ^ 29) {bs : ByteString} {f : Writer → Writer}
    (hw : w.Sound) (h : ∀ w : Writer, w.Sound → w.Adds (writeVarint bs.length ++ bs) (f w)) :
    w.Adds (writeField ⟨id, .lengthDelimited bs⟩) (f (w.uint32 (tag id 2))) := by
  have htag := hw.uint32 (tag id 2)
  rw [toNat_tag hid (by decide)] at htag
  exact htag.trans (h _ htag.sound)

/-- A payload is shorter than its field. -/
theorem length_le_writeField (id : Nat) (bs : ByteString) :
    bs.length ≤ (writeField ⟨id, .lengthDelimited bs⟩).length := by
  rw [writeField]
  simp only [List.length_append]
  omega

end

/-- One part after the other. -/
theorem bind_adds {w : Writer} {bs cs : List UInt8} {w? : Option Writer}
    {f : Writer → Option Writer} (h : ∃ w₁, w? = some w₁ ∧ w.Adds bs w₁)
    (hf : ∀ w₁ : Writer, w₁.Sound → ∃ w₂, f w₁ = some w₂ ∧ w₁.Adds cs w₂) :
    ∃ w₂, w?.bind f = some w₂ ∧ w.Adds (bs ++ cs) w₂ := by
  obtain ⟨w₁, rfl, hadds₁⟩ := h
  obtain ⟨w₂, hw₂, hadds₂⟩ := hf w₁ hadds₁.sound
  exact ⟨w₂, hw₂, hadds₁.trans hadds₂⟩

section
variable {name : String} {id : Nat} {t : FieldType} {rest : Fields}

/-- The bytes of a field that is set, and of those after it. -/
theorem toByteArray_some {r : Bool} (x : t.Val) (ys : rest.Val) :
    (Fields.cons name id (.singular r) t rest).toByteArray (some x, ys) =
      writeField ⟨id, t.encode x⟩ ++ rest.toByteArray ys := by
  rw [Fields.toByteArray, Fields.encode, serialize_append, Option.toList_some, List.map_singleton,
    serialize_cons, List.append_assoc]
  rfl

theorem toByteArray_repeated (xs : List t.Val) (ys : rest.Val) :
    (Fields.cons name id .repeated t rest).toByteArray (xs, ys) =
      (xs.flatMap fun x => writeField ⟨id, t.encode x⟩) ++ rest.toByteArray ys := by
  rw [Fields.toByteArray, Fields.encode, serialize_append, serialize, List.flatMap_map]
  rfl

end

mutual
/-- A value is written as the field that the server's encoder makes of it. -/
theorem encodeField_adds {id : Nat} (hid : id < 2 ^ 29) : ∀ {t : FieldType} {v : Option (Value t)}
    {x : t.Val}, t.wf = true → writtenValue t v = some x →
      (writeField ⟨id, t.encode x⟩).length < 2 ^ 32 → ∀ w : Writer, w.Sound →
        ∃ w', encodeField t id v w = some w' ∧ w.Adds (writeField ⟨id, t.encode x⟩) w'
  | .int32, v, x, _, h, _, w, hw => by
    rw [writtenValue] at h
    cases h
    rw [encodeField, FieldType.encode]
    exact ⟨_, rfl, adds_varint hid hw fun w hw => hw.int32 _⟩
  | .int64, some v, x, _, h, _, w, hw => by
    rw [writtenValue] at h
    cases h
    rw [encodeField, FieldType.encode]
    exact ⟨_, rfl, adds_varint hid hw fun w hw => hw.int64 v⟩
  | .bool, v, x, _, h, _, w, hw => by
    rw [writtenValue] at h
    cases h
    rw [encodeField, FieldType.encode]
    exact ⟨_, rfl, adds_varint hid hw fun w hw => hw.bool _⟩
  | .string, some v, x, _, h, hlen, w, hw => by
    rw [writtenValue] at h
    cases h
    rw [FieldType.encode] at hlen
    have hle := length_le_writeField id (Utf8.write v)
    rw [encodeField, FieldType.encode]
    exact ⟨_, rfl, adds_lengthDelimited hid hw fun w hw => hw.string (by omega)⟩
  | .bytes, some v, x, _, h, hlen, w, hw => by
    rw [writtenValue] at h
    cases h
    rw [FieldType.encode] at hlen
    have hle := length_le_writeField id v
    rw [encodeField, FieldType.encode]
    exact ⟨_, rfl, adds_lengthDelimited hid hw fun w hw => hw.bytes (by omega)⟩
  | .message fs, some m, x, hwf, h, hlen, w, hw => by
    rw [writtenValue] at h
    rw [FieldType.wf] at hwf
    rw [FieldType.encode] at hlen
    have hlen' : (fs.toByteArray x).length < 2 ^ 32 :=
      (length_le_writeField id (fs.toByteArray x)).trans_lt hlen
    have htag := hw.uint32 (tag id 2)
    rw [toNat_tag hid (by decide)] at htag
    obtain ⟨w', hw', hadds⟩ := encode_adds hwf h hlen' _ htag.sound.fork
    rw [encodeField, FieldType.encode, hw']
    exact ⟨_, rfl, htag.trans (htag.sound.ldelim hadds hlen')⟩
  | .message .nil, none, x, _, h, _, w, hw => by
    rw [encodeField, FieldType.encode]
    exact ⟨_, rfl, adds_lengthDelimited hid hw fun w hw =>
      hw.ldelim hw.fork.adds_nil (by decide)⟩
  | .int64, none, _, _, h, _, _, _ | .string, none, _, _, h, _, _, _ => nomatch h
  | .bytes, none, _, _, h, _, _, _ => nomatch h
  | .message (.cons _ _ _ _ _), none, _, _, h, _, _, _ => nomatch h

/-- An object is written as the bytes of a message. -/
theorem encode_adds : ∀ {fs : Fields} {m : Object fs} {v : fs.Val}, fs.wf = true →
    written fs m = some v → (fs.toByteArray v).length < 2 ^ 32 → ∀ w : Writer, w.Sound →
      ∃ w', encode fs m w = some w' ∧ w.Adds (fs.toByteArray v) w'
  | .nil, _, _, _, _, _, w, hw => ⟨w, by rw [encode], hw.adds_nil⟩
  | .cons _ id (.singular true) t rest, (v, vs), (y, ys), hwf, h, hlen, w, hw => by
    simp only [Fields.wf, Bool.and_eq_true, decide_eq_true_eq] at hwf
    rw [written, both_eq_some] at h
    obtain ⟨x, hx, rfl⟩ := Option.map_eq_some_iff.1 h.1
    rw [toByteArray_some] at hlen ⊢
    rw [List.length_append] at hlen
    rw [encode]
    exact bind_adds (encodeField_adds hwf.1.1.1.2 hwf.1.2 hx (by omega) w hw)
      (encode_adds hwf.2 h.2 (by omega))
  | .cons _ id (.singular false) t rest, (none, vs), (y, ys), hwf, h, hlen, w, hw => by
    simp only [Fields.wf, Bool.and_eq_true, decide_eq_true_eq] at hwf
    rw [written, both_eq_some] at h
    cases h.1
    rw [encode]
    exact encode_adds hwf.2 h.2 hlen w hw
  | .cons _ id (.singular false) t rest, (some v, vs), (y, ys), hwf, h, hlen, w, hw => by
    simp only [Fields.wf, Bool.and_eq_true, decide_eq_true_eq] at hwf
    rw [written, both_eq_some] at h
    obtain ⟨x, hx, rfl⟩ := Option.map_eq_some_iff.1 h.1
    rw [toByteArray_some] at hlen ⊢
    rw [List.length_append] at hlen
    rw [encode]
    exact bind_adds (encodeField_adds hwf.1.1.1.2 hwf.1.2 hx (by omega) w hw)
      (encode_adds hwf.2 h.2 (by omega))
  | .cons _ id .repeated t rest, (v, vs), (y, ys), hwf, h, hlen, w, hw => by
    simp only [Fields.wf, Bool.and_eq_true, decide_eq_true_eq] at hwf
    rw [written, both_eq_some] at h
    rw [toByteArray_repeated] at hlen ⊢
    rw [List.length_append] at hlen
    rw [encode]
    exact bind_adds (foldlM_adds (fun x _ y hy hlen w hw =>
        encodeField_adds hwf.1.1.1.2 hwf.1.2 hy hlen w hw) h.1 (by omega) w hw)
      (encode_adds hwf.2 h.2 (by omega))
end

/-! ## The message -/

mutual
theorem writtenValue_initialized : ∀ {t : FieldType} {v : Option (Value t)} {x : t.Val},
    writtenValue t v = some x → t.isInitialized x = true
  | .message _, some _, _, h => written_initialized h
  | .message .nil, none, _, _ => rfl
  | .message (.cons _ _ _ _ _), none, _, h => nomatch h
  | .int32, _, _, _ | .int64, _, _, _ | .bool, _, _, _ | .string, _, _, _ | .bytes, _, _, _ => rfl

/-- The message has its required fields, and so have the messages in it. -/
theorem written_initialized : ∀ {fs : Fields} {m : Object fs} {v : fs.Val},
    written fs m = some v → fs.isInitialized v = true
  | .nil, _, _, _ => rfl
  | .cons _ _ (.singular true) t rest, (v, vs), (y, ys), h => by
    rw [written, both_eq_some] at h
    obtain ⟨x, hx, rfl⟩ := Option.map_eq_some_iff.1 h.1
    rw [Fields.isInitialized, Option.all_some, writtenValue_initialized hx,
      written_initialized h.2]
    rfl
  | .cons _ _ (.singular false) t rest, (none, vs), (y, ys), h => by
    rw [written, both_eq_some] at h
    cases h.1
    rw [Fields.isInitialized, written_initialized h.2]
    rfl
  | .cons _ _ (.singular false) t rest, (some v, vs), (y, ys), h => by
    rw [written, both_eq_some] at h
    obtain ⟨x, hx, rfl⟩ := Option.map_eq_some_iff.1 h.1
    rw [Fields.isInitialized, Option.all_some, writtenValue_initialized hx,
      written_initialized h.2]
    rfl
  | .cons _ _ .repeated t rest, (v, vs), (y, ys), h => by
    rw [written, both_eq_some] at h
    rw [Fields.isInitialized, written_initialized h.2, Bool.and_true, List.all_eq_true]
    intro x hx
    obtain ⟨u, hu⟩ := of_mem_mapM h.1 hx
    exact writtenValue_initialized hu
end

/-- `type.encode(m).finish()` -/
def encoded (fs : Fields) (m : Object fs) : Option (List UInt8) :=
  (encode fs m .create).map Writer.finish

/-- A page has the bytes of a message as the server has them, and throws where there is none. -/
theorem encoded_eq {fs : Fields} (hwf : fs.wf = true) (m : Object fs)
    (hlen : ∀ v ∈ written fs m, (fs.toByteArray v).length < 2 ^ 32) :
    encoded fs m = (written fs m).map fs.toByteArray := by
  cases hv : written fs m with
  | none =>
    rw [encoded, encode_none hv]
    rfl
  | some v =>
    obtain ⟨w, hw, hadds⟩ := encode_adds hwf hv (hlen v hv) .create Writer.sound_create
    rw [encoded, hw, Option.map_some, hadds.sound.finish_eq, hadds.content]
    rfl

end WebRtcNetty.Html.Protobuf
