import WebRtcNetty.Html.BinaryPack.Strings

/-!
# What arrives over the data channels

`pack_unpack`: what a page gets is what has been sent if and only if the value is intact, and that
is to say that it has no surrogates, no empty buffer, no property that packing or unpacking asks for
itself and no number that is rounded in it, and nothing too long. Undefined values arrive as null,
and blobs as their bytes.
-/

namespace WebRtcNetty.Html.BinaryPack

open Js

/-! ## Values that arrive -/

/-- A string that arrives. -/
def IntactString (s : List UInt16) : Prop := Clean s ∧ (blobOf s).length ≤ 0xffffffff

instance (s : List UInt16) : Decidable (IntactString s) := inferInstanceAs (Decidable (_ ∧ _))

mutual
/-- What a value is at the other end: there is no undefined one, and blobs have been read. -/
def Value.received : Value → Value
  | .undefined => .null
  | .null => .null
  | .bool b => .bool b
  | .number n => .number n
  | .string s => .string s
  | .blob bytes => .buffer bytes
  | .buffer bytes => .buffer bytes
  | .array values => .array (receivedAll values)
  | .object fields => .object (receivedFields fields)

def Value.receivedAll : List Value → List Value
  | [] => []
  | value :: values => value.received :: receivedAll values

def Value.receivedFields : List (Key × Value) → List (Key × Value)
  | [] => []
  | (key, value) :: fields => (key, value.received) :: receivedFields fields
end

/-- The word that the text of every function begins with. -/
def function : List UInt16 := [102, 117, 110, 99, 116, 105, 111, 110]

/-- The value may be the text of a function. -/
def Value.isFunctionText : Value → Bool
  | .string s => function.isPrefixOf s
  | _ => false

/-- `new Uint8Array(value)` converts the content of the value to numbers. -/
def Value.isConverted : Value → Bool
  | .string _ | .array _ | .object _ => true
  | _ => false

/-- The own properties of an object that `pack` asks for are such that it is known what they lead
to. -/
structure Determinate (fields : List (Key × Value)) : Prop where
  constructor : (own fields Property.constructor).any Value.isFunctionText = false
  buffer : has fields Property.bytesPerElement = true →
    (own fields Property.buffer).any Value.isConverted = false

mutual
/-- The numbers are doubles, the keys of an object differ, and it is determinate. -/
def Value.Valid : Value → Prop
  | .undefined | .null | .bool _ | .string _ | .blob _ | .buffer _ => True
  | .number n => Number.round n = n
  | .array values => ValidAll values
  | .object fields => (fields.map (·.1)).Nodup ∧ Determinate fields ∧ ValidFields fields

def Value.ValidAll : List Value → Prop
  | [] => True
  | value :: values => value.Valid ∧ ValidAll values

def Value.ValidFields : List (Key × Value) → Prop
  | [] => True
  | (_, value) :: fields => value.Valid ∧ ValidFields fields
end

/-- The properties that packing asks an object for. -/
def asked : List Key := [Property.constructor, Property.bytesPerElement, Property.hasOwnProperty]

/-- The properties that mean something to packing or unpacking. -/
def special : List Key := Property.proto :: asked

mutual
/-- The numbers and strings in the value arrive, it has no empty buffer and no special property, and
nothing is too long. -/
def Value.Intact : Value → Prop
  | .undefined | .null | .bool _ => True
  | .number n => IntactNumber n
  | .string s => IntactString s
  | .blob bytes => bytes.length ≤ 0xffffffff
  | .buffer bytes => bytes.length ≠ 0 ∧ bytes.length ≤ 0xffffffff
  | .array values => values.length ≤ 0xffffffff ∧ IntactAll values
  | .object fields => fields.length ≤ 0xffffffff ∧ IntactFields fields

def Value.IntactAll : List Value → Prop
  | [] => True
  | value :: values => value.Intact ∧ IntactAll values

def Value.IntactFields : List (Key × Value) → Prop
  | [] => True
  | (key, value) :: fields =>
    (key ∉ special ∧ IntactString key) ∧ value.Intact ∧ IntactFields fields
end

section
variable {fields : List (Key × Value)} {key : Key}

/-- A property is one of the fields. -/
theorem has_iff : has fields key = true ↔ key ∈ fields.map (·.1) := by
  rw [has, List.any_eq_true, List.mem_map]
  exact exists_congr fun field => and_congr_right fun _ => decide_eq_true_iff

/-- An object that is intact has no property that packing asks for. -/
theorem Value.IntactFields.not_asked (h : Value.IntactFields fields) :
    ∀ key ∈ fields.map (·.1), key ∉ asked := by
  induction fields with
  | nil => exact fun key hkey => absurd hkey List.not_mem_nil
  | cons field fields ih =>
    obtain ⟨name, value⟩ := field
    obtain ⟨⟨hname, -⟩, -, hfields⟩ := h
    intro key hkey
    rcases List.mem_cons.1 hkey with rfl | hkey
    · exact fun hasked => hname (List.mem_cons_of_mem _ hasked)
    · exact ih hfields key hkey

/-- An object without these properties is packed as its fields. -/
theorem pack_object (h : ∀ key ∈ fields.map (·.1), key ∉ asked) :
    pack (.object fields) = (packLength 0x80 0xde 0xdf fields.length).bind fun size =>
      (packFields fields).map (size ++ ·) := by
  have hnot {key : Key} (hkey : key ∈ asked) : has fields key = false :=
    Bool.eq_false_iff.2 fun hhas => h key (has_iff.1 hhas) hkey
  have hbytes : has fields Property.bytesPerElement = false := hnot (by decide)
  have hconstructor : has fields Property.constructor = false := hnot (by decide)
  have hown : has fields Property.hasOwnProperty = false := hnot (by decide)
  rw [pack, hbytes, hconstructor, hown]
  refine congrArg (Option.bind _) (funext fun size => ?_)
  exact Option.map_eq_bind.symm

end

/-! ## Reading what has been packed -/

/-- Bytes are packed behind their length, which is known. -/
theorem packBin_some {length : Option Nat} {blob bytes : List UInt8}
    (h : packBin length blob = some bytes) :
    ∃ n size, length = some n ∧ packLength 0xa0 0xda 0xdb n = some size ∧ bytes = size ++ blob := by
  obtain ⟨size, hsize, rfl⟩ := Option.map_eq_some_iff.1 h
  obtain ⟨n, hn, hsize⟩ := Option.bind_eq_some_iff.1 hsize
  exact ⟨n, size, hn, hsize, rfl⟩

/-- An array of bytes is packed if it is not empty. -/
theorem packUint8Array_some {blob bytes : List UInt8} (h : packUint8Array blob = some bytes) :
    ∃ size, blob.length ≠ 0 ∧ packLength 0xa0 0xda 0xdb blob.length = some size ∧
      bytes = size ++ blob := by
  obtain ⟨n, size, hn, hsize, rfl⟩ := packBin_some h
  split at hn
  · cases hn
  · next hne =>
    cases hn
    exact ⟨size, hne, hsize, rfl⟩

/-- Wherever the bytes are, `read` gets `a` of them, if it may go as deep as there are bytes. -/
def Reads {α : Type} (read : (data : List UInt8) → (depth index : Nat) → Option (α × Nat))
    (bytes : List UInt8) (a : α) : Prop :=
  ∀ data index depth, At data index bytes → bytes.length ≤ depth →
    read data depth index = some (a, index + bytes.length)

section
variable {bytes : List UInt8} {value : Value}

/-- A value is read with a depth of one, at least. -/
theorem reads_of_succ (hpos : 0 < bytes.length)
    (h : ∀ data index depth, At data index bytes →
      unpackAt data (depth + 1) index = some (value, index + bytes.length)) :
    Reads unpackAt bytes value := by
  intro data index depth hat hdepth
  obtain ⟨depth, rfl⟩ := Nat.exists_eq_succ_of_ne_zero (n := depth) (by omega)
  exact h data index depth hat

/-- A value of one byte. -/
theorem reads_single {b : UInt8}
    (h : ∀ data unpack i, unpackType data unpack b.toNat i = some (value, i)) :
    Reads unpackAt [b] value :=
  reads_of_succ Nat.one_pos fun data _ depth hat => (hat.unpackAt depth).trans (h data _ _)

/-- What comes after a length. -/
theorem Reads.of_size {size : List UInt8} {k : List UInt8 → Nat → Nat → Option (Value × Nat)}
    (hreads : Reads k bytes value) (hpos : 0 < size.length)
    (h : ∀ data index depth, At data index size →
      unpackAt data (depth + 1) index = k data depth (index + size.length)) :
    Reads unpackAt (size ++ bytes) value := by
  intro data index depth hat hdepth
  rw [List.length_append] at hdepth
  obtain ⟨depth, rfl⟩ := Nat.exists_eq_succ_of_ne_zero (n := depth) (by omega)
  rw [h data index depth hat.left, hreads data _ depth hat.right (by omega), List.length_append,
    Nat.add_assoc]

/-- A number that arrives is packed and read. -/
theorem reads_packInteger {n : Int} (hround : Number.round n = n) (hn : IntactNumber n) :
    ∃ bytes, packInteger n = some bytes ∧ Reads unpackAt bytes (.number n) := by
  obtain ⟨bytes, hpack⟩ := packInteger_isSome hn
  refine ⟨bytes, hpack, reads_of_succ (packInteger_length hpack) fun data index depth hat => ?_⟩
  obtain ⟨m, hread, hiff⟩ := unpackAt_number hround hpack hat
  rw [hread, hiff.2 hn]

/-- No string is packed without a byte. -/
theorem packString_length {s : List UInt16} (h : packString s = some bytes) : 0 < bytes.length := by
  obtain ⟨size, hsize, rfl⟩ := packString_some h
  have := (packLength_some hsize).1
  rw [List.length_append]
  omega

/-- A string that arrives is packed and read. -/
theorem reads_packString {s : List UInt16} (hs : IntactString s) :
    ∃ bytes, packString s = some bytes ∧ Reads unpackAt bytes (.string s) := by
  have hlen : utf8Length s ≤ 0xffffffff := (utf8Length_clean hs.1).trans_le hs.2
  obtain ⟨size, hsize⟩ := packLength_isSome 0xb0 0xd8 0xd9 hlen
  have hpack : packString s = some (size ++ blobOf s) := by
    rw [packString, hsize]
    rfl
  exact ⟨_, hpack, reads_of_succ (packString_length hpack) fun data index depth hat =>
    unpackAt_clean hs.1 hpack hat⟩

/-- Bytes are packed and read, if they are not too many. -/
theorem reads_packBin {blob : List UInt8} (hlen : blob.length ≤ 0xffffffff) :
    ∃ bytes, packBin (some blob.length) blob = some bytes ∧
      Reads unpackAt bytes (.buffer blob) := by
  obtain ⟨size, hsize⟩ := packLength_isSome 0xa0 0xda 0xdb hlen
  have hpack : packBin (some blob.length) blob = some (size ++ blob) := by
    rw [packBin, Option.bind_some, hsize]
    rfl
  refine ⟨_, hpack, reads_of_succ ?_ fun data index depth hat => ?_⟩
  · have := (packLength_some hsize).1
    rw [List.length_append]
    omega
  · have hle := hat.right.length_le
    rw [unpackAt_raw hsize hat.left, unpackRaw, if_neg (by omega), hat.right.take_drop,
      List.length_append, Nat.add_assoc]

end

section
variable {unpack : Nat → Option (Value × Nat)} {size index index' : Nat} {key : Key} {value : Value}

/-- The first element is read, then the others. -/
theorem unpackArray.loop_succ (hvalue : unpack index = some (value, index')) (size : Nat) :
    loop unpack (size + 1) index =
      (loop unpack size index').map fun (values, index) => (value :: values, index) := by
  rw [loop, hvalue, Option.bind_eq_bind, Option.bind_some]
  exact Option.map_eq_bind.symm

/-- The first property is read, then the others. -/
theorem unpackMap.loop_succ (hkey : unpack index = some (.string key, index'))
    {index'' : Nat} (hvalue : unpack index' = some (value, index'')) (size : Nat)
    (map : List (Key × Value)) :
    loop unpack (size + 1) map index = loop unpack size (assign map key value) index'' := by
  rw [loop, hkey, Option.bind_eq_bind, Option.bind_some]
  show (unpack index').bind _ = _
  rw [hvalue, Option.bind_some]

end

/-- A new property. -/
theorem assign_new {map : List (Key × Value)} {key : Key} (hproto : key ≠ Property.proto)
    (hnew : key ∉ map.map (·.1)) (value : Value) :
    assign map key value = map ++ [(key, value)] := by
  rw [assign, if_neg hproto, if_neg fun hhas => hnew (has_iff.1 hhas)]

mutual
/-- A value that is intact is packed, and read again. -/
theorem reads_pack : ∀ (v : Value), v.Valid → v.Intact →
    ∃ bytes, pack v = some bytes ∧ Reads unpackAt bytes v.received
  | .undefined, _, _ => ⟨_, by rw [pack], reads_single fun _ _ _ => rfl⟩
  | .null, _, _ => ⟨_, by rw [pack], reads_single fun _ _ _ => rfl⟩
  | .bool true, _, _ => ⟨_, by rw [pack], reads_single fun _ _ _ => rfl⟩
  | .bool false, _, _ => ⟨_, by rw [pack], reads_single fun _ _ _ => rfl⟩
  | .number n, hvalid, hintact => by
    rw [pack]
    exact reads_packInteger hvalid hintact
  | .string s, _, hintact => by
    rw [pack]
    exact reads_packString hintact
  | .blob bytes, _, hintact => by
    rw [pack]
    exact reads_packBin hintact
  | .buffer bytes, _, hintact => by
    rw [pack, packUint8Array, if_neg hintact.1]
    exact reads_packBin hintact.2
  | .array values, hvalid, hintact => by
    obtain ⟨hlen, hall⟩ := hintact
    obtain ⟨size, hsize⟩ := packLength_isSome 0x90 0xdc 0xdd hlen
    obtain ⟨bytes, hpack, hreads⟩ := reads_packElements values hvalid hall
    refine ⟨size ++ bytes, by rw [pack, hsize, hpack]; rfl, ?_⟩
    refine Reads.of_size (fun data index depth hat hdepth => ?_) (packLength_some hsize).1
      fun data index depth hat => unpackAt_array hsize hat
    have hvalues := hreads data index depth hat hdepth
    dsimp only at hvalues ⊢
    rw [unpackArray, hvalues]
    rfl
  | .object fields, hvalid, hintact => by
    obtain ⟨hlen, hall⟩ := hintact
    obtain ⟨size, hsize⟩ := packLength_isSome 0x80 0xde 0xdf hlen
    obtain ⟨bytes, hpack, hreads⟩ := reads_packFields fields hvalid.2.2 hall hvalid.1
    refine ⟨size ++ bytes, by rw [pack_object hall.not_asked, hsize, hpack]; rfl, ?_⟩
    refine Reads.of_size (fun data index depth hat hdepth => ?_) (packLength_some hsize).1
      fun data index depth hat => unpackAt_map hsize hat
    have hfields := hreads [] (fun _ _ h => absurd h List.not_mem_nil) data index depth hat hdepth
    dsimp only at hfields ⊢
    rw [unpackMap, hfields]
    rfl

theorem reads_packElements : ∀ (values : List Value), Value.ValidAll values →
    Value.IntactAll values → ∃ bytes, packElements values = some bytes ∧
      Reads (fun data depth => unpackArray.loop (unpackAt data depth) values.length) bytes
        (Value.receivedAll values)
  | [], _, _ => ⟨[], by rw [packElements], fun _ _ _ _ _ => rfl⟩
  | value :: values, hvalid, hintact => by
    obtain ⟨first, hfirst, hreads⟩ := reads_pack value hvalid.1 hintact.1
    obtain ⟨rest, hrest, hreadsAll⟩ := reads_packElements values hvalid.2 hintact.2
    refine ⟨first ++ rest, by rw [packElements, hfirst, hrest]; rfl, ?_⟩
    intro data index depth hat hdepth
    rw [List.length_append] at hdepth
    have hvalue := hreads data index depth hat.left (by omega)
    have hvalues := hreadsAll data _ depth hat.right (by omega)
    dsimp only at hvalues ⊢
    rw [List.length_cons, unpackArray.loop_succ hvalue, hvalues, List.length_append, Nat.add_assoc]
    rfl

theorem reads_packFields : ∀ (fields : List (Key × Value)), Value.ValidFields fields →
    Value.IntactFields fields → (fields.map (·.1)).Nodup → ∃ bytes, packFields fields = some bytes ∧
      ∀ map : List (Key × Value), (∀ key ∈ fields.map (·.1), key ∉ map.map (·.1)) →
        Reads (fun data depth => unpackMap.loop (unpackAt data depth) fields.length map) bytes
          (map ++ Value.receivedFields fields)
  | [], _, _, _ => ⟨[], by rw [packFields], fun map _ _ _ _ _ _ => by
      rw [Value.receivedFields, List.append_nil]
      rfl⟩
  | (key, value) :: fields, hvalid, hintact, hnodup => by
    obtain ⟨⟨hspecial, hkey⟩, hvalue, hfields⟩ := hintact
    have hproto : key ≠ Property.proto := List.ne_of_not_mem_cons hspecial
    obtain ⟨hnotMem, hnodup⟩ := List.nodup_cons.1 hnodup
    obtain ⟨name, hname, hreadsKey⟩ := reads_packString hkey
    obtain ⟨first, hfirst, hreads⟩ := reads_pack value hvalid.1 hvalue
    obtain ⟨rest, hrest, hreadsAll⟩ := reads_packFields fields hvalid.2 hfields hnodup
    refine ⟨name ++ first ++ rest, by rw [packFields, hname, hfirst, hrest]; rfl, ?_⟩
    intro map hnew data index depth hat hdepth
    rw [List.length_append, List.length_append] at hdepth
    have hk := hreadsKey data index depth hat.left.left (by omega)
    have hv := hreads data _ depth hat.left.right (by omega)
    have hat' := hat.right
    rw [List.length_append, ← Nat.add_assoc] at hat'
    have hassign := assign_new hproto (hnew key List.mem_cons_self) value.received
    have hrest' := hreadsAll (map ++ [(key, value.received)]) (fun k hk hmem => ?_) data _ depth
      hat' (by omega)
    · dsimp only at hrest' ⊢
      rw [List.length_cons, unpackMap.loop_succ hk hv, hassign, hrest', List.append_assoc,
        List.length_append, List.length_append]
      simp only [Nat.add_assoc]
      rfl
    · rw [List.map_append, List.mem_append] at hmem
      rcases hmem with hmem | hmem
      · exact hnew k (List.mem_cons_of_mem _ hk) hmem
      · rw [List.mem_singleton.1 hmem] at hk
        exact hnotMem hk
end

/-! ## What is read otherwise -/

section
variable {unpack : Nat → Option (Value × Nat)} {size index i : Nat} {key : Key} {value : Value}
variable {map result : List (Key × Value)}

/-- An array that has been read begins with an element that has. -/
theorem exists_of_unpackArray {values : List Value}
    (h : unpackArray.loop unpack (size + 1) index = some (values, i)) :
    ∃ value index' rest, unpack index = some (value, index') ∧
      unpackArray.loop unpack size index' = some (rest, i) ∧ values = value :: rest := by
  rw [unpackArray.loop] at h
  obtain ⟨⟨value, index'⟩, hvalue, h⟩ := Option.bind_eq_some_iff.1 h
  obtain ⟨⟨rest, i'⟩, hrest, h⟩ := Option.bind_eq_some_iff.1 h
  cases h
  exact ⟨value, index', rest, hvalue, hrest, rfl⟩

/-- An object that has been read begins with a property that has. -/
theorem exists_of_unpackMap (h : unpackMap.loop unpack (size + 1) map index = some (result, i)) :
    ∃ key value index' index'', unpack index = some (.string key, index') ∧
      unpack index' = some (value, index'') ∧
      unpackMap.loop unpack size (assign map key value) index'' = some (result, i) := by
  rw [unpackMap.loop] at h
  obtain ⟨⟨key, index'⟩, hkey, h⟩ := Option.bind_eq_some_iff.1 h
  obtain ⟨⟨value, index''⟩, hvalue, h⟩ := Option.bind_eq_some_iff.1 h
  dsimp only at h
  split at h
  · next key _ => exact ⟨key, value, index', index'', hkey, hvalue, h⟩
  · cases h

/-- A property is new, or there are no more than before. -/
theorem assign_cases (map : List (Key × Value)) (key : Key) (value : Value) :
    (assign map key value).length = map.length ∨
      key ≠ Property.proto ∧ assign map key value = map ++ [(key, value)] := by
  unfold assign
  split
  · exact .inl rfl
  · next hproto =>
    split
    · exact .inl (List.length_map _)
    · exact .inr ⟨hproto, rfl⟩

/-- An object has as many properties as have been read, if all of them are new. -/
theorem length_unpackMap (h : unpackMap.loop unpack size map index = some (result, i)) :
    result.length ≤ map.length + size ∧ (result.length = map.length + size → map <+: result) := by
  induction size generalizing map index with
  | zero =>
    cases h
    exact ⟨le_refl _, fun _ => List.prefix_rfl⟩
  | succ size ih =>
    obtain ⟨key, value, index', index'', -, -, h⟩ := exists_of_unpackMap h
    obtain ⟨hle, hbegins⟩ := ih h
    rcases assign_cases map key value with hlen | ⟨-, hassign⟩
    · exact ⟨by omega, fun heq => by omega⟩
    · rw [hassign] at hle hbegins
      rw [List.length_append, List.length_singleton] at hle hbegins
      exact ⟨by omega, fun heq => (List.prefix_append map _).trans (hbegins (by omega))⟩

/-- An object has as many properties at the other end. -/
theorem length_receivedFields (fields : List (Key × Value)) :
    (Value.receivedFields fields).length = fields.length := by
  induction fields with
  | nil => rw [Value.receivedFields]
  | cons field fields ih => rw [Value.receivedFields, List.length_cons, List.length_cons, ih]

end

section
variable {data bytes : List UInt8} {index depth i : Nat}

/-- A string that is read as it should be is intact. -/
theorem intactString_of_unpackAt {s : List UInt16} (hpack : packString s = some bytes)
    (hat : At data index bytes) (hdepth : bytes.length ≤ depth)
    (hread : unpackAt data depth index = some (.string s, i)) : IntactString s := by
  have hpos := packString_length hpack
  obtain ⟨depth, rfl⟩ := Nat.exists_eq_succ_of_ne_zero (n := depth) (by omega)
  have hs := clean_of_unpackAt hpack hat hread
  obtain ⟨size, hsize, -⟩ := packString_some hpack
  exact ⟨hs, (utf8Length_clean hs).symm.trans_le (packLength_some hsize).2⟩

/-- An object that is read as one has been packed as one. -/
theorem not_asked_of_unpackAt {fields fields' : List (Key × Value)}
    (hpack : pack (.object fields) = some bytes) (hat : At data index bytes)
    (hdepth : bytes.length ≤ depth)
    (hread : unpackAt data depth index = some (.object fields', i)) :
    ∀ key ∈ fields.map (·.1), key ∉ asked := by
  rw [pack] at hpack
  split at hpack
  · -- A buffer has been packed.
    obtain ⟨blob, -, hpack⟩ := Option.bind_eq_some_iff.1 hpack
    obtain ⟨size, -, hsize, rfl⟩ := packUint8Array_some hpack
    have hpos := (packLength_some hsize).1
    rw [List.length_append] at hdepth
    obtain ⟨depth, rfl⟩ := Nat.exists_eq_succ_of_ne_zero (n := depth) (by omega)
    rw [unpackAt_raw hsize hat.left, unpackRaw] at hread
    split at hread
    · cases hread
    · cases hread
  split at hpack
  · cases hpack
  · next hbytes hother =>
    rw [Bool.or_eq_true, has_iff, has_iff, not_or] at hother
    rw [has_iff] at hbytes
    intro key hkey hasked
    simp only [asked, List.mem_cons, List.not_mem_nil, or_false] at hasked
    rcases hasked with rfl | rfl | rfl
    · exact hother.1 hkey
    · exact hbytes hkey
    · exact hother.2 hkey

mutual
/-- A value that is read as it should be is intact. -/
theorem intact_of_unpackAt : ∀ (v : Value), v.Valid → ∀ {bytes : List UInt8} {index depth i : Nat},
    pack v = some bytes → At data index bytes → bytes.length ≤ depth →
    unpackAt data depth index = some (v.received, i) → v.Intact
  | .undefined, _, _, _, _, _, _, _, _, _ => trivial
  | .null, _, _, _, _, _, _, _, _, _ => trivial
  | .bool _, _, _, _, _, _, _, _, _, _ => trivial
  | .number n, hvalid, _, _, depth, _, hpack, hat, hdepth, hread => by
    rw [pack] at hpack
    have hpos := packInteger_length hpack
    obtain ⟨depth, rfl⟩ := Nat.exists_eq_succ_of_ne_zero (n := depth) (by omega)
    obtain ⟨m, hm, hiff⟩ := unpackAt_number hvalid hpack hat
    rw [hm] at hread
    injection hread with hread
    injection hread with hvalue
    injection hvalue with hn
    exact hiff.1 hn
  | .string s, _, _, _, _, _, hpack, hat, hdepth, hread => by
    rw [pack] at hpack
    exact intactString_of_unpackAt hpack hat hdepth hread
  | .blob bytes, _, _, _, _, _, hpack, _, _, _ => by
    rw [pack] at hpack
    obtain ⟨n, size, hn, hsize, -⟩ := packBin_some hpack
    cases hn
    exact (packLength_some hsize).2
  | .buffer bytes, _, _, _, _, _, hpack, _, _, _ => by
    rw [pack] at hpack
    obtain ⟨size, hne, hsize, -⟩ := packUint8Array_some hpack
    exact ⟨hne, (packLength_some hsize).2⟩
  | .array values, hvalid, _, _, depth, _, hpack, hat, hdepth, hread => by
    rw [pack] at hpack
    obtain ⟨size, hsize, hpack⟩ := Option.bind_eq_some_iff.1 hpack
    obtain ⟨elements, helements, hpack⟩ := Option.bind_eq_some_iff.1 hpack
    cases hpack
    rw [List.length_append] at hdepth
    have hpos := (packLength_some hsize).1
    obtain ⟨depth, rfl⟩ := Nat.exists_eq_succ_of_ne_zero (n := depth) (by omega)
    rw [unpackAt_array hsize hat.left, unpackArray] at hread
    obtain ⟨⟨values', i'⟩, hloop, heq⟩ := Option.map_eq_some_iff.1 hread
    injection heq with hvalue
    injection hvalue with hvalues
    rw [hvalues] at hloop
    exact ⟨(packLength_some hsize).2,
      intactAll_of_unpackArray values hvalid helements hat.right (by omega) hloop⟩
  | .object fields, hvalid, _, _, depth, _, hpack, hat, hdepth, hread => by
    have hasked := not_asked_of_unpackAt hpack hat hdepth hread
    rw [pack_object hasked] at hpack
    obtain ⟨size, hsize, hpack⟩ := Option.bind_eq_some_iff.1 hpack
    obtain ⟨properties, hproperties, rfl⟩ := Option.map_eq_some_iff.1 hpack
    rw [List.length_append] at hdepth
    have hpos := (packLength_some hsize).1
    obtain ⟨depth, rfl⟩ := Nat.exists_eq_succ_of_ne_zero (n := depth) (by omega)
    rw [unpackAt_map hsize hat.left, unpackMap] at hread
    obtain ⟨⟨fields', i'⟩, hloop, heq⟩ := Option.map_eq_some_iff.1 hread
    injection heq with hvalue
    injection hvalue with hfields
    rw [hfields] at hloop
    exact ⟨(packLength_some hsize).2,
      intactFields_of_unpackMap fields hvalid.2.2 hasked hproperties hat.right (by omega) hloop⟩

theorem intactAll_of_unpackArray : ∀ (values : List Value), Value.ValidAll values →
    ∀ {bytes : List UInt8} {index depth i : Nat}, packElements values = some bytes →
    At data index bytes → bytes.length ≤ depth →
    unpackArray.loop (unpackAt data depth) values.length index =
      some (Value.receivedAll values, i) → Value.IntactAll values
  | [], _, _, _, _, _, _, _, _, _ => trivial
  | value :: values, hvalid, _, _, depth, _, hpack, hat, hdepth, hread => by
    rw [packElements] at hpack
    obtain ⟨first, hfirst, hpack⟩ := Option.bind_eq_some_iff.1 hpack
    obtain ⟨rest, hrest, hpack⟩ := Option.bind_eq_some_iff.1 hpack
    cases hpack
    rw [List.length_append] at hdepth
    have hfirstDepth : first.length ≤ depth := by omega
    have hrestDepth : rest.length ≤ depth := by omega
    obtain ⟨value', index', values', hvalue, hvalues, heq⟩ := exists_of_unpackArray hread
    rw [Value.receivedAll] at heq
    injection heq with heq heqs
    rw [← heq] at hvalue
    rw [← heqs] at hvalues
    have hintact := intact_of_unpackAt value hvalid.1 hfirst hat.left hfirstDepth hvalue
    -- The value has been read to its end, where the others begin.
    obtain ⟨bytes, hbytes, hreads⟩ := reads_pack value hvalid.1 hintact
    cases hfirst.symm.trans hbytes
    cases hvalue.symm.trans (hreads _ _ _ hat.left hfirstDepth)
    exact ⟨hintact, intactAll_of_unpackArray values hvalid.2 hrest hat.right hrestDepth hvalues⟩

theorem intactFields_of_unpackMap : ∀ (fields : List (Key × Value)), Value.ValidFields fields →
    (∀ key ∈ fields.map (·.1), key ∉ asked) →
    ∀ {bytes : List UInt8} {index depth i : Nat} {map : List (Key × Value)},
    packFields fields = some bytes → At data index bytes → bytes.length ≤ depth →
    unpackMap.loop (unpackAt data depth) fields.length map index =
      some (map ++ Value.receivedFields fields, i) → Value.IntactFields fields
  | [], _, _, _, _, _, _, _, _, _, _, _ => trivial
  | (key, value) :: fields, hvalid, hasked, _, _, depth, _, map, hpack, hat, hdepth, hread => by
    rw [packFields] at hpack
    obtain ⟨name, hname, hpack⟩ := Option.bind_eq_some_iff.1 hpack
    obtain ⟨first, hfirst, hpack⟩ := Option.bind_eq_some_iff.1 hpack
    obtain ⟨rest, hrest, hpack⟩ := Option.bind_eq_some_iff.1 hpack
    cases hpack
    rw [List.length_append, List.length_append] at hdepth
    have hnameDepth : name.length ≤ depth := by omega
    have hfirstDepth : first.length ≤ depth := by omega
    have hrestDepth : rest.length ≤ depth := by omega
    obtain ⟨key', value', index', index'', hkey, hvalue, hfields⟩ := exists_of_unpackMap hread
    -- All properties are new, so that this one has been read as it should be.
    obtain ⟨hle, hbegins⟩ := length_unpackMap hfields
    rw [Value.receivedFields, List.length_append, List.length_cons, length_receivedFields] at hle
    rcases assign_cases map key' value' with hlen | ⟨hproto, hassign⟩
    · omega
    rw [hassign, Value.receivedFields] at hfields hbegins
    have hfield := hbegins (by
      rw [List.length_append, List.length_append, List.length_cons, length_receivedFields,
        List.length_singleton]
      omega)
    obtain ⟨more, hmore⟩ := hfield
    rw [List.append_assoc] at hmore
    have heq := List.append_cancel_left hmore
    injection heq with heq hfields'
    injection heq with hkey' hvalue'
    subst hkey' hvalue'
    have hintactKey := intactString_of_unpackAt hname hat.left.left hnameDepth hkey
    obtain ⟨bytes, hbytes, hreads⟩ := reads_packString hintactKey
    cases hname.symm.trans hbytes
    cases hkey.symm.trans (hreads _ _ _ hat.left.left hnameDepth)
    have hintact := intact_of_unpackAt value hvalid.1 hfirst hat.left.right hfirstDepth hvalue
    obtain ⟨bytes, hbytes, hreads⟩ := reads_pack value hvalid.1 hintact
    cases hfirst.symm.trans hbytes
    cases hvalue.symm.trans (hreads _ _ _ hat.left.right hfirstDepth)
    have hat' := hat.right
    rw [List.length_append, ← Nat.add_assoc] at hat'
    have hassoc := List.append_cons map (key', value.received) (Value.receivedFields fields)
    rw [hassoc] at hfields
    have hspecial : key' ∉ special :=
      List.not_mem_cons_of_ne_of_not_mem hproto (hasked key' List.mem_cons_self)
    exact ⟨⟨hspecial, hintactKey⟩, hintact,
      intactFields_of_unpackMap fields hvalid.2 (fun k hk => hasked k (List.mem_cons_of_mem _ hk))
        hrest hat' hrestDepth hfields⟩
end

end

/-- A value that is intact is packed and unpacked. -/
theorem exists_unpack {v : Value} (hvalid : v.Valid) (hintact : v.Intact) :
    ∃ bytes, pack v = some bytes ∧ unpack bytes = some v.received := by
  obtain ⟨bytes, hpack, hreads⟩ := reads_pack v hvalid hintact
  refine ⟨bytes, hpack, ?_⟩
  rw [unpack, hreads _ _ _ (at_self bytes) (Nat.le_succ _)]
  rfl

/-- A value arrives at the other end if and only if it is intact. -/
theorem pack_unpack (v : Value) (hvalid : v.Valid) :
    (pack v).bind unpack = some v.received ↔ v.Intact := by
  constructor
  · intro h
    obtain ⟨bytes, hpack, h⟩ := Option.bind_eq_some_iff.1 h
    obtain ⟨⟨value, i⟩, hread, rfl⟩ := Option.map_eq_some_iff.1 h
    exact intact_of_unpackAt v hvalid hpack (at_self bytes) (Nat.le_succ _) hread
  · intro hintact
    obtain ⟨bytes, hpack, hunpack⟩ := exists_unpack hvalid hintact
    rw [hpack, Option.bind_some, hunpack]

/-- A file and its size, as `sendFile` sends them. -/
theorem pack_unpack_file :
    (pack (.object [([102], .blob [1, 2]), ([110], .number 300)])).bind unpack =
      some (.object [([102], .buffer [1, 2]), ([110], .number 300)]) := by
  refine (pack_unpack (.object [([102], .blob [1, 2]), ([110], .number 300)]) ?_).2 ?_
  · have hkeys : has [([102], .blob [1, 2]), ([110], .number 300)] Property.bytesPerElement =
        false := rfl
    exact ⟨by decide, ⟨rfl, fun h => absurd h (by simp [hkeys])⟩, trivial,
      Number.round_eq (by decide), trivial⟩
  · have hfile : [102] ∉ special ∧ IntactString [102] := by decide
    have hsize : [110] ∉ special ∧ IntactString [110] := by decide
    have hnumber : IntactNumber 300 := by decide
    exact ⟨by decide, hfile, Nat.le_of_ble_eq_true rfl, hsize, hnumber, trivial⟩

end WebRtcNetty.Html.BinaryPack
