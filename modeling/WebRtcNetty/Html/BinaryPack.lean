import WebRtcNetty.Html.Protobuf.Utf8
import WebRtcNetty.Lib.Js.Number

/-!
# The format of the data channels

PeerJS packs what a page sends over a connection into bytes, and the page at the other end unpacks
them. `pack_unpack` says for which values the other page gets what has been sent.

The pages load `peer.min.js`. Where `peerjs.js`, a later version of the library, has the same
function, the reference is to its lines.

The numbers here are integers, without the negative zero. No page sends any other, so that what
reads a floating-point number is left out.
-/

namespace WebRtcNetty.Html.BinaryPack

open Js Protobuf

/-! ## Values -/

/-- The name of a property. -/
abbrev Key := List UInt16

/-- A value of a script. The fields of an object are in the order of their enumeration. -/
inductive Value where
  | undefined
  | null
  | bool (b : Bool)
  | number (n : Int)
  | string (s : List UInt16)
  | blob (bytes : List UInt8)
  | buffer (bytes : List UInt8)
  | array (values : List Value)
  | object (fields : List (Key × Value))

/-- An object has a property of its own. -/
def has (fields : List (Key × Value)) (key : Key) : Bool := fields.any (·.1 = key)

/-- The value of an own property. -/
def own (fields : List (Key × Value)) (key : Key) : Option Value :=
  (fields.find? (·.1 = key)).map (·.2)

namespace Property

/-! The properties that packing and unpacking ask for, as code units. -/

def proto : Key := [95, 95, 112, 114, 111, 116, 111, 95, 95]
def constructor : Key := [99, 111, 110, 115, 116, 114, 117, 99, 116, 111, 114]
def bytesPerElement : Key :=
  [66, 89, 84, 69, 83, 95, 80, 69, 82, 95, 69, 76, 69, 77, 69, 78, 84]
def buffer : Key := [98, 117, 102, 102, 101, 114]
def hasOwnProperty : Key := [104, 97, 115, 79, 119, 110, 80, 114, 111, 112, 101, 114, 116, 121]

end Property

/-! ## Packing -/

section
variable (num : Int)

/-- The bytes that numbers are appended as. -/
def bytesOf (nums : List (BitVec 32)) : List UInt8 := nums.map fun n => .ofNat n.toNat

/-- Reference: `pack_uint8` (`peerjs.js:635`). -/
def packUint8 : List UInt8 := bytesOf [.ofInt 32 num]

/-- Reference: `pack_uint16` (`peerjs.js:639`). -/
def packUint16 : List UInt8 :=
  let num := BitVec.ofInt 32 num
  bytesOf [num.sshiftRight 8, num &&& 0xff]

/-- Reference: `pack_uint32` (`peerjs.js:644`). -/
def packUint32 : List UInt8 :=
  let n := BitVec.ofInt 32 num &&& 0xffffffff
  bytesOf [(n &&& 0xff000000) >>> 24, (n &&& 0x00ff0000) >>> 16, (n &&& 0x0000ff00) >>> 8,
    n &&& 0x000000ff]

/-- The eight bytes of two operands. -/
def packHalves (high low : Int) : List UInt8 :=
  let high := BitVec.ofInt 32 high
  let low := BitVec.ofInt 32 low
  bytesOf [(high &&& 0xff000000) >>> 24, (high &&& 0x00ff0000) >>> 16, (high &&& 0x0000ff00) >>> 8,
    high &&& 0x000000ff, (low &&& 0xff000000) >>> 24, (low &&& 0x00ff0000) >>> 16,
    (low &&& 0x0000ff00) >>> 8, low &&& 0x000000ff]

/-- The bit operations drop the fraction of the upper half. Reference: `pack_uint64`
(`peerjs.js:652`). -/
def packUint64 : List UInt8 := packHalves (num.tdiv (2 ^ 32)) (num.tmod (2 ^ 32))

/-- Reference: `pack_int8` (`peerjs.js:665`). -/
def packInt8 : List UInt8 := bytesOf [BitVec.ofInt 32 num &&& 0xff]

/-- Reference: `pack_int16` (`peerjs.js:669`). -/
def packInt16 : List UInt8 :=
  let num := BitVec.ofInt 32 num
  bytesOf [(num &&& 0xff00).sshiftRight 8, num &&& 0xff]

/-- Reference: `pack_int32` (`peerjs.js:674`). -/
def packInt32 : List UInt8 :=
  let num := BitVec.ofInt 32 num
  bytesOf [(num >>> 24) &&& 0xff, (num &&& 0x00ff0000) >>> 16, (num &&& 0x0000ff00) >>> 8,
    num &&& 0x000000ff]

/-- Reference: `pack_int64` (`peerjs.js:681`). -/
def packInt64 : List UInt8 := packHalves (num.fdiv (2 ^ 32)) (num.tmod (2 ^ 32))

/-- Reference: `pack_integer` (`peerjs.js:569`), whose last bounds are the doubles of the literals
there. -/
def packInteger : Option (List UInt8) :=
  if -0x20 ≤ num ∧ num ≤ 0x7f then some (bytesOf [.ofInt 32 num &&& 0xff])
  else if 0x00 ≤ num ∧ num ≤ 0xff then some (0xcc :: packUint8 num)
  else if -0x80 ≤ num ∧ num ≤ 0x7f then some (0xd0 :: packInt8 num)
  else if 0x0000 ≤ num ∧ num ≤ 0xffff then some (0xcd :: packUint16 num)
  else if -0x8000 ≤ num ∧ num ≤ 0x7fff then some (0xd1 :: packInt16 num)
  else if 0x00000000 ≤ num ∧ num ≤ 0xffffffff then some (0xce :: packUint32 num)
  else if -0x80000000 ≤ num ∧ num ≤ 0x7fffffff then some (0xd2 :: packInt32 num)
  else if -2 ^ 63 ≤ num ∧ num ≤ 2 ^ 63 then some (0xd3 :: packInt64 num)
  else if 0 ≤ num ∧ num ≤ 2 ^ 64 then some (0xcf :: packUint64 num)
  else none

end

/-- A length, in the byte `short` or behind one of the two others. -/
def packLength (short : Nat) (tag16 tag32 : UInt8) (length : Nat) : Option (List UInt8) :=
  if length ≤ 0x0f then some (packUint8 (short + length))
  else if length ≤ 0xffff then some (tag16 :: packUint16 length)
  else if length ≤ 0xffffffff then some (tag32 :: packUint32 length)
  else none

/-- The unit is half a surrogate pair. -/
def isSurrogate (c : UInt16) : Bool := 0xD800 ≤ c && c < 0xE000

/-- `String.prototype.toWellFormed`, which replaces the halves of surrogate pairs that stand
alone. -/
def toWellFormed : List UInt16 → List UInt16
  | [] => []
  | [c] => [if isSurrogate c then 0xFFFD else c]
  | c :: c2 :: cs =>
    if Utf8.isPair c c2 then c :: c2 :: toWellFormed cs
    else (if isSurrogate c then 0xFFFD else c) :: toWellFormed (c2 :: cs)

/-- The bytes of `new Blob([str])`. -/
def blobOf (str : List UInt16) : List UInt8 := Utf8.write (toWellFormed str)

/-- The length of what `_utf8Replace` puts for a unit, and one for ASCII. Reference:
`_utf8Replace` (`peerjs.js:692`). -/
def utf8Replace (c : UInt16) : Nat := if c ≤ 0x7f then 1 else if c ≤ 0x7ff then 2 else 3

/-- Reference: `utf8Length` (`peerjs.js:702`). -/
def utf8Length (str : List UInt16) : Nat :=
  if str.length > 600 then (blobOf str).length else (str.map utf8Replace).sum

/-- Reference: `pack_string` (`peerjs.js:533`). -/
def packString (str : List UInt16) : Option (List UInt8) :=
  (packLength 0xb0 0xd8 0xd9 (utf8Length str)).map (· ++ blobOf str)

/-- Bytes of which the length may be undefined. Reference: `pack_bin` (`peerjs.js:516`). -/
def packBin (length : Option Nat) (bytes : List UInt8) : Option (List UInt8) :=
  (length.bind (packLength 0xa0 0xda 0xdb)).map (· ++ bytes)

/-- An array of bytes has no `size`, and its `length` counts unless it is zero. -/
def packUint8Array (bytes : List UInt8) : Option (List UInt8) :=
  packBin (if bytes.length = 0 then none else some bytes.length) bytes

/-- The bytes of `new Uint8Array(value)`, or `none` if it throws. What converts the content of a
string, an array or an object to numbers is left out. -/
def uint8Array : Value → Option (List UInt8)
  | .undefined | .null | .blob _ => some []
  | .bool b => some (if b then [0] else [])
  | .number n => if 0 ≤ n ∧ n < 2 ^ 53 then some (List.replicate n.toNat 0) else none
  | .buffer bytes => some bytes
  | .string _ | .array _ | .object _ => none

mutual
/-- What is appended for a value, or `none` if something throws. A blob has no `length`, so that its
`size` counts. An own `constructor` of an object is no function, and so none of the known ones, and
an own `hasOwnProperty` throws when it is called. That `==` finds a function equal to its text is
left out. Reference: `pack` (`peer.min.js`, where `peerjs.js:454` has more cases), `pack_array`
(`peerjs.js:550`) and `pack_object` (`peerjs.js:607`). -/
def pack : Value → Option (List UInt8)
  | .undefined => some [0xc0]
  | .null => some [0xc0]
  | .bool b => some [if b then 0xc3 else 0xc2]
  | .number n => packInteger n
  | .string s => packString s
  | .blob bytes => packBin (some bytes.length) bytes
  | .buffer bytes => packUint8Array bytes
  | .array values => do
    let size ← packLength 0x90 0xdc 0xdd values.length
    let elements ← packElements values
    return size ++ elements
  | .object fields =>
    if has fields Property.bytesPerElement then
      (uint8Array ((own fields Property.buffer).getD .undefined)).bind packUint8Array
    else if has fields Property.constructor || has fields Property.hasOwnProperty then none
    else do
      let size ← packLength 0x80 0xde 0xdf fields.length
      let properties ← packFields fields
      return size ++ properties

def packElements : List Value → Option (List UInt8)
  | [] => some []
  | value :: values => do
    let first ← pack value
    let rest ← packElements values
    return first ++ rest

def packFields : List (Key × Value) → Option (List UInt8)
  | [] => some []
  | (key, value) :: fields => do
    let name ← packString key
    let first ← pack value
    let rest ← packFields fields
    return name ++ first ++ rest
end

/-! ## Unpacking -/

section
variable (data : List UInt8)

/-- A byte and the next index. There is a zero behind the data. Reference: `unpack_uint8`
(`peerjs.js:295`). -/
def unpackUint8 (index : Nat) : Nat × Nat := ((data[index]?.getD 0).toNat, index + 1)

/-- Reference: `read` (`peerjs.js:437`). -/
def read (index length : Nat) : Option (List UInt8) :=
  if index + length ≤ data.length then some ((data.drop index).take length) else none

/-- The number of `length` bytes. Reference: `unpack_uint16` (`peerjs.js:301`) and `unpack_uint32`
(`peerjs.js:309`). -/
def unpackUint (length index : Nat) : Option (Nat × Nat) :=
  (read data index length).map fun bytes =>
    (bytes.foldl (fun n b => n * 256 + b.toNat) 0, index + length)

/-- Where the sums are rounded. Reference: `unpack_uint64` (`peerjs.js:320`). -/
def unpackUint64 (index : Nat) : Option (Int × Nat) :=
  (read data index 8).map fun bytes =>
    (bytes.foldl (fun n b => Number.round (n * 256 + b.toNat)) 0, index + 8)

/-- A number with a sign. Reference: `unpack_int8` (`peerjs.js:335`), `unpack_int16`
(`peerjs.js:340`), `unpack_int32` (`peerjs.js:345`) and `unpack_int64` (`peerjs.js:351`). -/
def signed (bits : Nat) (n : Int) : Int :=
  if n < 2 ^ (bits - 1) then n else Number.round (n - 2 ^ bits)

/-- Reference: `unpack_raw` (`peerjs.js:357`). -/
def unpackRaw (size index : Nat) : Option (Value × Nat) :=
  if data.length < index + size then none
  else some (.buffer ((data.drop index).take size), index + size)

/-- The loop of `unpack_string` from the bytes that are left. The first `skip` of them have been
read with the byte before them. -/
def unpackString.loop : List UInt8 → (skip : Nat) → List UInt16
  | [], _ => []
  | _ :: bs, skip + 1 => loop bs skip
  | c :: bs, 0 =>
    let c := c.toNat
    if c < 128 then .ofNat c :: loop bs 0
    else if c ^^^ 0xc0 < 32 then
      .ofNat ((c ^^^ 0xc0) <<< 6 ||| Utf8.byteAt bs 0 &&& 63) :: loop bs 1
    else
      .ofNat ((c &&& 15) <<< 12 ||| (Utf8.byteAt bs 0 &&& 63) <<< 6 ||| Utf8.byteAt bs 1 &&& 63) ::
        loop bs 2

/-- Reference: `unpack_string` (`peerjs.js:371`). -/
def unpackString (size index : Nat) : Option (Value × Nat) :=
  (read data index size).map fun bytes => (.string (unpackString.loop bytes 0), index + size)

/-- The loop of `unpack_array`, with what reads an element. -/
def unpackArray.loop (unpack : Nat → Option (Value × Nat)) : Nat → Nat → Option (List Value × Nat)
  | 0, index => some ([], index)
  | size + 1, index => do
    let (value, index) ← unpack index
    let (values, index) ← loop unpack size index
    return (value :: values, index)

/-- Reference: `unpack_array` (`peerjs.js:399`). -/
def unpackArray (unpack : Nat → Option (Value × Nat)) (size index : Nat) : Option (Value × Nat) :=
  (unpackArray.loop unpack size index).map fun (values, index) => (.array values, index)

/-- `map[key] = value`, which sets the prototype if the key is `__proto__`. -/
def assign (map : List (Key × Value)) (key : Key) (value : Value) : List (Key × Value) :=
  if key = Property.proto then map
  else if has map key then
    map.map fun field => if field.1 = key then (key, value) else field
  else map ++ [(key, value)]

/-- The loop of `unpack_map`, with what reads a key or a value. -/
def unpackMap.loop (unpack : Nat → Option (Value × Nat)) :
    Nat → List (Key × Value) → Nat → Option (List (Key × Value) × Nat)
  | 0, map, index => some (map, index)
  | size + 1, map, index => do
    let (key, index) ← unpack index
    let (value, index) ← unpack index
    match key with
    | .string key => loop unpack size (assign map key value) index
    | _ => none

/-- An object, whose keys are strings. Reference: `unpack_map` (`peerjs.js:407`). -/
def unpackMap (unpack : Nat → Option (Value × Nat)) (size index : Nat) : Option (Value × Nat) :=
  (unpackMap.loop unpack size [] index).map fun (fields, index) => (.object fields, index)

/-- The value of a type, with what reads the values inside it. -/
def unpackType (unpack : Nat → Option (Value × Nat)) (type index : Nat) : Option (Value × Nat) :=
  if type < 0x80 then some (.number type, index)
  else if type ^^^ 0xe0 < 0x20 then some (.number ((type ^^^ 0xe0 : Nat) - 0x20), index)
  else if type ^^^ 0xa0 ≤ 0x0f then unpackRaw data (type ^^^ 0xa0) index
  else if type ^^^ 0xb0 ≤ 0x0f then unpackString data (type ^^^ 0xb0) index
  else if type ^^^ 0x90 ≤ 0x0f then unpackArray unpack (type ^^^ 0x90) index
  else if type ^^^ 0x80 ≤ 0x0f then unpackMap unpack (type ^^^ 0x80) index
  else match type with
    | 0xc0 => some (.null, index)
    | 0xc1 => some (.undefined, index)
    | 0xc2 => some (.bool false, index)
    | 0xc3 => some (.bool true, index)
    | 0xca => none
    | 0xcb => none
    | 0xcc =>
      let (n, index) := unpackUint8 data index
      some (.number n, index)
    | 0xcd => (unpackUint data 2 index).map fun (n, index) => (.number n, index)
    | 0xce => (unpackUint data 4 index).map fun (n, index) => (.number n, index)
    | 0xcf => (unpackUint64 data index).map fun (n, index) => (.number n, index)
    | 0xd0 =>
      let (n, index) := unpackUint8 data index
      some (.number (signed 8 n), index)
    | 0xd1 => (unpackUint data 2 index).map fun (n, index) => (.number (signed 16 n), index)
    | 0xd2 => (unpackUint data 4 index).map fun (n, index) => (.number (signed 32 n), index)
    | 0xd3 => (unpackUint64 data index).map fun (n, index) => (.number (signed 64 n), index)
    | 0xd8 => (unpackUint data 2 index).bind fun (size, index) => unpackString data size index
    | 0xd9 => (unpackUint data 4 index).bind fun (size, index) => unpackString data size index
    | 0xda => (unpackUint data 2 index).bind fun (size, index) => unpackRaw data size index
    | 0xdb => (unpackUint data 4 index).bind fun (size, index) => unpackRaw data size index
    | 0xdc => (unpackUint data 2 index).bind fun (size, index) => unpackArray unpack size index
    | 0xdd => (unpackUint data 4 index).bind fun (size, index) => unpackArray unpack size index
    | 0xde => (unpackUint data 2 index).bind fun (size, index) => unpackMap unpack size index
    | 0xdf => (unpackUint data 4 index).bind fun (size, index) => unpackMap unpack size index
    | _ => some (.undefined, index)

/-- The value at an index, with the next index, or `none` if something throws. Values are at most
`depth` deep. Reference: `Unpacker.prototype.unpack` (`peerjs.js:213`). -/
def unpackAt : (depth index : Nat) → Option (Value × Nat)
  | 0, _ => none
  | depth + 1, index =>
    let (type, index) := unpackUint8 data index
    unpackType data (unpackAt depth) type index

/-- The bytes of a value are more than the value is deep. -/
def unpack : Option Value := (unpackAt data (data.length + 1) 0).map (·.1)

end

/-! ## Depth -/

/-- The results are the same, and no reading has gone back. -/
def Same {α : Type} (index : Nat) (r r' : Option (α × Nat)) : Prop :=
  r = r' ∧ ∀ p ∈ r, index ≤ p.2

section
variable {α β : Type} {data : List UInt8} {index i size : Nat}

theorem same_some (a : α) (h : index ≤ i) : Same index (some (a, i)) (some (a, i)) := by
  refine ⟨rfl, fun p hp => ?_⟩
  cases hp
  exact h

theorem Same.bind {r r' : Option (α × Nat)} {k k' : α × Nat → Option (β × Nat)}
    (h : Same index r r') (hk : ∀ p, index ≤ p.2 → Same index (k p) (k' p)) :
    Same index (r.bind k) (r'.bind k') := by
  obtain ⟨rfl, hle⟩ := h
  cases r with
  | none => exact ⟨rfl, fun p hp => absurd hp (Option.not_mem_none p)⟩
  | some p => exact hk p (hle p rfl)

theorem Same.map {r r' : Option (α × Nat)} {k : α × Nat → β × Nat} (h : Same index r r')
    (hk : ∀ p, (k p).2 = p.2) : Same index (r.map k) (r'.map k) := by
  rw [Option.map_eq_bind, Option.map_eq_bind]
  exact h.bind fun p hp => same_some _ (hp.trans_eq (hk p).symm)

theorem Same.of_le {r r' : Option (α × Nat)} (h : Same i r r') (hle : index ≤ i) :
    Same index r r' :=
  ⟨h.1, fun p hp => hle.trans (h.2 p hp)⟩

theorem same_read (index length : Nat) (k : List UInt8 → α) :
    Same index ((read data index length).map fun bytes => (k bytes, index + length))
      ((read data index length).map fun bytes => (k bytes, index + length)) := by
  refine ⟨rfl, fun p hp => ?_⟩
  obtain ⟨bytes, -, rfl⟩ := Option.map_eq_some_iff.1 hp
  exact Nat.le_add_right index length

theorem same_unpackUint (length index : Nat) :
    Same index (unpackUint data length index) (unpackUint data length index) :=
  same_read index length _

theorem same_unpackUint64 (index : Nat) :
    Same index (unpackUint64 data index) (unpackUint64 data index) :=
  same_read index 8 _

theorem same_unpackRaw (size index : Nat) :
    Same index (unpackRaw data size index) (unpackRaw data size index) := by
  refine ⟨rfl, fun p hp => ?_⟩
  unfold unpackRaw at hp
  split at hp
  · cases hp
  · cases hp
    exact Nat.le_add_right index size

variable {f g : Nat → Option (Value × Nat)}

theorem same_unpackArray (h : ∀ i, index ≤ i → Same i (f i) (g i)) (size : Nat) :
    Same index (unpackArray f size index) (unpackArray g size index) := by
  have hloop : Same index (unpackArray.loop f size index) (unpackArray.loop g size index) := by
    induction size generalizing index with
    | zero => exact same_some [] (le_refl _)
    | succ size ih =>
      rw [unpackArray.loop, unpackArray.loop]
      refine (h index (le_refl _)).bind fun ⟨value, i⟩ hi => Same.bind ?_ fun ⟨values, j⟩ hj => ?_
      · exact (ih fun j hj => h j (hi.trans hj)).of_le hi
      · exact same_some _ hj
  exact hloop.map fun _ => rfl

theorem same_unpackMap (h : ∀ i, index ≤ i → Same i (f i) (g i)) (size : Nat) :
    Same index (unpackMap f size index) (unpackMap g size index) := by
  have hloop (map : List (Key × Value)) :
      Same index (unpackMap.loop f size map index) (unpackMap.loop g size map index) := by
    induction size generalizing index map with
    | zero => exact same_some map (le_refl _)
    | succ size ih =>
      rw [unpackMap.loop, unpackMap.loop]
      refine (h index (le_refl _)).bind fun ⟨key, i⟩ hi =>
        Same.bind ((h i hi).of_le hi) fun ⟨value, j⟩ hj => ?_
      cases key with
      | string key => exact (ih (fun k hk => h k (hj.trans hk)) _).of_le hj
      | _ => exact ⟨rfl, fun p hp => absurd hp (Option.not_mem_none p)⟩
  exact (hloop []).map fun _ => rfl

/-- Only what is behind a type makes a difference to its value. -/
theorem same_unpackType (h : ∀ i, index ≤ i → Same i (f i) (g i)) (type : Nat) :
    Same index (unpackType data f type index) (unpackType data g type index) := by
  have hsize {k k' : Nat → Nat → Option (Value × Nat)} (length : Nat)
      (hk : ∀ size i, index ≤ i → Same i (k size i) (k' size i)) :
      Same index ((unpackUint data length index).bind fun (size, i) => k size i)
        ((unpackUint data length index).bind fun (size, i) => k' size i) :=
    (same_unpackUint length index).bind fun p hp => (hk p.1 p.2 hp).of_le hp
  unfold unpackType
  split_ifs
  · exact same_some _ (le_refl _)
  · exact same_some _ (le_refl _)
  · exact same_unpackRaw _ _
  · exact same_read _ _ _
  · exact same_unpackArray h _
  · exact same_unpackMap h _
  split
  case h_5 | h_6 => exact ⟨rfl, fun p hp => absurd hp (Option.not_mem_none p)⟩
  case h_7 | h_11 => exact same_some _ (Nat.le_succ _)
  case h_8 | h_9 | h_12 | h_13 => exact (same_unpackUint _ _).map fun _ => rfl
  case h_10 | h_14 => exact (same_unpackUint64 _).map fun _ => rfl
  case h_15 | h_16 => exact hsize _ fun size i _ => same_read _ _ _
  case h_17 | h_18 => exact hsize _ fun size i _ => same_unpackRaw _ _
  case h_19 | h_20 =>
    exact hsize _ fun size i hi => same_unpackArray (fun j hj => h j (hi.trans hj)) _
  case h_21 | h_22 =>
    exact hsize _ fun size i hi => same_unpackMap (fun j hj => h j (hi.trans hj)) _
  all_goals exact same_some _ (le_refl _)

/-- Behind the data there is a number, so that a greater depth makes no difference. -/
theorem same_unpackAt {depth depth' : Nat} (h : data.length - index < depth)
    (h' : data.length - index < depth') :
    Same index (unpackAt data depth index) (unpackAt data depth' index) := by
  induction depth generalizing depth' index with
  | zero => omega
  | succ depth ih =>
    obtain ⟨depth', rfl⟩ := Nat.exists_eq_succ_of_ne_zero (n := depth') (by omega)
    rcases Nat.lt_or_ge index data.length with hlt | hge
    · refine Same.of_le (same_unpackType (fun i hi => ?_) _) (Nat.le_succ index)
      have hi' : index + 1 ≤ i := hi
      exact ih (by omega) (by omega)
    · have hzero (depth : Nat) :
          unpackAt data (depth + 1) index = some (.number 0, index + 1) := by
        simp [unpackAt, unpackUint8, unpackType, hge]
      rw [hzero, hzero]
      exact same_some _ (Nat.le_succ index)

/-- The recursion of `unpack`, with a depth that is enough. -/
theorem unpackAt_eq {depth : Nat} (h : data.length - index < depth) :
    unpackAt data depth index =
      unpackType data (unpackAt data depth) (unpackUint8 data index).1 (unpackUint8 data index).2 :=
  (same_unpackAt h (Nat.lt_succ_of_lt h)).1

end

end WebRtcNetty.Html.BinaryPack
