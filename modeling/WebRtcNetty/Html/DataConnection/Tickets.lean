import WebRtcNetty.Html.DataConnection.Chunks

/-!
# Tickets

A page may send a value if it is intact, is not null and does not look like a chunk (`Sendable`). A
ticket is a value that it has sent, with the messages that the value is sent in.
-/

namespace WebRtcNetty.Html

open BinaryPack

namespace BinaryPack.Value

/-- A value is true at the other end if it is here. -/
theorem toBoolean_received (v : Value) : v.received.toBoolean = v.toBoolean := by
  cases v with
  | undefined => rfl
  | null => rfl
  | bool b => rfl
  | number n => rfl
  | string s => rfl
  | blob bytes => rfl
  | buffer bytes => rfl
  | array values => rfl
  | object fields => rfl

/-- A property is at the other end what it is here. -/
theorem property_received (key : Key) (v : Value) :
    (v.received.property key).map toBoolean = (v.property key).map toBoolean := by
  cases v with
  | undefined => rfl
  | null => rfl
  | bool b => rfl
  | number n => rfl
  | string s => rfl
  | blob bytes => rfl
  | buffer bytes => rfl
  | array values => rfl
  | object fields =>
    rw [received, property, property, Option.map_some, Option.map_some]
    refine congrArg some ?_
    induction fields with
    | nil => rfl
    | cons field fields ih =>
      obtain ⟨name, value⟩ := field
      rw [receivedFields, List.find?_cons, List.find?_cons]
      cases decide (name = key) with
      | true => exact toBoolean_received value
      | false => exact ih

end BinaryPack.Value

/-- A value that a page may send. It is not null and does not look like a chunk. -/
structure Sendable (v : Value) : Prop where
  valid : v.Valid
  intact : v.Intact
  plain : (v.property Property.peerData).map Value.toBoolean = some false
  small : ∀ blob, pack v = some blob → blob.length < 2 ^ 53

/-- The pages may send booleans. -/
theorem sendable_bool (b : Bool) : Sendable (.bool b) where
  valid := trivial
  intact := trivial
  plain := rfl
  small blob h := by
    cases h
    exact Nat.one_lt_two_pow (by decide)

/-! ## What has been sent -/

/-- A value that has been sent, its bytes, and the id of its chunks if it has been cut. -/
structure Ticket where
  value : Value
  bytes : List UInt8
  id : Option Nat

namespace Ticket

/-- The number of messages of a ticket. -/
def size (t : Ticket) : Nat := t.id.elim 1 fun _ => chunkCount t.bytes.length

/-- The messages of a ticket. -/
def part (t : Ticket) (i : Nat) : List UInt8 :=
  t.id.elim t.bytes fun id => (pack (peerData id i (slice t.bytes i) t.size)).getD []

/-- A ticket is well formed if its bytes are those of a value that may be sent, and if its id is one
that the connection has given to a value of more than one chunk. -/
structure Wf (t : Ticket) (dataCount : Nat) : Prop where
  sendable : Sendable t.value
  pack : pack t.value = some t.bytes
  id : ∀ id, t.id = some id → 0 < id ∧ id < 2 ^ 53 ∧ id < dataCount ∧ chunkedMTU < t.bytes.length

section
variable {t : Ticket} {dataCount id i : Nat}

/-- The ids that have been given out stay so. -/
theorem Wf.mono (h : t.Wf dataCount) {dataCount' : Nat} (hle : dataCount ≤ dataCount') :
    t.Wf dataCount' where
  sendable := h.sendable
  pack := h.pack
  id id hid := by
    obtain ⟨hpos, hsafe, hlt, hlen⟩ := h.id id hid
    exact ⟨hpos, hsafe, hlt.trans_le hle, hlen⟩

/-- The bytes of a ticket are read as its value. -/
theorem Wf.unpack (h : t.Wf dataCount) : unpack t.bytes = some t.value.received := by
  obtain ⟨bytes, hpack, hunpack⟩ := exists_unpack h.sendable.valid h.sendable.intact
  cases h.pack.symm.trans hpack
  exact hunpack

/-- A value that has not been cut is one message. -/
theorem size_of_none (hid : t.id = none) : t.size = 1 := by
  rw [size, hid]
  rfl

/-- A value that has been cut is one message for each chunk. -/
theorem size_of_some (hid : t.id = some id) : t.size = chunkCount t.bytes.length := by
  rw [size, hid]
  rfl

/-- The message of a value that has not been cut is its bytes. -/
theorem part_of_none (hid : t.id = none) (i : Nat) : t.part i = t.bytes := by
  rw [part, hid]
  rfl

/-- No value is sent without a message. -/
theorem Wf.size_pos (h : t.Wf dataCount) : 0 < t.size := by
  cases hid : t.id with
  | none =>
    rw [size_of_none hid]
    exact Nat.one_pos
  | some id =>
    rw [size_of_some hid, lt_chunkCount, Nat.zero_mul]
    exact (Nat.zero_le _).trans_lt (h.id id hid).2.2.2

/-- The messages of a value that has been cut are its chunks, and are read as these. -/
theorem Wf.part_of_some (h : t.Wf dataCount) (hid : t.id = some id) (hi : i < t.size) :
    BinaryPack.pack (peerData id i (slice t.bytes i) t.size) = some (t.part i) ∧
      BinaryPack.unpack (t.part i) = some (receivedChunk id i (slice t.bytes i) t.size) := by
  have hsize : t.size < 2 ^ 53 := by
    have hlen := h.sendable.small t.bytes h.pack
    rw [size_of_some hid]
    unfold chunkCount chunkedMTU
    omega
  have hslice : (slice t.bytes i).length ≤ chunkedMTU := List.length_take_le _ _
  obtain ⟨bytes, hpack, hunpack⟩ :=
    exists_unpack_peerData (h.id id hid).2.1 (hi.trans hsize) hsize hslice
  have hpart : t.part i = bytes := by
    rw [part, hid]
    exact congrArg (·.getD []) hpack
  rw [hpart]
  exact ⟨hpack, hunpack⟩

end

end Ticket

section
variable (tickets : List Ticket)

/-- The messages of a value, by its place. -/
def sizeAt (k : Nat) : Nat := tickets[k]?.elim 0 Ticket.size

/-- A message, by the place of its value and its own among the messages of that value. -/
def partAt (p : Nat × Nat) : List UInt8 := tickets[p.1]?.elim [] (·.part p.2)

/-- The bytes of a value, by its place. -/
def bytesAt (k : Nat) : List UInt8 := tickets[k]?.elim [] Ticket.bytes

/-- What a value is at the other end, by its place. -/
def receivedAt (k : Nat) : Value := tickets[k]?.elim .undefined (·.value.received)

end

section
variable {tickets : List Ticket} {t : Ticket} {k : Nat} {p : Nat × Nat}

/-- There are messages of values that have been sent only. -/
theorem lt_length_of_lt_sizeAt {i : Nat} (h : i < sizeAt tickets k) : k < tickets.length := by
  by_contra hge
  rw [sizeAt, List.getElem?_eq_none (Nat.le_of_not_lt hge)] at h
  exact Nat.not_lt_zero i h

/-- The messages at a place are those of its ticket. -/
theorem sizeAt_eq (h : tickets[k]? = some t) : sizeAt tickets k = t.size := by
  rw [sizeAt, h]
  rfl

/-- A message at a place is one of its ticket. -/
theorem partAt_eq (h : tickets[k]? = some t) (i : Nat) : partAt tickets (k, i) = t.part i := by
  rw [partAt, h]
  rfl

/-- A new ticket leaves those before it where they are. -/
theorem getElem?_append_ticket (h : k < tickets.length) :
    (tickets ++ [t])[k]? = tickets[k]? :=
  List.getElem?_append_left h

/-- A ticket has been there before, or is the new one. -/
theorem eq_of_append_ticket {t' : Ticket} (h : (tickets ++ [t])[k]? = some t') :
    tickets[k]? = some t' ∨ k = tickets.length ∧ t' = t := by
  rcases Nat.lt_or_ge k tickets.length with hlt | hge
  · exact .inl (getElem?_append_ticket hlt ▸ h)
  · rw [List.getElem?_append_right hge] at h
    obtain ⟨hk, rfl⟩ := List.getElem?_eq_some_iff.1 h
    rw [List.length_singleton] at hk
    exact .inr ⟨by omega, List.getElem_singleton hk⟩

/-- The values received, in the order in which they have been sent. -/
theorem map_receivedAt : (List.range tickets.length).map (receivedAt tickets) =
    (tickets.map Ticket.value).map Value.received := by
  refine List.ext_getElem (by simp) fun k hk hk' => ?_
  have hlt : k < tickets.length := by simpa using hk
  simp [receivedAt, hlt]

end

end WebRtcNetty.Html
