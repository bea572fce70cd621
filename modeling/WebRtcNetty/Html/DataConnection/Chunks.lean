import WebRtcNetty.Html.BinaryPack.RoundTrip
import WebRtcNetty.Html.DataConnection

/-!
# Chunks

`util.chunk` cuts a blob into slices (`chunk_eq`), which make the blob again (`flatMap_slice`). The
message of a chunk is unpacked with its place and its slice (`exists_unpack_peerData`), and an array
that has all slices in their places makes the blob (`blob_eq`).
-/

namespace WebRtcNetty.Html

open Js BinaryPack

/-! ## Cutting -/

/-- The bytes of a chunk. -/
def slice (blob : List UInt8) (i : Nat) : List UInt8 := (blob.drop (i * chunkedMTU)).take chunkedMTU

section
variable (blob : List UInt8)

/-- There is a chunk for each place up to the end of the blob. -/
theorem lt_chunkCount {size i : Nat} : i < chunkCount size ↔ i * chunkedMTU < size := by
  unfold chunkCount chunkedMTU
  omega

/-- The loop makes the chunks from one on. -/
theorem chunk_loop_eq (id total : Nat) {i n : Nat} (hn : i + n = chunkCount blob.length) :
    chunk.loop blob id total (min blob.length (i * chunkedMTU)) i =
      (List.range' i n).map fun i => peerData id i (slice blob i) total := by
  induction n generalizing i with
  | zero =>
    have hle : ¬ i * chunkedMTU < blob.length := by
      rw [← lt_chunkCount]
      omega
    rw [chunk.loop, if_neg (by omega)]
    rfl
  | succ n ih =>
    have hlt : i * chunkedMTU < blob.length := by
      rw [← lt_chunkCount]
      omega
    have hstop : min blob.length (i * chunkedMTU + chunkedMTU) =
        min blob.length ((i + 1) * chunkedMTU) := by
      rw [Nat.succ_mul]
    have hslice : (blob.drop (i * chunkedMTU)).take
        (min blob.length ((i + 1) * chunkedMTU) - i * chunkedMTU) = slice blob i := by
      refine List.take_eq_take_iff.2 ?_
      rw [List.length_drop, Nat.succ_mul]
      omega
    have hih := ih (i := i + 1) (by omega)
    rw [chunk.loop, Nat.min_eq_right hlt.le, if_pos hlt]
    dsimp only
    rw [hstop, hslice, hih]
    rfl

/-- The chunks of a blob. -/
theorem chunk_eq (id : Nat) : chunk id blob = (List.range (chunkCount blob.length)).map fun i =>
    peerData id i (slice blob i) (chunkCount blob.length) := by
  have hloop := chunk_loop_eq blob id (chunkCount blob.length) (Nat.zero_add _)
  rw [Nat.zero_mul, Nat.min_zero] at hloop
  rw [chunk, hloop, List.range_eq_range']

/-- The slices make the blob. -/
theorem flatMap_slice : (List.range (chunkCount blob.length)).flatMap (slice blob) = blob := by
  have htake (n : Nat) : (List.range n).flatMap (slice blob) = blob.take (n * chunkedMTU) := by
    induction n with
    | zero => rw [Nat.zero_mul, List.take_zero, List.range_zero, List.flatMap_nil]
    | succ n ih =>
      rw [List.range_succ, List.flatMap_append, ih, List.flatMap_singleton, Nat.succ_mul,
        List.take_add, slice]
  have hall : ¬ chunkCount blob.length * chunkedMTU < blob.length := by
    rw [← lt_chunkCount]
    exact lt_irrefl _
  rw [htake, List.take_of_length_le (by omega)]

end

/-! ## The message of a chunk -/

section
variable {id n total : Nat} {data : List UInt8}

/-- Natural numbers arrive up to the safe integers. -/
theorem intactNumber_natCast (h : n < 2 ^ 53) :
    Number.round n = n ∧ IntactNumber (n : Int) := by
  refine ⟨Number.round_eq (by omega), ?_⟩
  unfold IntactNumber
  omega

/-- What a chunk is at the other end. -/
def receivedChunk (id n : Nat) (data : List UInt8) (total : Nat) : Value :=
  .object [(Property.peerData, .number id), (Property.n, .number n), (Property.data, .buffer data),
    (Property.total, .number total)]

/-- A chunk is packed, and read with its bytes in a buffer. -/
theorem exists_unpack_peerData (hid : id < 2 ^ 53) (hn : n < 2 ^ 53) (htotal : total < 2 ^ 53)
    (hdata : data.length ≤ chunkedMTU) : ∃ bytes, pack (peerData id n data total) = some bytes ∧
      unpack bytes = some (receivedChunk id n data total) := by
  have hid := intactNumber_natCast hid
  have hn := intactNumber_natCast hn
  have htotal := intactNumber_natCast htotal
  have hlen : data.length ≤ 0xffffffff := hdata.trans (by decide)
  have hkeys : [Property.peerData, Property.n, Property.data, Property.total].Nodup := by decide
  have hcount : 4 ≤ 0xffffffff := by decide
  refine exists_unpack (v := peerData id n data total) ?_ ?_
  · exact ⟨hkeys, ⟨rfl, fun h => nomatch h⟩, hid.1, hn.1, trivial, htotal.1, trivial⟩
  · exact ⟨hcount, ⟨by decide, by decide⟩, hid.2, ⟨by decide, by decide⟩, hn.2,
      ⟨by decide, by decide⟩, hlen, ⟨by decide, by decide⟩, htotal.2, trivial⟩

/-- A chunk that arrives is put into its place. -/
theorem handleChunk_received (c : DataConnection) : c.handleChunk (receivedChunk id n data total) =
    let info := (c.chunkedData id).getD ⟨[], 0, total⟩
    let info := { info with data := ChunkInfo.put info.data n data, count := info.count + 1 }
    { c with
      chunkedData := Function.update c.chunkedData id (some info)
      reading := if info.total = info.count then c.reading ++ [ChunkInfo.blob info.data]
        else c.reading } :=
  rfl

/-- A value that does not look like a chunk is emitted. -/
theorem DataConnection.handleDataMessage_plain {c : DataConnection} {bytes : List UInt8} {v : Value}
    (hunpack : unpack bytes = some v)
    (hplain : (v.property Property.peerData).map Value.toBoolean = some false) :
    c.handleDataMessage bytes = c.emit v := by
  obtain ⟨id, hid, hfalse⟩ := Option.map_eq_some_iff.1 hplain
  rw [handleDataMessage, hunpack]
  dsimp only
  rw [hid]
  dsimp only
  rw [if_neg (Bool.eq_false_iff.1 hfalse)]

/-- A message that is a chunk is put to the others of its value. -/
theorem DataConnection.handleDataMessage_chunk {c : DataConnection} {bytes : List UInt8}
    (hid : 0 < id) (hunpack : unpack bytes = some (receivedChunk id n data total)) :
    c.handleDataMessage bytes = c.handleChunk (receivedChunk id n data total) := by
  have htrue : (Value.number id).toBoolean = true := decide_eq_true (by omega)
  rw [handleDataMessage, hunpack]
  exact if_pos htrue

end

/-! ## Putting chunks together -/

section
variable {chunks : List (Option (List UInt8))} {n size : Nat} {bytes : List UInt8}

/-- The array of chunks grows up to the new one. -/
theorem length_put (chunks : List (Option (List UInt8))) (n : Nat) (bytes : List UInt8) :
    (ChunkInfo.put chunks n bytes).length = max chunks.length (n + 1) := by
  rw [ChunkInfo.put, List.length_set, List.length_append, List.length_replicate]
  omega

/-- The new chunk is at its place, and the others are where they have been. -/
theorem join_getElem?_put (chunks : List (Option (List UInt8))) (n : Nat) (bytes : List UInt8)
    (i : Nat) : (ChunkInfo.put chunks n bytes)[i]?.join =
      if i = n then some bytes else chunks[i]?.join := by
  rw [ChunkInfo.put, List.getElem?_set]
  rcases eq_or_ne i n with rfl | hne
  · rw [if_pos rfl, if_pos rfl, if_pos]
    · rfl
    · rw [List.length_append, List.length_replicate]
      omega
  · rw [if_neg hne.symm, if_neg hne]
    rcases Nat.lt_or_ge i chunks.length with hlt | hge
    · rw [List.getElem?_append_left hlt]
    · rw [List.getElem?_append_right hge, List.getElem?_eq_none hge, List.getElem?_replicate]
      split
      · rfl
      · rfl

/-- An array that has all slices of a blob, and no more. -/
theorem blob_eq (hlen : chunks.length ≤ chunkCount bytes.length)
    (h : ∀ i < chunkCount bytes.length, chunks[i]?.join = some (slice bytes i)) :
    ChunkInfo.blob chunks = bytes := by
  have hchunks : chunks = (List.range (chunkCount bytes.length)).map fun i =>
      some (slice bytes i) := by
    refine List.ext_getElem? fun i => ?_
    rw [List.getElem?_map]
    rcases Nat.lt_or_ge i (chunkCount bytes.length) with hlt | hge
    · have hi := h i hlt
      rw [List.getElem?_range hlt, Option.map_some]
      cases hget : chunks[i]? with
      | none =>
        rw [hget] at hi
        cases hi
      | some chunk =>
        rw [hget] at hi
        exact congrArg some hi
    · rw [List.getElem?_eq_none (hlen.trans hge), List.getElem?_eq_none (by simpa using hge)]
      rfl
  rw [ChunkInfo.blob, hchunks, List.flatMap_map]
  exact flatMap_slice bytes

end

end WebRtcNetty.Html
