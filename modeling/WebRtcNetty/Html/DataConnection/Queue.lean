import WebRtcNetty.Html.DataConnection

/-!
# The queue of a connection

What the channel refuses waits in the buffer until the timer comes, and while something waits
everything else does too. So the channel and the buffer are one queue, with what has been lost
between them, and sending puts a message at its end (`sends_transmit`, `sends_sendChunks`).
-/

namespace WebRtcNetty.Html.DataConnection

open BinaryPack

/-- The messages on the channel, those that have been lost, and those that wait for it. -/
def queue (c : DataConnection) : List (List UInt8) := c.channel ++ c.lost ++ c.buffer

/-- Nothing waits unless the timer has been started, and while the transport is up nothing has been
lost and the channel is not closed. -/
def Flowing (c : DataConnection) : Prop :=
  (c.buffering = false → c.buffer = []) ∧ (c.up = true → c.lost = [] ∧ c.closed = false)

/-- Only the messages that are on the way to the other page differ. -/
structure Frame (c c' : DataConnection) : Prop where
  isOpen : c'.isOpen = c.isOpen
  dataCount : c'.dataCount = c.dataCount
  closed : c'.closed = c.closed
  up : c'.up = c.up
  chunkedData : c'.chunkedData = c.chunkedData
  reading : c'.reading = c.reading
  sent : c'.sent = c.sent
  emitted : c'.emitted = c.emitted

/-- The messages have come to the end of the queue, and the blobs to file readers. -/
structure Sends (c : DataConnection) (blobs messages : List (List UInt8)) (c' : DataConnection) :
    Prop extends Frame c c' where
  flowing : c'.Flowing
  queue : c'.queue = c.queue ++ messages
  encoding : c'.encoding = c.encoding ++ blobs

section
variable {c c' c'' : DataConnection} {blobs messages blobs' messages' : List (List UInt8)}

/-- What is on the way may be anything. -/
theorem frame_underway (c : DataConnection) (encoding buffer : List (List UInt8)) (buffering : Bool)
    (room : Nat) (channel lost : List (List UInt8)) :
    Frame c { c with encoding, buffer, buffering, room, channel, lost } :=
  ⟨rfl, rfl, rfl, rfl, rfl, rfl, rfl, rfl⟩

/-- A step that does nothing leaves all this as it is. -/
theorem Frame.refl (c : DataConnection) : Frame c c := frame_underway ..

/-- So do two steps that do. -/
theorem Frame.trans (h : Frame c c') (h' : Frame c' c'') : Frame c c'' where
  isOpen := h'.isOpen.trans h.isOpen
  dataCount := h'.dataCount.trans h.dataCount
  closed := h'.closed.trans h.closed
  up := h'.up.trans h.up
  chunkedData := h'.chunkedData.trans h.chunkedData
  reading := h'.reading.trans h.reading
  sent := h'.sent.trans h.sent
  emitted := h'.emitted.trans h.emitted

/-- To send nothing. -/
theorem sends_nil (hflow : c.Flowing) : c.Sends [] [] c where
  toFrame := .refl c
  flowing := hflow
  queue := (List.append_nil _).symm
  encoding := (List.append_nil _).symm

/-- To send one after the other. -/
theorem Sends.trans (h : c.Sends blobs messages c') (h' : c'.Sends blobs' messages' c'') :
    c.Sends (blobs ++ blobs') (messages ++ messages') c'' where
  toFrame := h.toFrame.trans h'.toFrame
  flowing := h'.flowing
  queue := by rw [h'.queue, h.queue, List.append_assoc]
  encoding := by rw [h'.encoding, h.encoding, List.append_assoc]

/-- What `put` leaves as it is. -/
theorem frame_put (c : DataConnection) (msg : List UInt8) : Frame c (c.put msg) := by
  unfold put
  split
  · exact frame_underway ..
  · exact frame_underway ..

/-- A message that the channel takes is not from the buffer. -/
@[simp]
theorem buffer_put (c : DataConnection) (msg : List UInt8) : (c.put msg).buffer = c.buffer := by
  unfold put
  split
  · rfl
  · rfl

/-- The timer is not started for it. -/
@[simp]
theorem buffering_put (c : DataConnection) (msg : List UInt8) :
    (c.put msg).buffering = c.buffering := by
  unfold put
  split
  · rfl
  · rfl

/-- No file reader has it. -/
@[simp]
theorem encoding_put (c : DataConnection) (msg : List UInt8) :
    (c.put msg).encoding = c.encoding := by
  unfold put
  split
  · rfl
  · rfl

/-- A message that the channel takes is on it, or it has been lost. -/
theorem channel_put (hup : c.up = true → c.lost = [] ∧ c.closed = false) (msg : List UInt8) :
    (c.put msg).channel ++ (c.put msg).lost = c.channel ++ c.lost ++ [msg] := by
  unfold put
  split
  · next h =>
    show c.channel ++ [msg] ++ c.lost = _
    rw [(hup h).1, List.append_nil, List.append_nil]
  · exact (List.append_assoc ..).symm

/-- A message is lost only when the transport has ended. -/
theorem up_put (hup : c.up = true → c.lost = [] ∧ c.closed = false) (msg : List UInt8) :
    (c.put msg).up = true → (c.put msg).lost = [] ∧ (c.put msg).closed = false := by
  unfold put
  split
  · exact hup
  · next hdown => exact fun hup => absurd hup hdown

/-- A message comes to the end of the queue. -/
theorem sends_bufferedSend (hflow : c.Flowing) (msg : List UInt8) :
    c.Sends [] [msg] (c.bufferedSend msg) := by
  unfold bufferedSend
  split
  · next hbuffering =>
    refine ⟨frame_underway .., ⟨fun h => ?_, hflow.2⟩, ?_, (List.append_nil _).symm⟩
    · exact absurd (hbuffering.symm.trans h) Bool.noConfusion
    · exact (List.append_assoc ..).symm
  · next hbuffering =>
    have hbuffer : c.buffer = [] := hflow.1 (Bool.eq_false_iff.2 hbuffering)
    split
    · refine ⟨frame_underway .., ⟨fun h => (nomatch h), hflow.2⟩, ?_, (List.append_nil _).symm⟩
      exact (List.append_assoc ..).symm
    · refine ⟨frame_put c msg, ⟨fun _ => ?_, up_put hflow.2 msg⟩, ?_, ?_⟩
      · rw [buffer_put, hbuffer]
      · rw [queue, queue, channel_put hflow.2, buffer_put, hbuffer, List.append_nil,
          List.append_nil]
      · rw [encoding_put, List.append_nil]

/-- What the timer leaves as it is. -/
theorem frame_tryBuffer (c : DataConnection) : Frame c c.tryBuffer := by
  have hloop : ∀ (buffer : List (List UInt8)) (c : DataConnection),
      Frame c (tryBuffer.loop buffer c) := by
    intro buffer
    induction buffer with
    | nil => exact fun c => frame_underway ..
    | cons msg buffer ih =>
      intro c
      unfold tryBuffer.loop
      split
      · exact frame_underway ..
      · exact (frame_put c msg).trans (ih (c.put msg))
  exact hloop c.buffer c

/-- The buffer is emptied into the channel, as far as there is room. -/
theorem sends_tryBuffer (hup : c.up = true → c.lost = [] ∧ c.closed = false)
    (hbuffering : c.buffering = false) : c.Sends [] [] c.tryBuffer := by
  have hloop : ∀ (buffer : List (List UInt8)) (c : DataConnection),
      (c.up = true → c.lost = [] ∧ c.closed = false) → c.buffering = false →
      (tryBuffer.loop buffer c).Flowing ∧
        (tryBuffer.loop buffer c).queue = c.channel ++ c.lost ++ buffer ∧
        (tryBuffer.loop buffer c).encoding = c.encoding := by
    intro buffer
    induction buffer with
    | nil => exact fun c hup _ => ⟨⟨fun _ => rfl, hup⟩, rfl, rfl⟩
    | cons msg buffer ih =>
      intro c hup hbuffering
      unfold tryBuffer.loop
      split
      · exact ⟨⟨fun h => (nomatch h), hup⟩, rfl, rfl⟩
      · obtain ⟨hflow, hqueue, hencoding⟩ :=
          ih (c.put msg) (up_put hup msg) ((buffering_put c msg).trans hbuffering)
        refine ⟨hflow, ?_, hencoding.trans (encoding_put c msg)⟩
        rw [hqueue, channel_put hup, List.append_assoc _ [msg]]
        rfl
  obtain ⟨hflow, hqueue, hencoding⟩ := hloop c.buffer c hup hbuffering
  exact ⟨frame_tryBuffer c, hflow, hqueue.trans (List.append_nil _).symm,
    hencoding.trans (List.append_nil _).symm⟩

end

/-- A message changes only what the other page has. -/
theorem handleDataMessage_eq (c : DataConnection) (bytes : List UInt8) :
    ∃ chunkedData reading emitted,
      c.handleDataMessage bytes = { c with chunkedData, reading, emitted } := by
  have hchunk (data : Value) : ∃ chunkedData reading emitted,
      c.handleChunk data = { c with chunkedData, reading, emitted } := by
    unfold handleChunk
    split
    · exact ⟨_, _, _, rfl⟩
    · exact ⟨_, _, _, rfl⟩
  unfold handleDataMessage
  split
  · exact ⟨_, _, _, rfl⟩
  split
  · exact ⟨_, _, _, rfl⟩
  split
  · exact hchunk _
  · exact ⟨_, _, _, rfl⟩

section
variable (browsers : Browsers) {c : DataConnection}

/-- Where `transmit` puts its blobs: to the file readers, and to the queue. -/
def blobsOf {α : Type} (blobs : List α) : List α := if browsers.binaryBlob then [] else blobs

/-- The blobs that go to the queue at once. -/
def messagesOf {α : Type} (blobs : List α) : List α := if browsers.binaryBlob then blobs else []

/-- Blobs that are sent one after the other go to the file readers so. -/
theorem blobsOf_append {α : Type} (blobs blobs' : List α) :
    blobsOf browsers (blobs ++ blobs') = blobsOf browsers blobs ++ blobsOf browsers blobs' := by
  unfold blobsOf
  split
  · rfl
  · rfl

/-- And to the queue. -/
theorem messagesOf_append {α : Type} (blobs blobs' : List α) :
    messagesOf browsers (blobs ++ blobs') =
      messagesOf browsers blobs ++ messagesOf browsers blobs' := by
  unfold messagesOf
  split
  · rfl
  · rfl

/-- Where blobs go does not depend on what they are. -/
theorem blobsOf_map {α β : Type} (f : α → β) (blobs : List α) :
    blobsOf browsers (blobs.map f) = (blobsOf browsers blobs).map f := by
  unfold blobsOf
  split
  · rfl
  · rfl

/-- It does not for those that go to the queue at once, either. -/
theorem messagesOf_map {α β : Type} (f : α → β) (blobs : List α) :
    messagesOf browsers (blobs.map f) = (messagesOf browsers blobs).map f := by
  unfold messagesOf
  split
  · rfl
  · rfl

/-- A blob is in one of the two places. -/
theorem blobsOf_append_messagesOf {α : Type} (blobs : List α) :
    blobsOf browsers blobs ++ messagesOf browsers blobs = blobs := by
  unfold blobsOf messagesOf
  split
  · rfl
  · exact List.append_nil blobs

/-- A blob comes to a file reader, or to the end of the queue. -/
theorem sends_transmit (hflow : c.Flowing) (blob : List UInt8) :
    c.Sends (blobsOf browsers [blob]) (messagesOf browsers [blob]) (c.transmit browsers blob) := by
  unfold transmit blobsOf messagesOf
  split
  · exact sends_bufferedSend hflow blob
  · exact ⟨frame_underway .., hflow, (List.append_nil _).symm, rfl⟩

/-- Chunks that are packed are transmitted in their order. -/
theorem sends_sendChunks {chunks : List Value} {blobs : List (List UInt8)} (hflow : c.Flowing)
    (hpack : chunks.map pack = blobs.map some) :
    c.Sends (blobsOf browsers blobs) (messagesOf browsers blobs)
      (sendChunks browsers chunks c) := by
  induction chunks generalizing c blobs with
  | nil =>
    have hnil : blobs = [] := List.map_eq_nil_iff.1 hpack.symm
    have hblobs : blobsOf browsers ([] : List (List UInt8)) = [] := ite_self _
    have hmessages : messagesOf browsers ([] : List (List UInt8)) = [] := ite_self _
    rw [hnil, hblobs, hmessages]
    exact sends_nil hflow
  | cons chunk chunks ih =>
    cases blobs with
    | nil => cases hpack
    | cons blob blobs =>
      rw [List.map_cons, List.map_cons] at hpack
      injection hpack with hblob hpack
      have hfirst := sends_transmit browsers hflow blob
      have hrest := hfirst.trans (ih hfirst.flowing hpack)
      rw [← blobsOf_append, ← messagesOf_append] at hrest
      rw [sendChunks, hblob]
      exact hrest

/-- What `_bufferedSend` leaves as it is. -/
theorem frame_bufferedSend (c : DataConnection) (msg : List UInt8) :
    Frame c (c.bufferedSend msg) := by
  unfold bufferedSend
  split_ifs
  · exact frame_underway ..
  · exact frame_underway ..
  · exact frame_put c msg

/-- What the transmission of a blob leaves as it is. -/
theorem frame_transmit (c : DataConnection) (blob : List UInt8) :
    Frame c (c.transmit browsers blob) := by
  unfold transmit
  split
  · exact frame_bufferedSend c blob
  · exact frame_underway ..

/-- What `_sendChunks` leaves as it is, whether the chunks can be packed or not. -/
theorem frame_sendChunks (chunks : List Value) (c : DataConnection) :
    Frame c (sendChunks browsers chunks c) := by
  induction chunks generalizing c with
  | nil => exact .refl c
  | cons chunk chunks ih =>
    rw [sendChunks]
    cases pack chunk with
    | none => exact .refl c
    | some blob => exact (frame_transmit browsers c blob).trans (ih _)

/-- The queue flows when a blob is transmitted. -/
theorem flowing_transmit (hflow : c.Flowing) (blob : List UInt8) :
    (c.transmit browsers blob).Flowing :=
  (sends_transmit browsers hflow blob).flowing

/-- It does when chunks are. -/
theorem flowing_sendChunks (hflow : c.Flowing) (chunks : List Value) :
    (sendChunks browsers chunks c).Flowing := by
  induction chunks generalizing c with
  | nil => exact hflow
  | cons chunk chunks ih =>
    rw [sendChunks]
    cases pack chunk with
    | none => exact hflow
    | some blob => exact ih (flowing_transmit browsers hflow blob)

/-- When the transport ends, messages are lost from the middle of the queue. -/
theorem sends_lose (hflow : c.Flowing) (first : Nat) :
    (c.lose first).Flowing ∧ (c.lose first).queue = c.queue := by
  refine ⟨⟨hflow.1, fun hup => (nomatch hup)⟩, ?_⟩
  show c.channel.take first ++ (c.channel.drop first ++ c.lost) ++ c.buffer = c.queue
  rw [← List.append_assoc (c.channel.take first), List.take_append_drop]
  rfl

/-- A page closes a connection that is open. -/
theorem close_cases (c : DataConnection) (first : Nat) : c.close first = c ∨
    c.close first = { c.lose first with isOpen := false, closed := true } := by
  unfold close
  split
  · exact .inr rfl
  · exact .inl rfl

/-- What `send` does: nothing, or it transmits the value in chunks or as a whole. -/
theorem send_cases (c : DataConnection) (v : Value) : c.send browsers v = c ∨
    ∃ blob, pack v = some blob ∧
      ((browsers.chunked && chunkedMTU < blob.length) = true ∧ c.send browsers v =
          sendChunks browsers (chunk c.dataCount blob)
            { c with sent := c.sent ++ [v], dataCount := c.dataCount + 1 } ∨
        (browsers.chunked && chunkedMTU < blob.length) = false ∧ c.send browsers v =
          { c with sent := c.sent ++ [v] }.transmit browsers blob) := by
  unfold send
  cases c.isOpen with
  | false => exact .inl rfl
  | true =>
    cases hpack : pack v with
    | none => exact .inl rfl
    | some blob =>
      refine .inr ⟨blob, rfl, ?_⟩
      dsimp only
      cases hchunked : browsers.chunked && decide (chunkedMTU < blob.length) with
      | true => exact .inl ⟨rfl, rfl⟩
      | false => exact .inr ⟨rfl, rfl⟩

end

end WebRtcNetty.Html.DataConnection
