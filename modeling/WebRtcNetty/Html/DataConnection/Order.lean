import WebRtcNetty.Html.DataConnection.Queue
import WebRtcNetty.Html.DataConnection.Tickets

/-!
# Order

Where the channel takes blobs and no value is cut into chunks, no file reader comes between the page
and the queue, and the values are emitted in the order in which they have been sent
(`run_inOrder`). Otherwise file readers may change the order (`reordered`).
-/

namespace WebRtcNetty.Html

open BinaryPack Runs

/-- The value is sent as a whole. -/
def Whole (browsers : Browsers) (v : Value) : Prop :=
  browsers.chunked = false ∨ ∀ blob, pack v = some blob → blob.length ≤ chunkedMTU

namespace DataConnection

section
variable {c c' : DataConnection} {browsers : Browsers} {waiting : List Value}

/-- The values in the queue are those that have been sent and not emitted. -/
structure InOrder (c : DataConnection) (waiting : List Value) : Prop where
  flowing : c.Flowing
  encoding : c.encoding = []
  reading : c.reading = []
  queue : c.queue.map some = waiting.map pack
  sendable : ∀ v ∈ waiting, Sendable v
  sent : c.sent.map Value.received = c.emitted ++ waiting.map Value.received

/-- A value that is sent as a whole comes behind those that wait. -/
theorem inOrder_send (h : c.InOrder waiting) (hbinary : browsers.binaryBlob = true) {v : Value}
    (hv : Sendable v) (hwhole : Whole browsers v) :
    ∃ waiting, (c.send browsers v).InOrder waiting := by
  rcases c.send_cases browsers v with heq | ⟨blob, hpack, ⟨hchunked, -⟩ | ⟨-, heq⟩⟩
  · exact ⟨_, heq ▸ h⟩
  · obtain ⟨hchunked, hlen⟩ := Bool.and_eq_true_iff.1 hchunked
    rcases hwhole with hnot | hle
    · exact absurd (hnot.symm.trans hchunked) Bool.noConfusion
    · exact absurd (hle blob hpack) (Nat.not_le.2 (of_decide_eq_true hlen))
  · have hflow : { c with sent := c.sent ++ [v] }.Flowing := h.flowing
    have hs := sends_bufferedSend hflow blob
    rw [heq, transmit, if_pos hbinary]
    refine ⟨waiting ++ [v], hs.flowing, ?_, hs.reading.trans h.reading, ?_, ?_, ?_⟩
    · rw [hs.encoding, List.append_nil]
      exact h.encoding
    · rw [hs.queue, List.map_append, List.map_append, ← h.queue, List.map_singleton,
        List.map_singleton, hpack]
      rfl
    · intro v' hv'
      rcases List.mem_append.1 hv' with hv' | hv'
      · exact h.sendable v' hv'
      · exact List.mem_singleton.1 hv' ▸ hv
    · rw [hs.sent, hs.emitted, List.map_append, List.map_append, h.sent, List.append_assoc]

/-- The first of the values that wait is emitted. -/
theorem inOrder_message (h : c.InOrder waiting) {bytes : List UInt8} {channel : List (List UInt8)}
    (hchannel : c.channel = bytes :: channel) :
    ∃ waiting, ({ c with channel }.handleDataMessage bytes).InOrder waiting := by
  have hqueue : some bytes :: (channel ++ c.lost ++ c.buffer).map some = waiting.map pack := by
    rw [← h.queue, queue, hchannel]
    rfl
  cases waiting with
  | nil => cases hqueue
  | cons v waiting =>
    injection hqueue with hpack hqueue
    have hv := h.sendable v List.mem_cons_self
    obtain ⟨bytes', hpack', hunpack⟩ := exists_unpack hv.valid hv.intact
    cases hpack.trans hpack'
    have hplain : (v.received.property Property.peerData).map Value.toBoolean = some false :=
      (Value.property_received _ _).trans hv.plain
    rw [handleDataMessage_plain hunpack hplain]
    refine ⟨waiting, h.flowing, h.encoding, h.reading, hqueue,
      fun v' hv' => h.sendable v' (List.mem_cons_of_mem v hv'), ?_⟩
    show c.sent.map Value.received = (c.emitted ++ [v.received]) ++ _
    rw [h.sent, List.append_assoc]
    rfl

/-- The values that are lost count as waiting. -/
theorem inOrder_lose (h : c.InOrder waiting) (first : Nat) : (c.lose first).InOrder waiting := by
  obtain ⟨hflow, hqueue⟩ := sends_lose h.flowing first
  exact ⟨hflow, h.encoding, h.reading, hqueue ▸ h.queue, h.sendable, h.sent⟩

/-- Every step keeps the order. -/
theorem inOrder_step {e : Event} (hs : Step browsers c e c') (hbinary : browsers.binaryBlob = true)
    (hv : ∀ v, e = .send v → Sendable v ∧ Whole browsers v) (h : c.InOrder waiting) :
    ∃ waiting, c'.InOrder waiting := by
  cases hs with
  | opened | room | count =>
    exact ⟨waiting, h.flowing, h.encoding, h.reading, h.queue, h.sendable, h.sent⟩
  | lose first => exact ⟨waiting, inOrder_lose h first⟩
  | close first =>
    rcases c.close_cases first with heq | heq
    · exact ⟨waiting, heq.symm ▸ h⟩
    · obtain ⟨hflow, hencoding, hreading, hqueue, hsendable, hsent⟩ := inOrder_lose h first
      rw [heq]
      exact ⟨waiting, ⟨hflow.1, fun hup => (nomatch hup)⟩, hencoding, hreading, hqueue, hsendable,
        hsent⟩
  | send v => exact inOrder_send h hbinary (hv v rfl).1 (hv v rfl).2
  | encoded hbytes =>
    rw [h.encoding] at hbytes
    cases hbytes
  | timer =>
    have hs := sends_tryBuffer (c := { c with buffering := false }) h.flowing.2 rfl
    refine ⟨waiting, hs.flowing, ?_, hs.reading.trans h.reading, ?_, h.sendable, ?_⟩
    · exact (hs.encoding.trans (List.append_nil _)).trans h.encoding
    · rw [hs.queue, List.append_nil]
      exact h.queue
    · rw [hs.sent, hs.emitted]
      exact h.sent
  | message hchannel => exact inOrder_message h hchannel
  | read hbytes =>
    rw [h.reading] at hbytes
    cases hbytes

/-- In every run in which the channel takes blobs and no value is cut, the values are emitted in the
order in which they have been sent, and all of them when the channel and the buffer are empty,
unless something has been lost, which takes a transport that has ended. -/
theorem run_inOrder {ts : List (Transition DataConnection Event)}
    (h : Run (Step browsers) .init ts c) (hbinary : browsers.binaryBlob = true)
    (hv : ∀ t ∈ ts, ∀ v, t.label = .send v → Sendable v ∧ Whole browsers v) :
    c.emitted <+: c.sent.map Value.received ∧
      (c.lost = [] → c.channel = [] → c.buffer = [] → c.emitted = c.sent.map Value.received) ∧
      (c.up = true → c.lost = []) := by
  obtain ⟨waiting, hinOrder⟩ : ∃ waiting, c.InOrder waiting := by
    refine h.guarded (I := fun c => ∃ waiting, c.InOrder waiting)
      (G := fun t => ∀ v, t.label = .send v → Sendable v ∧ Whole browsers v) ?_ ?_ hv
    · exact ⟨[], ⟨fun _ => rfl, fun _ => ⟨rfl, rfl⟩⟩, rfl, rfl, rfl,
        fun v hv => absurd hv List.not_mem_nil, rfl⟩
    · rintro c e c' ⟨waiting, h⟩ hs hg
      exact inOrder_step hs hbinary hg h
  rw [hinOrder.sent]
  refine ⟨List.prefix_append _ _, fun hlost hchannel hbuffer => ?_,
    fun hup => (hinOrder.flowing.2 hup).1⟩
  have hwaiting : waiting = [] := by
    have hmap := hinOrder.queue
    rw [queue, hlost, hchannel, hbuffer] at hmap
    exact List.map_eq_nil_iff.1 hmap.symm
  rw [hwaiting]
  exact (List.append_nil _).symm

/-- Two values that are sent one after the other. -/
theorem run_inOrder_bools : ∃ ts c, Run (Step ⟨true, true⟩) .init ts c ∧
    c.emitted = [.bool true, .bool false] := by
  have hrun : Run (Step ⟨true, true⟩) .init _ _ :=
    (((((Run.nil.snoc (.opened rfl)).snoc (.room _ 2)).snoc (.send _ (.bool true))).snoc
      (.send _ (.bool false))).snoc (.message rfl)).snoc (.message rfl)
  have hsendable (v : Value) (hmem : .send v ∈ [Event.opened, .room 2, .send (.bool true),
      .send (.bool false), .message, .message]) : Sendable v ∧ Whole ⟨true, true⟩ v := by
    obtain ⟨b, rfl⟩ : ∃ b, v = .bool b := by
      simp only [List.mem_cons, reduceCtorEq, Event.send.injEq, List.not_mem_nil, or_false,
        false_or] at hmem
      rcases hmem with hv | hv
      · exact ⟨true, hv⟩
      · exact ⟨false, hv⟩
    refine ⟨sendable_bool b, .inr fun blob hpack => ?_⟩
    cases hpack
    exact Nat.le_of_ble_eq_true rfl
  have hinOrder := run_inOrder hrun rfl fun t ht v hlabel =>
    hsendable v (hlabel ▸ List.mem_map_of_mem (f := Transition.label) ht)
  exact ⟨_, _, hrun, hinOrder.2.1 (hinOrder.2.2 rfl) rfl rfl⟩

/-- File readers that finish in the other order. -/
theorem reordered : ∃ ts c, Run (Step ⟨true, false⟩) .init ts c ∧
    c.sent = [.bool true, .bool false] ∧ c.emitted = [.bool false, .bool true] :=
  ⟨_, _, ((((((((Run.nil.snoc (.opened rfl)).snoc (.room _ 2)).snoc (.send _ (.bool true))).snoc
    (.send _ (.bool false))).snoc (.encoded (i := 1) rfl)).snoc (.encoded (i := 0) rfl)).snoc
    (.message rfl)).snoc (.message rfl)), rfl, rfl⟩

end

end DataConnection

end WebRtcNetty.Html
