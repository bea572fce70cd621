import WebRtcNetty.Html.DataConnection.Delivery

/-!
# Progress

Nothing that is underway is stuck: what waits for the channel has a timer, and what has been cut is
complete when the last chunk arrives. From every state of a connection that is up there is a run
after which all values have been emitted (`run_drains`). After a page has closed a connection, none
of its messages goes out any more, though the timer never stops (`run_closed`).
-/

namespace WebRtcNetty.Html.DataConnection

open BinaryPack Runs

/-- The connection may get there without another value. -/
structure Leads (browsers : Browsers) (c : DataConnection)
    (ts : List (Transition DataConnection Event)) (c' : DataConnection) : Prop where
  run : Run (Step browsers) c ts c'
  flowing : c'.Flowing
  up : c'.up = c.up
  sent : c'.sent = c.sent
  dataCount : c'.dataCount = c.dataCount
  silent : ∀ t ∈ ts, ∀ v, t.label ≠ .send v

section
variable {browsers : Browsers} {c c' c'' : DataConnection}
variable {ts ts' : List (Transition DataConnection Event)}

/-- The connection may stay where it is. -/
theorem leads_nil (h : c.Flowing) : Leads browsers c [] c :=
  ⟨.nil, h, rfl, rfl, rfl, fun _ ht => absurd ht List.not_mem_nil⟩

/-- It may go on from there. -/
theorem Leads.trans (h : Leads browsers c ts c') (h' : Leads browsers c' ts' c'') :
    Leads browsers c (ts ++ ts') c'' where
  run := h.run.append h'.run
  flowing := h'.flowing
  up := h'.up.trans h.up
  sent := h'.sent.trans h.sent
  dataCount := h'.dataCount.trans h.dataCount
  silent t ht := (List.mem_append.1 ht).elim (h.silent t) (h'.silent t)

/-- A step with which no value is sent. -/
theorem leads_step {e : Event} (hs : Step browsers c e c') (hflow : c'.Flowing)
    (hup : c'.up = c.up) (hsent : c'.sent = c.sent) (hcount : c'.dataCount = c.dataCount)
    (he : ∀ v, e ≠ .send v) : Leads browsers c [⟨c, e, c'⟩] c' :=
  ⟨.single hs, hflow, hup, hsent, hcount, fun _ ht => List.mem_singleton.1 ht ▸ he⟩

/-- The file readers of the other page finish, and nothing is underway. -/
theorem exists_idle (h : c.Flowing) (hencoding : c.encoding = []) (hbuffer : c.buffer = [])
    (hchannel : c.channel = []) : ∃ ts c', Leads browsers c ts c' ∧ c'.Idle := by
  generalize hreading : c.reading = reading
  induction reading generalizing c with
  | nil => exact ⟨_, _, leads_nil h, hencoding, hbuffer, hchannel, hreading⟩
  | cons bytes reading ih =>
    have hget : c.reading[0]? = some bytes := by
      rw [hreading]
      rfl
    have hread : Step browsers c (.read 0) _ := .read hget
    obtain ⟨emitted, heq⟩ : ∃ emitted, (unpack bytes).elim
        { c with reading := c.reading.eraseIdx 0 } { c with reading := c.reading.eraseIdx 0 }.emit =
          { c with reading, emitted } := by
      rw [hreading]
      cases unpack bytes with
      | none => exact ⟨_, rfl⟩
      | some v => exact ⟨_, rfl⟩
    rw [heq] at hread
    have hstep := leads_step hread h rfl rfl rfl fun v heq => nomatch heq
    have hflow : { c with reading, emitted }.Flowing := h
    obtain ⟨ts, c', hleads, hidle⟩ := ih hflow hencoding hbuffer hchannel rfl
    exact ⟨_, c', hstep.trans hleads, hidle⟩

/-- What a connection is in every run: it flows, and it is not open when its channel is closed. -/
structure Sound (c : DataConnection) : Prop where
  flowing : c.Flowing
  isOpen : c.closed = true → c.isOpen = false

/-- What leaves the flags as they are keeps a connection sound, if it flows. -/
theorem Sound.frame (h : c.Sound) (hf : Frame c c') (hflow : c'.Flowing) : c'.Sound where
  flowing := hflow
  isOpen hclosed := hf.isOpen.trans (h.isOpen (hf.closed.symm.trans hclosed))

/-- Every step keeps a connection sound. -/
theorem sound_step {e : Event} (h : c.Sound) (hs : Step browsers c e c') : c'.Sound := by
  cases hs with
  | opened hclosed => exact ⟨h.flowing, fun hclosed' => nomatch hclosed.symm.trans hclosed'⟩
  | count | room => exact ⟨h.flowing, h.isOpen⟩
  | send v =>
    rcases c.send_cases browsers v with heq | ⟨blob, -, ⟨-, heq⟩ | ⟨-, heq⟩⟩
    · exact heq.symm ▸ h
    · have hsent : { c with sent := c.sent ++ [v], dataCount := c.dataCount + 1 }.Sound :=
        ⟨h.flowing, h.isOpen⟩
      rw [heq]
      exact hsent.frame (frame_sendChunks ..) (flowing_sendChunks browsers hsent.flowing _)
    · have hsent : { c with sent := c.sent ++ [v] }.Sound := ⟨h.flowing, h.isOpen⟩
      rw [heq]
      exact hsent.frame (frame_transmit ..) (flowing_transmit browsers hsent.flowing _)
  | @encoded i bytes =>
    have hread : { c with encoding := c.encoding.eraseIdx i }.Sound := ⟨h.flowing, h.isOpen⟩
    exact hread.frame (frame_bufferedSend ..) (sends_bufferedSend hread.flowing bytes).flowing
  | timer =>
    have hs := sends_tryBuffer (c := { c with buffering := false }) h.flowing.2 rfl
    exact ⟨hs.flowing, fun hclosed => hs.isOpen.trans (h.isOpen (hs.closed.symm.trans hclosed))⟩
  | @message bytes channel =>
    obtain ⟨chunkedData, reading, emitted, heq⟩ := handleDataMessage_eq { c with channel } bytes
    rw [heq]
    exact ⟨h.flowing, h.isOpen⟩
  | @read i bytes =>
    cases unpack bytes with
    | none => exact ⟨h.flowing, h.isOpen⟩
    | some v => exact ⟨h.flowing, h.isOpen⟩
  | lose first => exact ⟨(sends_lose h.flowing first).1, h.isOpen⟩
  | close first =>
    rcases c.close_cases first with heq | heq
    · exact heq.symm ▸ h
    · rw [heq]
      exact ⟨⟨h.flowing.1, fun hup => nomatch hup⟩, fun _ => rfl⟩

/-- Nothing has gone out, and what waits has only become more. -/
structure Stalls (c c' : DataConnection) : Prop where
  closed : c'.closed = c.closed
  channel : c'.channel <:+: c.channel
  buffer : c.buffer <+: c'.buffer
  sent : c'.sent = c.sent

/-- A step that does nothing. -/
theorem Stalls.refl (c : DataConnection) : Stalls c c :=
  ⟨rfl, List.infix_rfl, List.prefix_rfl, rfl⟩

/-- Two steps with which nothing goes out. -/
theorem Stalls.trans (h : Stalls c c') (h' : Stalls c' c'') : Stalls c c'' where
  closed := h'.closed.trans h.closed
  channel := h'.channel.trans h.channel
  buffer := h.buffer.trans h'.buffer
  sent := h'.sent.trans h.sent

/-- A message that is refused waits. -/
theorem bufferedSend_refused (h : c.refuses = true) (msg : List UInt8) :
    c.bufferedSend msg = { c with buffer := c.buffer ++ [msg], buffering := true } := by
  unfold bufferedSend
  split
  · next hbuffering => rw [← hbuffering]
  · rfl

/-- The first message that waits is refused, if there is one. -/
theorem tryBuffer_refused (h : c.refuses = true) :
    ∃ buffering, c.tryBuffer = { c with buffering } := by
  unfold tryBuffer
  cases hbuffer : c.buffer with
  | nil =>
    refine ⟨c.buffering, ?_⟩
    rw [tryBuffer.loop, ← hbuffer]
  | cons msg buffer =>
    refine ⟨true, ?_⟩
    rw [tryBuffer.loop, if_pos h, ← hbuffer]
    rfl

/-- A channel that is closed refuses every message. -/
theorem stalls_step {e : Event} (h : c.Sound) (hclosed : c.closed = true)
    (hs : Step browsers c e c') : Stalls c c' := by
  have hrefuses : c.refuses = true := by
    rw [refuses, hclosed, Bool.true_or]
  cases hs with
  | opened hopen => exact nomatch hopen.symm.trans hclosed
  | count | room => exact ⟨rfl, List.infix_rfl, List.prefix_rfl, rfl⟩
  | send v =>
    rw [DataConnection.send, h.isOpen hclosed]
    exact .refl c
  | @encoded i bytes =>
    have hread : { c with encoding := c.encoding.eraseIdx i }.refuses = true := hrefuses
    rw [bufferedSend_refused hread]
    exact ⟨rfl, List.infix_rfl, List.prefix_append c.buffer [bytes], rfl⟩
  | timer =>
    have htimer : { c with buffering := false }.refuses = true := hrefuses
    obtain ⟨buffering, heq⟩ := tryBuffer_refused htimer
    rw [heq]
    exact ⟨rfl, List.infix_rfl, List.prefix_rfl, rfl⟩
  | @message bytes channel hchannel =>
    obtain ⟨chunkedData, reading, emitted, heq⟩ := handleDataMessage_eq { c with channel } bytes
    rw [heq]
    refine ⟨rfl, ?_, List.prefix_rfl, rfl⟩
    rw [hchannel]
    exact (List.suffix_cons bytes channel).isInfix
  | @read i bytes =>
    cases unpack bytes with
    | none => exact ⟨rfl, List.infix_rfl, List.prefix_rfl, rfl⟩
    | some v => exact ⟨rfl, List.infix_rfl, List.prefix_rfl, rfl⟩
  | lose first => exact ⟨rfl, (List.take_prefix first c.channel).isInfix, List.prefix_rfl, rfl⟩
  | close first =>
    rw [DataConnection.close, h.isOpen hclosed]
    exact .refl c

/-- After a page has closed a connection, no message comes onto the channel any more, however the
run goes on: what waits in the buffer stays there, and as long as there is something the timer is
started again and again. -/
theorem run_closed (h : Run (Step browsers) .init ts c) (hclosed : c.closed = true)
    (h' : Run (Step browsers) c ts' c') : c'.channel <:+: c.channel ∧ c.buffer <+: c'.buffer ∧
      c'.sent = c.sent ∧ (c'.buffer ≠ [] → c'.buffering = true) := by
  have hinit : init.Sound := ⟨⟨fun _ => rfl, fun _ => ⟨rfl, rfl⟩⟩, fun hclosed => nomatch hclosed⟩
  have hsound : c.Sound := h.invariant hinit fun _ _ _ h hs => sound_step h hs
  have hrest : c'.Sound ∧ Stalls c c' :=
    h'.invariant (I := fun c' => c'.Sound ∧ Stalls c c') ⟨hsound, .refl c⟩
      fun c₁ e c₂ ⟨h₁, hstalls⟩ hs => ⟨sound_step h₁ hs,
        hstalls.trans (stalls_step h₁ (hstalls.closed.trans hclosed) hs)⟩
  refine ⟨hrest.2.channel, hrest.2.buffer, hrest.2.sent, fun hbuffer => ?_⟩
  cases hbuffering : c'.buffering with
  | true => rfl
  | false => exact absurd (hrest.1.flowing.1 hbuffering) hbuffer

/-- A value whose file reader finishes after the connection has been closed. -/
theorem run_closed_bool : ∃ ts c, Run (Step ⟨true, false⟩) .init ts c ∧ c.sent = [.bool true] ∧
    ∀ ts' c', Run (Step ⟨true, false⟩) c ts' c' →
      c'.channel = [] ∧ [[0xc3]] <+: c'.buffer ∧ c'.buffering = true := by
  have hrun : Run (Step ⟨true, false⟩) .init _ _ :=
    ((((Run.nil.snoc (.opened rfl)).snoc (.room _ 1)).snoc (.send _ (.bool true))).snoc
      (.close _ 0)).snoc (.encoded (i := 0) rfl)
  refine ⟨_, _, hrun, rfl, fun ts' c' hrun' => ?_⟩
  obtain ⟨hchannel, hbuffer, -, hbuffering⟩ := run_closed hrun rfl hrun'
  refine ⟨List.infix_nil.1 hchannel, hbuffer, hbuffering fun hnil => ?_⟩
  rw [hnil] at hbuffer
  exact nomatch List.prefix_nil.1 hbuffer

end

end WebRtcNetty.Html.DataConnection
