import WebRtcNetty.Html.DataConnection.Queue
import WebRtcNetty.Html.DataConnection.Tickets
import WebRtcNetty.Lib.Reassembly

/-!
# Delivery

Whatever order the file readers finish in and whenever the channel is full, the values that a page
sends are emitted at the other end at most once each, and all of them once nothing is underway, if
the connection has not been closed before (`run_delivers`).
-/

namespace WebRtcNetty.Html

open BinaryPack Runs Reassembly

/-! ## What is underway -/

/-- The information about the chunks of a ticket has those of them that have arrived. -/
structure Describes (t : Ticket) (k : Nat) (arrived : List (Nat × Nat)) (info : ChunkInfo) :
    Prop where
  total : info.total = t.size
  count : info.count = count k arrived
  length : info.data.length ≤ t.size
  data : ∀ i, info.data[i]?.join = if (k, i) ∈ arrived then some (slice t.bytes i) else none

section
variable {t : Ticket} {k i : Nat} {arrived : List (Nat × Nat)} {info : ChunkInfo}

/-- A chunk of the ticket arrives. -/
theorem Describes.put (h : Describes t k arrived info) (hi : i < t.size) :
    Describes t k ((k, i) :: arrived)
      { info with
        data := ChunkInfo.put info.data i (slice t.bytes i)
        count := info.count + 1 } where
  total := h.total
  count := by rw [count_cons_self, h.count]
  length := by
    rw [length_put]
    exact max_le h.length hi
  data j := by
    dsimp only
    rw [join_getElem?_put, h.data]
    rcases eq_or_ne j i with rfl | hne
    · rw [if_pos rfl, if_pos List.mem_cons_self]
    · have hiff : (k, j) ∈ (k, i) :: arrived ↔ (k, j) ∈ arrived := by simp [hne]
      rw [if_neg hne]
      simp only [hiff]

/-- A message of another ticket makes no difference. -/
theorem Describes.other (h : Describes t k arrived info) {p : Nat × Nat} (hne : p.1 ≠ k) :
    Describes t k (p :: arrived) info where
  total := h.total
  count := by
    obtain ⟨k', i⟩ := p
    rw [count_cons_of_ne hne, h.count]
  length := h.length
  data j := by
    have hiff : (k, j) ∈ p :: arrived ↔ (k, j) ∈ arrived := by
      rw [List.mem_cons, or_iff_right]
      exact fun heq => hne (congrArg Prod.fst heq).symm
    rw [h.data]
    simp only [hiff]

/-- All chunks make the bytes of the value. -/
theorem Describes.blob_eq (h : Describes t k arrived info)
    (hsize : t.size = chunkCount t.bytes.length) (hall : ∀ i < t.size, (k, i) ∈ arrived) :
    ChunkInfo.blob info.data = t.bytes := by
  have hlen := h.length
  rw [hsize] at hall hlen
  refine Html.blob_eq hlen fun i hi => ?_
  rw [h.data, if_pos (hall i hi)]

end

/-- Every message is in the list, and only once. -/
structure Complete (tickets : List Ticket) (parts : List (Nat × Nat)) : Prop where
  nodup : parts.Nodup
  mem : ∀ p, p ∈ parts ↔ p.2 < sizeAt tickets p.1

section
variable {tickets : List Ticket} {parts parts' : List (Nat × Nat)}

/-- The order of the messages makes no difference. -/
theorem Complete.perm (h : Complete tickets parts) (hperm : parts.Perm parts') :
    Complete tickets parts' where
  nodup := hperm.nodup_iff.1 h.nodup
  mem p := hperm.mem_iff.symm.trans (h.mem p)

/-- Of the messages, those that have arrived have done so once. -/
theorem Complete.of_append (h : Complete tickets (parts ++ parts')) :
    Parts (sizeAt tickets) parts' where
  nodup := h.nodup.of_append_right
  lt p hp := (h.mem p).1 (List.mem_append_right parts hp)

/-- Every message is one of a value that has been sent. -/
theorem Complete.lt_length (h : Complete tickets parts) {p : Nat × Nat} (hp : p ∈ parts) :
    p.1 < tickets.length :=
  lt_length_of_lt_sizeAt ((h.mem p).1 hp)

end

namespace DataConnection

/-- The page has sent the tickets, and their messages are with its file readers and in the queue,
in these orders. -/
structure Outbox (c : DataConnection) (tickets : List Ticket) (encoding queue : List (Nat × Nat)) :
    Prop where
  sent : c.sent = tickets.map Ticket.value
  wf : ∀ t ∈ tickets, t.Wf c.dataCount
  ids : ∀ {k k' : Nat} {t t' : Ticket} {id : Nat}, tickets[k]? = some t → tickets[k']? = some t' →
    t.id = some id → t'.id = some id → k' = k
  positive : 0 < c.dataCount
  flowing : c.Flowing
  encoding : c.encoding = encoding.map (partAt tickets)
  queue : c.queue = queue.map (partAt tickets)

/-- The messages have arrived at the other page, whose file readers have the one values, and the
others of those that are complete have been emitted. -/
structure Inbox (c : DataConnection) (tickets : List Ticket) (arrived : List (Nat × Nat))
    (reading emitted : List Nat) : Prop where
  info : ∀ (k : Nat) (t : Ticket) (id : Nat), tickets[k]? = some t → t.id = some id →
    Describes t k arrived ((c.chunkedData id).getD ⟨[], 0, t.size⟩)
  fresh : ∀ id : Nat, c.dataCount ≤ id → c.chunkedData id = none
  completed : (emitted ++ reading).Perm (completed (sizeAt tickets) arrived)
  reading : c.reading = reading.map (bytesAt tickets)
  emitted : c.emitted = emitted.map (receivedAt tickets)

/-- Where the messages of the values that have been sent are. -/
structure Ledger (c : DataConnection) (tickets : List Ticket)
    (encoding queue arrived : List (Nat × Nat)) (reading emitted : List Nat) : Prop where
  outbox : c.Outbox tickets encoding queue
  complete : Complete tickets (encoding ++ queue ++ arrived)
  inbox : c.Inbox tickets arrived reading emitted

section
variable {c c' : DataConnection} {tickets : List Ticket} {t : Ticket}
variable {encoding queue arrived : List (Nat × Nat)} {reading emitted : List Nat}

/-- What the page has sent is the same if its values, file readers and queue are. -/
theorem Outbox.of_eq (h : c.Outbox tickets encoding queue) (hsent : c'.sent = c.sent)
    (hcount : c.dataCount ≤ c'.dataCount) (hflow : c'.Flowing)
    (hencoding : c'.encoding = c.encoding) (hqueue : c'.queue = c.queue) :
    c'.Outbox tickets encoding queue where
  sent := hsent.trans h.sent
  wf t ht := (h.wf t ht).mono hcount
  ids := h.ids
  positive := h.positive.trans_le hcount
  flowing := hflow
  encoding := hencoding.trans h.encoding
  queue := hqueue.trans h.queue

/-- Messages of the tickets are sent. -/
theorem Outbox.sends (h : c.Outbox tickets encoding queue) {blobs messages : List (Nat × Nat)}
    (hs : c.Sends (blobs.map (partAt tickets)) (messages.map (partAt tickets)) c') :
    c'.Outbox tickets (encoding ++ blobs) (queue ++ messages) where
  sent := hs.sent.trans h.sent
  wf := hs.dataCount ▸ h.wf
  ids := h.ids
  positive := hs.dataCount ▸ h.positive
  flowing := hs.flowing
  encoding := by rw [hs.encoding, h.encoding, List.map_append]
  queue := by rw [hs.queue, h.queue, List.map_append]

/-- What has arrived is the same if the chunks, file readers and values of the other page are. -/
theorem Inbox.of_eq (h : c.Inbox tickets arrived reading emitted)
    (hcount : c.dataCount ≤ c'.dataCount) (hinfo : c'.chunkedData = c.chunkedData)
    (hreading : c'.reading = c.reading) (hemitted : c'.emitted = c.emitted) :
    c'.Inbox tickets arrived reading emitted where
  info := hinfo ▸ h.info
  fresh id hid := hinfo ▸ h.fresh id (hcount.trans hid)
  completed := h.completed
  reading := hreading.trans h.reading
  emitted := hemitted.trans h.emitted

/-- Sending makes no difference to what has arrived. -/
theorem Inbox.frame (h : c.Inbox tickets arrived reading emitted) (hf : Frame c c') :
    c'.Inbox tickets arrived reading emitted :=
  h.of_eq hf.dataCount.ge hf.chunkedData hf.reading hf.emitted

/-- A value that is complete has been sent. -/
theorem Ledger.lt_length (h : c.Ledger tickets encoding queue arrived reading emitted) {k : Nat}
    (hk : k ∈ emitted ++ reading) : k < tickets.length := by
  have hmem := h.inbox.completed.mem_iff.1 hk
  exact lt_length_of_lt_sizeAt (h.complete.of_append.mem_completed_iff_count.1 hmem).1

/-! ### Sending -/

/-- A new ticket changes nothing about the others. -/
theorem map_append_ticket {α β : Type} {f : List Ticket → α → β} {g : α → Nat} {l : List α}
    (hf : ∀ tickets tickets' a, tickets[g a]? = tickets'[g a]? →
      f tickets a = f tickets' a) (hl : ∀ a ∈ l, g a < tickets.length) (t : Ticket) :
    l.map (f (tickets ++ [t])) = l.map (f tickets) :=
  List.map_congr_left fun a ha => hf _ _ a (getElem?_append_ticket (hl a ha))

/-- A new ticket leaves the messages of the others as they are. -/
theorem map_partAt_append {parts : List (Nat × Nat)} (h : ∀ p ∈ parts, p.1 < tickets.length)
    (t : Ticket) : parts.map (partAt (tickets ++ [t])) = parts.map (partAt tickets) :=
  map_append_ticket (g := Prod.fst) (fun _ _ p hp => by rw [partAt, hp]; rfl) h t

/-- A page that has sent another value, with the next id for its chunks. -/
theorem Outbox.add (h : c.Outbox tickets encoding queue) {dataCount : Nat}
    (hparts : ∀ p ∈ encoding ++ queue, p.1 < tickets.length) (hwf : t.Wf dataCount)
    (hid : ∀ id, t.id = some id → id = c.dataCount) (hle : c.dataCount ≤ dataCount) :
    { c with sent := c.sent ++ [t.value], dataCount }.Outbox (tickets ++ [t]) encoding queue where
  sent := by rw [List.map_append, h.sent]; rfl
  wf t' ht' := by
    rcases List.mem_append.1 ht' with ht' | ht'
    · exact (h.wf t' ht').mono hle
    · exact List.mem_singleton.1 ht' ▸ hwf
  ids {k k' t₁ t₂ id} hk hk' hid₁ hid₂ := by
    -- The ids so far are below the next one.
    have hlt {k : Nat} {t' : Ticket} (hget : tickets[k]? = some t') (hid' : t'.id = some id) :
        id < c.dataCount := ((h.wf t' (List.mem_of_getElem? hget)).id id hid').2.2.1
    rcases eq_of_append_ticket hk with hget | ⟨rfl, rfl⟩
    · rcases eq_of_append_ticket hk' with hget' | ⟨rfl, rfl⟩
      · exact h.ids hget hget' hid₁ hid₂
      · exact absurd (hid id hid₂) (hlt hget hid₁).ne
    · rcases eq_of_append_ticket hk' with hget' | ⟨rfl, -⟩
      · exact absurd (hid id hid₁) (hlt hget' hid₂).ne
      · rfl
  positive := h.positive.trans_le hle
  flowing := h.flowing
  encoding := by
    rw [map_partAt_append (fun p hp => hparts p (List.mem_append_left _ hp))]
    exact h.encoding
  queue := by
    rw [map_partAt_append (fun p hp => hparts p (List.mem_append_right _ hp))]
    exact h.queue

/-- A new ticket makes no difference to what has arrived. -/
theorem Ledger.inbox_add (h : c.Ledger tickets encoding queue arrived reading emitted)
    {dataCount : Nat} (hid : ∀ id, t.id = some id → id = c.dataCount)
    (hle : c.dataCount ≤ dataCount) :
    { c with sent := c.sent ++ [t.value], dataCount }.Inbox (tickets ++ [t]) arrived reading
      emitted where
  info k t' id hget hid' := by
    rcases eq_of_append_ticket hget with hget | ⟨rfl, rfl⟩
    · exact h.inbox.info k t' id hget hid'
    · -- Nothing of the new value has arrived.
      have hnot (i : Nat) : (tickets.length, i) ∉ arrived := fun hmem =>
        absurd (h.complete.lt_length (List.mem_append_right _ hmem)) (lt_irrefl _)
      rw [hid id hid', h.inbox.fresh _ (le_refl _)]
      refine ⟨rfl, ?_, Nat.zero_le _, fun i => ?_⟩
      · refine (List.countP_eq_zero.2 fun p hp heq => ?_).symm
        exact hnot p.2 (by rwa [← of_decide_eq_true heq])
      · rw [if_neg (hnot i)]
        rfl
  fresh id hid := h.inbox.fresh id (hle.trans hid)
  completed := by
    refine h.inbox.completed.trans (List.Perm.of_eq (completed_congr fun p hp => ?_))
    have hlt := h.complete.lt_length (List.mem_append_right _ hp)
    rw [sizeAt, sizeAt, getElem?_append_ticket hlt]
  reading := by
    rw [map_append_ticket (f := bytesAt) (g := fun k => k)
      (fun _ _ k hk => by rw [bytesAt, hk]; rfl)
      fun k hk => h.lt_length (List.mem_append_right _ hk)]
    exact h.inbox.reading
  emitted := by
    rw [map_append_ticket (f := receivedAt) (g := fun k => k)
      (fun _ _ k hk => by rw [receivedAt, hk]; rfl)
      fun k hk => h.lt_length (List.mem_append_left _ hk)]
    exact h.inbox.emitted

/-- The messages of the new ticket are new. -/
theorem complete_append {parts : List (Nat × Nat)} (h : Complete tickets parts) (t : Ticket) :
    Complete (tickets ++ [t]) (parts ++ (List.range t.size).map (tickets.length, ·)) where
  nodup := by
    refine h.nodup.append (List.nodup_range.map fun i j heq => (Prod.mk.inj heq).2) ?_
    intro p hp hnew
    obtain ⟨i, -, rfl⟩ := List.mem_map.1 hnew
    exact absurd (h.lt_length hp) (lt_irrefl _)
  mem p := by
    obtain ⟨k, i⟩ := p
    rw [List.mem_append, h.mem, List.mem_map]
    rcases Nat.lt_trichotomy k tickets.length with hlt | rfl | hgt
    · have hne : ¬ ∃ j ∈ List.range t.size, (tickets.length, j) = (k, i) := by
        rintro ⟨j, -, heq⟩
        exact absurd (Prod.mk.inj heq).1 hlt.ne'
      rw [or_iff_left hne, sizeAt, sizeAt, getElem?_append_ticket hlt]
    · have hnew : (tickets ++ [t])[tickets.length]? = some t := by simp
      have hnot : ¬ i < sizeAt tickets tickets.length :=
        fun hi => absurd (lt_length_of_lt_sizeAt hi) (lt_irrefl _)
      rw [or_iff_right hnot, sizeAt_eq hnew]
      simp
    · have hnot : ¬ i < sizeAt tickets k :=
        fun hi => absurd (lt_length_of_lt_sizeAt hi) (Nat.not_lt.2 hgt.le)
      have hnot' : ¬ i < sizeAt (tickets ++ [t]) k := fun hi => by
        have := lt_length_of_lt_sizeAt hi
        rw [List.length_append, List.length_singleton] at this
        omega
      refine iff_of_false (not_or.2 ⟨hnot, ?_⟩) hnot'
      rintro ⟨j, -, heq⟩
      exact absurd (Prod.mk.inj heq).1 hgt.ne

/-- Another value is sent. -/
theorem Ledger.add (h : c.Ledger tickets encoding queue arrived reading emitted)
    (browsers : Browsers) {dataCount : Nat} (hwf : t.Wf dataCount)
    (hid : ∀ id, t.id = some id → id = c.dataCount) (hle : c.dataCount ≤ dataCount)
    (hs : Sends { c with sent := c.sent ++ [t.value], dataCount }
      (blobsOf browsers ((List.range t.size).map t.part))
      (messagesOf browsers ((List.range t.size).map t.part)) c') :
    ∃ tickets encoding queue, c'.Ledger tickets encoding queue arrived reading emitted := by
  have hnew : (tickets ++ [t])[tickets.length]? = some t := by simp
  have hmap : (List.range t.size).map t.part =
      ((List.range t.size).map (tickets.length, ·)).map (partAt (tickets ++ [t])) := by
    rw [List.map_map]
    exact List.map_congr_left fun i _ => (partAt_eq hnew i).symm
  have hlt : ∀ p ∈ encoding ++ queue, p.1 < tickets.length :=
    fun p hp => h.complete.lt_length (List.mem_append_left _ hp)
  have hadd := h.outbox.add hlt hwf hid hle
  rw [hmap, blobsOf_map, messagesOf_map] at hs
  refine ⟨tickets ++ [t], _, _, hadd.sends hs, ?_, (h.inbox_add hid hle).frame hs.toFrame⟩
  refine (complete_append h.complete t).perm ?_
  have hsplit := blobsOf_append_messagesOf browsers ((List.range t.size).map (tickets.length, ·))
  generalize (List.range t.size).map (tickets.length, ·) = parts at hsplit ⊢
  conv_lhs => rw [← hsplit]
  refine List.perm_iff_count.2 fun p => ?_
  simp only [List.count_append]
  omega

/-- A page sends a value in chunks or as a whole, or does nothing. -/
theorem Ledger.send (h : c.Ledger tickets encoding queue arrived reading emitted)
    (browsers : Browsers) {v : Value} (hv : Sendable v)
    (hsafe : (c.send browsers v).dataCount ≤ 2 ^ 53) : ∃ tickets encoding queue,
      (c.send browsers v).Ledger tickets encoding queue arrived reading emitted := by
  rcases c.send_cases browsers v with heq | ⟨blob, hpack, ⟨hchunked, heq⟩ | ⟨-, heq⟩⟩
  · exact ⟨_, _, _, heq ▸ h⟩
  · have hlen : chunkedMTU < blob.length := of_decide_eq_true (Bool.and_eq_true_iff.1 hchunked).2
    rw [heq, (frame_sendChunks ..).dataCount] at hsafe
    rw [heq]
    have hwf : (Ticket.mk v blob (some c.dataCount)).Wf (c.dataCount + 1) :=
      ⟨hv, hpack, fun id hid => by
        cases hid
        exact ⟨h.outbox.positive, hsafe, Nat.lt_succ_self _, hlen⟩⟩
    have hchunks : (chunk c.dataCount blob).map pack =
        ((List.range (chunkCount blob.length)).map
          (Ticket.mk v blob (some c.dataCount)).part).map some := by
      rw [chunk_eq, List.map_map, List.map_map]
      exact List.map_congr_left fun i hi => (hwf.part_of_some rfl (List.mem_range.1 hi)).1
    have hflow : { c with sent := c.sent ++ [v], dataCount := c.dataCount + 1 }.Flowing :=
      h.outbox.flowing
    exact h.add browsers hwf (fun id hid => (Option.some.inj hid).symm) (Nat.le_succ _)
      (sends_sendChunks browsers hflow hchunks)
  · have hwf : (Ticket.mk v blob none).Wf c.dataCount := ⟨hv, hpack, fun id hid => nomatch hid⟩
    have hflow : { c with sent := c.sent ++ [v] }.Flowing := h.outbox.flowing
    rw [heq]
    exact h.add browsers hwf (fun id hid => nomatch hid) (le_refl _)
      (sends_transmit browsers hflow blob)

/-- A file reader of the sending page has finished. -/
theorem Ledger.encoded (h : c.Ledger tickets encoding queue arrived reading emitted)
    {bytes : List UInt8} {i : Nat} (hbytes : c.encoding[i]? = some bytes) :
    ∃ encoding' queue', ({ c with encoding := c.encoding.eraseIdx i }.bufferedSend bytes).Ledger
      tickets encoding' queue' arrived reading emitted := by
  rw [h.outbox.encoding, List.getElem?_map] at hbytes
  obtain ⟨p, hp, rfl⟩ := Option.map_eq_some_iff.1 hbytes
  obtain ⟨hi, rfl⟩ := List.getElem?_eq_some_iff.1 hp
  have hread : { c with encoding := c.encoding.eraseIdx i }.Outbox tickets (encoding.eraseIdx i)
      queue := by
    refine ⟨h.outbox.sent, h.outbox.wf, h.outbox.ids, h.outbox.positive, h.outbox.flowing, ?_,
      h.outbox.queue⟩
    rw [h.outbox.encoding, List.eraseIdx_map]
  have hs := sends_bufferedSend hread.flowing (partAt tickets encoding[i])
  have houtbox : Outbox _ tickets (encoding.eraseIdx i ++ []) (queue ++ [encoding[i]]) :=
    hread.sends hs
  refine ⟨_, _, houtbox, ?_,
    h.inbox.of_eq hs.dataCount.ge hs.chunkedData hs.reading hs.emitted⟩
  refine h.complete.perm (List.Perm.append_right arrived ?_)
  have herase := List.getElem_cons_eraseIdx_perm hi
  rw [List.append_nil, ← List.append_assoc]
  exact ((herase.symm.append_right queue).trans
    (List.perm_append_singleton encoding[i] (encoding.eraseIdx i ++ queue)).symm)

/-- The transport ends. What is lost is still in the queue, and does not arrive. -/
theorem Ledger.lose (h : c.Ledger tickets encoding queue arrived reading emitted) (first : Nat) :
    (c.lose first).Ledger tickets encoding queue arrived reading emitted := by
  obtain ⟨hflow, hqueue⟩ := sends_lose h.outbox.flowing first
  exact ⟨h.outbox.of_eq rfl (le_refl _) hflow rfl hqueue, h.complete,
    h.inbox.of_eq (le_refl _) rfl rfl rfl⟩

/-! ### Receiving -/

/-- A value arrives as a whole. -/
theorem Inbox.whole (h : c.Inbox tickets arrived reading emitted) {k i : Nat}
    (hparts : Parts (sizeAt tickets) ((k, i) :: arrived)) (hget : tickets[k]? = some t)
    (hid : t.id = none) : (c.emit t.value.received).Inbox tickets ((k, i) :: arrived) reading
      (emitted ++ [k]) where
  info k' t' id hget' hid' := by
    have hne : k ≠ k' := by
      rintro rfl
      rw [hget] at hget'
      cases hget'
      rw [hid] at hid'
      cases hid'
    exact (h.info k' t' id hget' hid').other hne
  fresh := h.fresh
  completed := by
    have hlast : count k arrived + 1 = sizeAt tickets k := by
      have hle := hparts.count_le k
      rw [count_cons_self] at hle
      rw [sizeAt_eq hget, Ticket.size_of_none hid] at hle ⊢
      omega
    rw [Reassembly.completed, if_pos hlast, List.append_assoc]
    exact List.perm_middle.trans (h.completed.cons k)
  reading := h.reading
  emitted := by
    have hreceived : receivedAt tickets k = t.value.received := by
      rw [receivedAt, hget]
      rfl
    rw [List.map_append, ← h.emitted, List.map_singleton, hreceived]
    rfl

/-- A chunk arrives, and with the last one the bytes of the value go to a file reader. -/
theorem Inbox.chunk (h : c.Inbox tickets arrived reading emitted) {k i id : Nat}
    (hparts : Parts (sizeAt tickets) ((k, i) :: arrived)) (hget : tickets[k]? = some t)
    (hid : t.id = some id) (hlt : id < c.dataCount)
    (hids : ∀ k' t', tickets[k']? = some t' → t'.id = some id → k' = k) :
    ∃ reading', (c.handleChunk (receivedChunk id i (slice t.bytes i) t.size)).Inbox tickets
      ((k, i) :: arrived) reading' emitted := by
  have hsize := sizeAt_eq hget
  have hi : i < t.size := hsize ▸ hparts.lt (k, i) List.mem_cons_self
  have hinfo := (h.info k t id hget hid).put hi
  rw [handleChunk_received]
  dsimp only
  generalize (c.chunkedData id).getD ⟨[], 0, t.size⟩ = info at hinfo ⊢
  have hothers : ∀ (k' : Nat) (t' : Ticket) (id' : Nat), tickets[k']? = some t' →
      t'.id = some id' → Describes t' k' ((k, i) :: arrived)
        ((Function.update c.chunkedData id (some { info with
          data := ChunkInfo.put info.data i (slice t.bytes i)
          count := info.count + 1 }) id').getD ⟨[], 0, t'.size⟩) := by
    intro k' t' id' hget' hid'
    rcases eq_or_ne id' id with rfl | hne
    · cases hids k' t' hget' hid'
      cases hget.symm.trans hget'
      rw [Function.update_self]
      exact hinfo
    · have hk : k ≠ k' := by
        rintro rfl
        cases hget.symm.trans hget'
        exact hne (Option.some.inj (hid'.symm.trans hid))
      rw [Function.update_of_ne (by exact_mod_cast hne)]
      exact (h.info k' t' id' hget' hid').other hk
  have hfresh : ∀ id' : Nat, c.dataCount ≤ id' → Function.update c.chunkedData id (some
      { info with
        data := ChunkInfo.put info.data i (slice t.bytes i)
        count := info.count + 1 }) id' = none := by
    intro id' hle
    have hne : id' ≠ id := by omega
    rw [Function.update_of_ne (by exact_mod_cast hne)]
    exact h.fresh id' hle
  have hcount : info.count = count k arrived := by
    have := hinfo.count
    rw [count_cons_self] at this
    exact Nat.succ.inj this
  have hcond : info.total = ((info.count + 1 : Nat) : Int) ↔
      count k arrived + 1 = sizeAt tickets k := by
    rw [hinfo.total, hcount, hsize]
    omega
  split
  · next hlast =>
    refine ⟨reading ++ [k], hothers, hfresh, ?_, ?_, h.emitted⟩
    · rw [Reassembly.completed, if_pos (hcond.1 hlast), ← List.append_assoc]
      exact (List.perm_append_singleton k _).trans (h.completed.cons k)
    · have hall := (hparts.count_eq_iff k).1 ((count_cons_self ..).trans (hcond.1 hlast))
      rw [hsize] at hall
      have hblob := hinfo.blob_eq (Ticket.size_of_some hid) hall
      have hbytes : bytesAt tickets k = t.bytes := by
        rw [bytesAt, hget]
        rfl
      rw [List.map_append, ← h.reading, List.map_singleton, hbytes]
      exact congrArg (c.reading ++ [·]) hblob
  · next hlast =>
    refine ⟨reading, hothers, hfresh, ?_, h.reading, h.emitted⟩
    rw [Reassembly.completed, if_neg fun heq => hlast (hcond.2 heq)]
    exact h.completed

/-- A message of the channel arrives. -/
theorem Ledger.message (h : c.Ledger tickets encoding queue arrived reading emitted)
    {bytes : List UInt8} {channel : List (List UInt8)} (hchannel : c.channel = bytes :: channel) :
    ∃ queue' arrived' reading' emitted',
      ({ c with channel }.handleDataMessage bytes).Ledger tickets encoding queue' arrived' reading'
        emitted' := by
  have hqueue : bytes :: (channel ++ c.lost ++ c.buffer) = queue.map (partAt tickets) := by
    rw [← h.outbox.queue, DataConnection.queue, hchannel]
    rfl
  cases queue with
  | nil => cases hqueue
  | cons p queue =>
    obtain ⟨k, i⟩ := p
    injection hqueue with hbytes hqueue
    have hcomplete : Complete tickets (encoding ++ queue ++ (k, i) :: arrived) := by
      refine h.complete.perm ?_
      rw [List.append_assoc, List.append_assoc]
      exact List.perm_middle.symm.append_left encoding
    have hparts := hcomplete.of_append
    have hi := hparts.lt (k, i) List.mem_cons_self
    obtain ⟨t, hget⟩ : ∃ t, tickets[k]? = some t :=
      ⟨_, List.getElem?_eq_getElem (lt_length_of_lt_sizeAt hi)⟩
    rw [sizeAt_eq hget] at hi
    rw [partAt_eq hget] at hbytes
    have hwf := h.outbox.wf t (List.mem_of_getElem? hget)
    have houtbox : { c with channel }.Outbox tickets encoding queue :=
      ⟨h.outbox.sent, h.outbox.wf, h.outbox.ids, h.outbox.positive, h.outbox.flowing,
        h.outbox.encoding, hqueue⟩
    have hinbox : { c with channel }.Inbox tickets arrived reading emitted :=
      h.inbox.of_eq (le_refl _) rfl rfl rfl
    cases hid : t.id with
    | none =>
      have hplain : (t.value.received.property Property.peerData).map Value.toBoolean =
          some false := (Value.property_received _ _).trans hwf.sendable.plain
      rw [hbytes, Ticket.part_of_none hid, handleDataMessage_plain hwf.unpack hplain]
      exact ⟨queue, _, _, _, houtbox.of_eq rfl (le_refl _) houtbox.flowing rfl rfl, hcomplete,
        hinbox.whole hparts hget hid⟩
    | some id =>
      obtain ⟨hpos, -, hlt, -⟩ := hwf.id id hid
      have hids : ∀ k' t', tickets[k']? = some t' → t'.id = some id → k' = k :=
        fun k' t' hget' hid' => h.outbox.ids hget hget' hid hid'
      rw [hbytes, handleDataMessage_chunk hpos (hwf.part_of_some hid hi).2]
      obtain ⟨reading', hchunk⟩ := hinbox.chunk hparts hget hid hlt hids
      exact ⟨queue, _, reading', _, houtbox.of_eq rfl (le_refl _) houtbox.flowing rfl rfl,
        hcomplete, hchunk⟩

/-- A file reader of the other page has finished. -/
theorem Ledger.read (h : c.Ledger tickets encoding queue arrived reading emitted)
    {bytes : List UInt8} {i : Nat} (hbytes : c.reading[i]? = some bytes) :
    ∃ reading' emitted', ((unpack bytes).elim { c with reading := c.reading.eraseIdx i }
      { c with reading := c.reading.eraseIdx i }.emit).Ledger tickets encoding queue arrived
        reading' emitted' := by
  rw [h.inbox.reading, List.getElem?_map] at hbytes
  obtain ⟨k, hk, rfl⟩ := Option.map_eq_some_iff.1 hbytes
  have hlt := h.lt_length (List.mem_append_right emitted (List.mem_of_getElem? hk))
  obtain ⟨t, hget⟩ : ∃ t, tickets[k]? = some t := ⟨_, List.getElem?_eq_getElem hlt⟩
  have hwf := h.outbox.wf t (List.mem_of_getElem? hget)
  have hvalue : bytesAt tickets k = t.bytes := by
    rw [bytesAt, hget]
    rfl
  have hreceived : receivedAt tickets k = t.value.received := by
    rw [receivedAt, hget]
    rfl
  rw [hvalue, hwf.unpack]
  refine ⟨reading.eraseIdx i, emitted ++ [k],
    h.outbox.of_eq rfl (le_refl _) h.outbox.flowing rfl rfl, h.complete, h.inbox.info,
    h.inbox.fresh, ?_, ?_, ?_⟩
  · refine List.Perm.trans ?_ h.inbox.completed
    obtain ⟨hi, rfl⟩ := List.getElem?_eq_some_iff.1 hk
    rw [List.append_assoc]
    exact (List.getElem_cons_eraseIdx_perm hi).append_left emitted
  · show c.reading.eraseIdx i = _
    rw [h.inbox.reading, List.eraseIdx_map]
  · rw [List.map_append, ← h.inbox.emitted, List.map_singleton, hreceived]
    rfl

/-! ### Runs -/

/-- There is a ledger. -/
def Accounted (c : DataConnection) : Prop :=
  ∃ tickets encoding queue arrived reading emitted,
    c.Ledger tickets encoding queue arrived reading emitted

/-- At the start nothing has been sent. -/
theorem accounted_init : Accounted .init := by
  refine ⟨[], [], [], [], [], [], ?_, ⟨.nil, fun p => ?_⟩, ?_⟩
  · exact ⟨rfl, fun t ht => absurd ht List.not_mem_nil, fun h => (nomatch h), Nat.one_pos,
      ⟨fun _ => rfl, fun _ => ⟨rfl, rfl⟩⟩, rfl, rfl⟩
  · exact iff_of_false List.not_mem_nil (Nat.not_lt_zero _)
  · exact ⟨fun k t id h => (nomatch h), fun _ _ => rfl, .nil, rfl, rfl⟩

/-- Every step keeps account of the messages. -/
theorem accounted_step {browsers : Browsers} {e : Event} (hs : Step browsers c e c')
    (hv : ∀ v, e = .send v → Sendable v) (hsafe : c'.dataCount ≤ 2 ^ 53) (h : c.Accounted) :
    c'.Accounted := by
  obtain ⟨tickets, encoding, queue, arrived, reading, emitted, h⟩ := h
  cases hs with
  | opened | room =>
    exact ⟨_, _, _, _, _, _, h.outbox.of_eq rfl (le_refl _) h.outbox.flowing rfl rfl, h.complete,
      h.inbox.of_eq (le_refl _) rfl rfl rfl⟩
  | lose first => exact ⟨_, _, _, _, _, _, h.lose first⟩
  | close first =>
    rcases c.close_cases first with heq | heq
    · exact ⟨_, _, _, _, _, _, heq ▸ h⟩
    · have hlost := h.lose first
      have hclosed : { c.lose first with isOpen := false, closed := true }.Flowing :=
        ⟨hlost.outbox.flowing.1, fun hup => (nomatch hup)⟩
      rw [heq]
      exact ⟨_, _, _, _, _, _, hlost.outbox.of_eq rfl (le_refl _) hclosed rfl rfl, hlost.complete,
        hlost.inbox.of_eq (le_refl _) rfl rfl rfl⟩
  | count =>
    exact ⟨_, _, _, _, _, _, h.outbox.of_eq rfl (Nat.le_succ _) h.outbox.flowing rfl rfl,
      h.complete, h.inbox.of_eq (Nat.le_succ _) rfl rfl rfl⟩
  | send v =>
    obtain ⟨tickets', encoding', queue', h'⟩ := h.send browsers (hv v rfl) hsafe
    exact ⟨_, _, _, _, _, _, h'⟩
  | encoded hbytes =>
    obtain ⟨encoding', queue', h'⟩ := h.encoded hbytes
    exact ⟨_, _, _, _, _, _, h'⟩
  | timer hbuffering =>
    have hs := sends_tryBuffer (c := { c with buffering := false }) h.outbox.flowing.2 rfl
    refine ⟨_, _, _, _, _, _, h.outbox.of_eq hs.sent hs.dataCount.ge hs.flowing ?_ ?_, h.complete,
      h.inbox.of_eq hs.dataCount.ge hs.chunkedData hs.reading hs.emitted⟩
    · exact hs.encoding.trans (List.append_nil _)
    · exact hs.queue.trans (List.append_nil _)
  | message hchannel =>
    obtain ⟨queue', arrived', reading', emitted', h'⟩ := h.message hchannel
    exact ⟨_, _, _, _, _, _, h'⟩
  | read hbytes =>
    obtain ⟨reading', emitted', h'⟩ := h.read hbytes
    exact ⟨_, _, _, _, _, _, h'⟩

/-- Every value that is emitted has been sent, and is emitted once; when nothing is underway and
nothing has been lost, all of them have been. -/
theorem Ledger.delivered (h : c.Ledger tickets encoding queue arrived reading emitted) :
    c.emitted.Subperm (c.sent.map Value.received) ∧
      (c.lost = [] → c.Idle → c.emitted.Perm (c.sent.map Value.received)) := by
  have hparts := h.complete.of_append
  have hnodup : (emitted ++ reading).Nodup :=
    h.inbox.completed.nodup_iff.2 (nodup_completed hparts)
  rw [h.outbox.sent, ← map_receivedAt, h.inbox.emitted]
  constructor
  · have hsubperm : emitted.Subperm (List.range tickets.length) :=
      hnodup.of_append_left.subperm fun k hk =>
        List.mem_range.2 (h.lt_length (List.mem_append_left reading hk))
    obtain ⟨l, hperm, hsub⟩ := hsubperm
    exact ⟨l.map _, hperm.map _, hsub.map _⟩
  · intro hlost hidle
    -- Nothing is left but what has arrived and has been emitted.
    have hreading : reading = [] :=
      List.map_eq_nil_iff.1 (h.inbox.reading.symm.trans hidle.reading)
    have hencoding : encoding = [] :=
      List.map_eq_nil_iff.1 (h.outbox.encoding.symm.trans hidle.encoding)
    have hqueue : queue = [] := by
      refine List.map_eq_nil_iff.1 (h.outbox.queue.symm.trans ?_)
      rw [DataConnection.queue, hidle.channel, hidle.buffer, hlost]
      rfl
    have hcomplete := h.complete
    rw [hencoding, hqueue] at hcomplete
    refine List.Perm.map _ ((List.perm_ext_iff_of_nodup hnodup.of_append_left
      List.nodup_range).2 fun k => ?_)
    rw [← List.append_nil emitted, ← hreading, h.inbox.completed.mem_iff, mem_completed hparts,
      List.mem_range]
    constructor
    · rintro ⟨hpos, -⟩
      exact lt_length_of_lt_sizeAt hpos
    · intro hlt
      have hget := List.getElem?_eq_getElem hlt
      have hwf := h.outbox.wf _ (List.getElem_mem hlt)
      refine ⟨?_, fun i hi => (hcomplete.mem (k, i)).2 hi⟩
      rw [sizeAt_eq hget]
      exact hwf.size_pos

end

section
variable {browsers : Browsers} {c c' : DataConnection} {ts : List (Transition DataConnection Event)}

/-- No step takes back an id. -/
theorem dataCount_step {e : Event} (hs : Step browsers c e c') : c.dataCount ≤ c'.dataCount := by
  cases hs with
  | opened | room | lose => exact le_refl _
  | close first =>
    rcases c.close_cases first with heq | heq
    · rw [heq]
    · rw [heq]
      exact le_refl _
  | count => exact Nat.le_succ _
  | send v =>
    rcases c.send_cases browsers v with heq | ⟨blob, -, ⟨-, heq⟩ | ⟨-, heq⟩⟩
    · rw [heq]
    · rw [heq, (frame_sendChunks ..).dataCount]
      exact Nat.le_succ _
    · rw [heq, (frame_transmit ..).dataCount]
  | @encoded i bytes =>
    exact (frame_bufferedSend { c with encoding := c.encoding.eraseIdx i } bytes).dataCount.ge
  | timer => exact (frame_tryBuffer { c with buffering := false }).dataCount.ge
  | @message bytes =>
    obtain ⟨chunkedData, reading, emitted, heq⟩ := handleDataMessage_eq _ bytes
    rw [heq]
  | @read i bytes =>
    cases unpack bytes with
    | none => exact le_refl _
    | some v => exact le_refl _

/-- Every run keeps account of the messages. -/
theorem accounted_run {c₀ : DataConnection} (h : Run (Step browsers) c₀ ts c)
    (hv : ∀ t ∈ ts, ∀ v, t.label = .send v → Sendable v) (hsafe : c.dataCount ≤ 2 ^ 53)
    (h₀ : c₀.Accounted) : c.Accounted := by
  induction h with
  | nil => exact h₀
  | snoc hr hs ih =>
    refine accounted_step hs (hv _ (List.mem_append_right _ List.mem_cons_self)) hsafe ?_
    exact ih (fun t ht => hv t (List.mem_append_left _ ht)) ((dataCount_step hs).trans hsafe)

/-- In every run, each value is emitted at most once, and when nothing is underway all of them have
been, unless something has been lost, which takes a transport that has ended. Up to `2 ^ 53`
messages the ids of their chunks differ. -/
theorem run_delivers (h : Run (Step browsers) .init ts c)
    (hv : ∀ t ∈ ts, ∀ v, t.label = .send v → Sendable v) (hsafe : c.dataCount ≤ 2 ^ 53) :
    c.emitted.Subperm (c.sent.map Value.received) ∧
      (c.lost = [] → c.Idle → c.emitted.Perm (c.sent.map Value.received)) ∧
      (c.up = true → c.lost = []) := by
  obtain ⟨_, _, _, _, _, _, hledger⟩ := accounted_run h hv hsafe accounted_init
  have hdelivered := hledger.delivered
  exact ⟨hdelivered.1, hdelivered.2, fun hup => (hledger.outbox.flowing.2 hup).1⟩

/-- A value that is sent when the channel has opened. -/
theorem run_delivers_bool : ∃ ts c, Run (Step ⟨true, true⟩) .init ts c ∧
    c.emitted.Perm [.bool true] := by
  have hrun : Run (Step ⟨true, true⟩) .init _ _ :=
    (((Run.nil.snoc (.opened rfl)).snoc (.room _ 1)).snoc (.send _ (.bool true))).snoc
      (.message rfl)
  have hsendable (v : Value) (hmem : .send v ∈ [Event.opened, .room 1, .send (.bool true),
      .message]) : Sendable v := by
    simp only [List.mem_cons, reduceCtorEq, Event.send.injEq, List.not_mem_nil, or_false,
      false_or] at hmem
    exact hmem ▸ sendable_bool true
  have hdelivers := run_delivers hrun (fun t ht v hlabel =>
    hsendable v (hlabel ▸ List.mem_map_of_mem (f := Transition.label) ht)) (by decide)
  exact ⟨_, _, hrun, hdelivers.2.1 (hdelivers.2.2 rfl) ⟨rfl, rfl, rfl, rfl⟩⟩

end

end DataConnection

end WebRtcNetty.Html
