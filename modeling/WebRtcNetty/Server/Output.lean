import WebRtcNetty.Lib.Java.Serialization
import WebRtcNetty.Server.LoginGate

/-!
# What the server writes

`Session.send` writes a frame with the encoding of what it is given: a message by its protobuf
encoding, any other object by Java's serialization. All that the handlers, the rooms and the login
filter send are messages; only the answer to a malformed frame is not, and its encoding is no
message. So `onlyPackageGroups_iff` says exactly which steps of the server write nothing but package
groups.
-/

namespace WebRtcNetty

open Java Proto2 Command Runs

/-! ## Encodings -/

/-- The bytes of the frame that `send` writes, `none` where there are too many for an array.
Reference: `send` (`NettyWebSocketSession.java:54`) and `copy2Bytes` (`ObjectUtil.java:16`). -/
def Data.encode : Data → Option ByteString
  | .frame bytes => some bytes
  | .message msg =>
    let bytes := packageGroup.toByteArray msg.val
    if bytes.length < 2 ^ 31 then some bytes else none
  | .object s => some (serialize s)

/-- A written message parses as what it encodes. -/
theorem parseFrom_encode_message {msg : PackageGroup} {bytes : ByteString}
    (h : (Data.message msg).encode = some bytes) : packageGroup.parseFrom bytes = some msg := by
  simp only [Data.encode] at h
  split at h
  · next hlen =>
    cases h
    exact Fields.parseFrom_toByteArray msg packageGroup_wf packageGroup_depth hlen
  · cases h

/-- A stream's magic number reads as the end of a group. -/
theorem readToken_magic (rest : ByteString) :
    readToken (0xAC :: 0xED :: 0x00 :: rest) = some (1749, .endGroup, rest) := by
  simp [readToken, readTag, readVarint, readVarintAux, readPayload]

/-- A serialized string is no message. -/
theorem parseFrom_serialize (fs : Fields) (s : String) : fs.parseFrom (serialize s) = none := by
  obtain ⟨rest, h⟩ := serialize_header s
  rw [h]
  exact Fields.parseFrom_endGroup (readToken_magic rest)

/-! ## The frame of code that sends messages -/

/-- The frame of code that sends messages and nothing else. -/
def sendsMessages : Frame World where
  rel w w' := ∃ more, w'.sent = w.sent ++ more ∧ ∀ x ∈ more, ∃ msg, x.2 = .message msg
  refl w := ⟨[], (List.append_nil _).symm, fun x hx => by cases hx⟩
  trans := by
    rintro w₁ w₂ w₃ ⟨more, h, hmore⟩ ⟨more', h', hmore'⟩
    refine ⟨more ++ more', by rw [h', h, List.append_assoc], fun x hx => ?_⟩
    rcases List.mem_append.1 hx with hx | hx
    · exact hmore x hx
    · exact hmore' x hx

/-- What sends nothing is within it. -/
theorem sendsMessages_of_sent {w w' : World} (h : w'.sent = w.sent) :
    sendsMessages.rel w w' :=
  ⟨[], by rw [h, List.append_nil], fun x hx => by cases hx⟩

theorem allowsEntering_sendsMessages : Frame.AllowsEntering sendsMessages where
  sent w session msg := by
    refine ⟨[(session, .message msg)], rfl, fun x hx => ?_⟩
    rw [List.mem_singleton.1 hx]
    exact ⟨msg, rfl⟩
  failed _ := sendsMessages_of_sent rfl
  currentRoom _ _ _ := sendsMessages_of_sent rfl

theorem allowsServer_sendsMessages : Frame.AllowsServer sendsMessages where
  toAllowsEntering := allowsEntering_sendsMessages
  attributing _ _ := .modify fun _ => sendsMessages_of_sent rfl
  displacing _ _ := .bind .read fun _ =>
    .bind (Session.sendResult_within allowsEntering_sendsMessages.toAllowsSending _ _) fun _ =>
      .modify fun _ => sendsMessages_of_sent rfl
  creating _ _ _ := sendsMessages_of_sent rfl
  closing _ := .modify fun _ => sendsMessages_of_sent rfl

section
variable {p : Platform}

/-- Every operation of the server sends messages only. -/
theorem sendsMessages_step {s s' : Server} {op : Server.Op} (hwf : s.WellFormed p)
    (hs : Server.Step p s op s') : sendsMessages.rel s.world s'.world :=
  allowsServer_sendsMessages.step hwf hs

/-- And so does the login filter. -/
theorem runFilters_sendsMessages (session : SessionRef) (cmd : Cmd) : Within sendsMessages
    (ProtoWebSocketHandler.runFilters session cmd [loginFilter] true) :=
  .bind (LoginFilter.filter_within allowsEntering_sendsMessages.toAllowsSending session cmd)
    fun _ => .ite (.pure _) (.pure _)

end

/-! ## The runs of the server -/

namespace Net

/-- What the server has sent in a transition. -/
def sent (t : Transition Net Op) : List (SessionRef × Data) :=
  t.after.server.world.sent.drop t.before.server.world.sent.length

/-- Each frame that is written in the transition parses as a package group. -/
def OnlyPackageGroups (t : Transition Net Op) : Prop :=
  ∀ x ∈ sent t, ∀ bytes, x.2.encode = some bytes → ∃ msg, packageGroup.parseFrom bytes = some msg

/-- If the transition receives a frame, then its bytes are a command, or the answer cannot be
sent. -/
def ReceivesCommand (t : Transition Net Op) : Prop :=
  ∀ session bytes, t.label = .receive session bytes → Cmd.parseFrom bytes ≠ none ∨
    t.before.server.world.sendFails t.before.server.world.sends = true

section
variable {p : Platform} {t : Transition Net Op}

/-- A transition that sends messages only writes package groups only. -/
theorem onlyPackageGroups_of_sendsMessages
    (h : sendsMessages.rel t.before.server.world t.after.server.world) :
    OnlyPackageGroups t := by
  obtain ⟨more, hsent, hmore⟩ := h
  intro x hx bytes hbytes
  rw [sent, hsent, List.drop_left] at hx
  obtain ⟨msg, hmsg⟩ := hmore x hx
  rw [hmsg] at hbytes
  exact ⟨msg, parseFrom_encode_message hbytes⟩

/-- Receiving a command sends messages only. -/
theorem read_sendsMessages {session : SessionRef} {bytes : ByteString} {cmd : Cmd} (n : Net)
    (h : Cmd.parseFrom bytes = some cmd) : sendsMessages.rel n.server.world
      (endState (ProtoWebSocketHandler.read [loginFilter] session bytes) n).server.world := by
  have hfilters := runFilters_sendsMessages session cmd n.server.world
  cases hrun : ProtoWebSocketHandler.runFilters session cmd [loginFilter] true n.server.world with
  | ok passes w =>
    rw [endState_ok hrun] at hfilters
    cases passes with
    | true => rw [read_passed h hrun]; exact hfilters
    | false => rw [read_stopped h hrun]; exact hfilters
  | error e w =>
    rw [endState_error hrun] at hfilters
    rw [read_thrown h hrun]
    exact sendsMessages.trans hfilters (sendsMessages_of_sent rfl)

/-- The exact condition for the receipt of a frame. -/
theorem onlyPackageGroups_receive {n n' : Net} {session : SessionRef} {bytes : ByteString}
    (hs : Step p [loginFilter] n (.receive session bytes) n') :
    OnlyPackageGroups ⟨n, .receive session bytes, n'⟩ ↔
      ReceivesCommand ⟨n, .receive session bytes, n'⟩ := by
  have hn : n' = endState (ProtoWebSocketHandler.read [loginFilter] session bytes) n := hs
  cases hparse : Cmd.parseFrom bytes with
  | some cmd =>
    refine iff_of_true (onlyPackageGroups_of_sendsMessages ?_) fun session' bytes' hl => ?_
    · dsimp only
      rw [hn]
      exact read_sendsMessages n hparse
    · cases hl
      exact .inl (by rw [hparse]; exact Option.some_ne_none cmd)
  | none =>
    cases hsend : n.server.world.sendFails n.server.world.sends with
    | true =>
      refine iff_of_true (onlyPackageGroups_of_sendsMessages ?_) fun session' bytes' hl =>
        .inr hsend
      dsimp only
      rw [hn, read_malformed_error hparse hsend]
      exact sendsMessages_of_sent rfl
    | false =>
      refine iff_of_false (fun h => ?_) fun h => ?_
      · have hsent : (session, Data.object "error") ∈ sent ⟨n, .receive session bytes, n'⟩ := by
          rw [sent]
          dsimp only
          rw [hn, read_malformed hparse hsend]
          simp
        obtain ⟨msg, hmsg⟩ := h _ hsent _ rfl
        rw [parseFrom_serialize] at hmsg
        cases hmsg
      · rcases h session bytes rfl with h | h
        · exact h hparse
        · exact absurd (hsend.symm.trans h) Bool.false_ne_true

/-- What the server does when it receives nothing sends messages only. -/
theorem sendsMessages_of_ne_receive {n n' : Net} {op : Op} (hwf : n.server.WellFormed p)
    (hs : Step p [loginFilter] n op n') (hop : ∀ session bytes, op ≠ .receive session bytes) :
    sendsMessages.rel n.server.world n'.server.world := by
  cases op with
  | receive session bytes => exact absurd rfl (hop session bytes)
  | background b =>
    obtain ⟨-, hserver⟩ := endState_background (p := p) (n := n) b
    have hn : n' = endState (inServer (b.run p)) n := hs
    rw [← hn] at hserver
    exact sendsMessages_step hwf hserver
  | execute i =>
    cases htask : n.tasks[i]? with
    | none =>
      have hn : n' = n := Eq.trans hs (endState_execute_none htask)
      rw [hn]
      exact sendsMessages.refl _
    | some task =>
      obtain ⟨-, hserver⟩ := endState_execute (p := p) htask
      have hn : n' = endState (execute p i) n := hs
      rw [← hn] at hserver
      exact sendsMessages_step hwf hserver

/-- The exact condition for one transition from a well-formed server. -/
theorem onlyPackageGroups_step (hwf : t.before.server.WellFormed p)
    (hs : Step p [loginFilter] t.before t.label t.after) :
    OnlyPackageGroups t ↔ ReceivesCommand t := by
  obtain ⟨n, op, n'⟩ := t
  by_cases hop : ∃ session bytes, op = .receive session bytes
  · obtain ⟨session, bytes, rfl⟩ := hop
    exact onlyPackageGroups_receive hs
  · have hne : ∀ session bytes, op ≠ .receive session bytes := fun session bytes ho =>
      hop ⟨session, bytes, ho⟩
    exact iff_of_true
      (onlyPackageGroups_of_sendsMessages (sendsMessages_of_ne_receive hwf hs hne))
      fun session bytes hl => absurd hl (hne session bytes)

/-- In every run, a transition writes nothing but package groups exactly when it receives no
malformed frame that can be answered. -/
theorem onlyPackageGroups_iff {remoteAddress : SessionRef → Option String} {sendFails : Nat → Bool}
    {roomCapacity : Int} {m : WorkerManager RoomRef} {ts : List (Transition Net Op)} {n : Net}
    (hr : Run (Step p [loginFilter])
      (initial (.initial (.initial remoteAddress sendFails) roomCapacity m)) ts n) :
    ∀ t ∈ ts, OnlyPackageGroups t ↔ ReceivesCommand t := by
  intro t ht
  obtain ⟨us, vs, rfl, hrun, hs⟩ := hr.mem ht
  exact onlyPackageGroups_step (run_gated (List.mem_singleton.2 rfl) hrun).wellFormed hs

end

/-- A frame of one byte, which is no command, is answered with a serialized string. -/
theorem onlyPackageGroups_counterexample :
    ∃ t ∈ transitions .standard [loginFilter] (initial .start) [.receive 0 [0]],
      (sent t).map (·.2.encode) =
          [some [0xAC, 0xED, 0, 5, 0x74, 0, 5, 101, 114, 114, 111, 114]] ∧
        ¬ OnlyPackageGroups t := by
  refine ⟨_, .head _, by decide, fun h => ?_⟩
  obtain ⟨msg, hmsg⟩ := h (0, .object "error") (.head _) _ rfl
  rw [parseFrom_serialize] at hmsg
  cases hmsg

/-- The answers to alice's LOGIN and CREATE_ROOM are package groups. -/
theorem onlyPackageGroups_iff_alice :
    ∃ t ∈ aliceCreatesRoom, (sent t).length = 2 ∧ OnlyPackageGroups t := by
  have hr : Run (Step .standard [loginFilter]) (initial .start) aliceCreatesRoom _ :=
    run_transitions .standard _ _ _
  have hmem : aliceCreatesRoom.get ⟨3, by decide⟩ ∈ aliceCreatesRoom := List.get_mem _ _
  have hlabel : (aliceCreatesRoom.get ⟨3, by decide⟩).label = .execute 0 := rfl
  refine ⟨_, hmem, by decide +kernel,
    (onlyPackageGroups_iff hr _ hmem).2 fun session bytes hl => ?_⟩
  rw [hlabel] at hl
  cases hl

end Net

end WebRtcNetty
