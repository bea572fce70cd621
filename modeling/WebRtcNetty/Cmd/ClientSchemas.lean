import WebRtcNetty.Cmd.Messages
import WebRtcNetty.Lib.Proto2.Compat

/-!
# The schemas of the pages

The pages load their own copies of the schema files (`html/proto`). Both sides declare the same
messages, but for the invitations, and a message that one side writes is read by the other. `Client`
has the schemas of the pages, and `agree_iff` says which messages are read as what they are. Those
of all types are but one: the pages have the room data of a `KickOffCharacterResult` under the
number that the server has the character's id under.
-/

namespace WebRtcNetty

open Proto2

/-! ## html/proto -/

namespace Client

/-! Reference: `html/proto/Cmd.proto`. -/

abbrev cmd : Fields :=
  .cons "cmdType" 1 .required .int32 <| .cons "content" 2 .optional .bytes .nil

abbrev resultMessage : Fields :=
  .cons "code" 1 .required .int32 <| .cons "msg" 2 .optional .string .nil

abbrev package : Fields :=
  .cons "resultMsg" 1 .optional (.message resultMessage) <|
  .cons "cmdType" 2 .optional .int32 <|
  .cons "content" 3 .optional .bytes .nil

abbrev packageGroup : Fields :=
  .cons "packages" 1 .repeated (.message package) .nil

/-! Reference: `html/proto/Entity.proto`. -/

abbrev character : Fields :=
  .cons "id" 1 .optional .string <|
  .cons "nickName" 2 .optional .string <|
  .cons "remoteAddress" 3 .optional .string .nil

abbrev roomData : Fields :=
  .cons "id" 1 .optional .int32 <|
  .cons "isClosed" 2 .optional .bool <|
  .cons "hasAudio" 3 .optional .bool <|
  .cons "hasVideo" 4 .optional .bool <|
  .cons "master" 5 .optional .string <|
  .cons "characters" 6 .repeated (.message character) .nil

/-! Reference: `html/proto/UserCmd.proto`. -/

abbrev login : Fields :=
  .cons "userId" 1 .required .string <| .cons "password" 2 .required .string .nil

abbrev loginResult : Fields :=
  .cons "roomData" 1 .optional (.message roomData) .nil

abbrev logout : Fields := .nil

abbrev logoutResult : Fields :=
  .cons "logoutUserId" 1 .required .string .nil

abbrev createRoom : Fields :=
  .cons "userId" 1 .required .string <|
  .cons "hasAudio" 2 .optional .bool <|
  .cons "hasVideo" 3 .optional .bool .nil

abbrev createRoomResult : Fields :=
  .cons "roomId" 1 .required .int64 <|
  .cons "roomData" 2 .optional (.message roomData) .nil

abbrev closeRoom : Fields := .nil

abbrev closeRoomResult : Fields := .nil

abbrev kickOffCharacter : Fields :=
  .cons "characterId" 1 .required .string .nil

abbrev kickOffCharacterResult : Fields :=
  .cons "roomData" 1 .optional (.message roomData) .nil

abbrev enterRoom : Fields :=
  .cons "userId" 1 .required .string <| .cons "roomId" 2 .required .int64 .nil

abbrev enterRoomResult : Fields :=
  .cons "roomId" 1 .optional .int64 <|
  .cons "roomData" 2 .optional (.message roomData) .nil

abbrev startChatting : Fields := .nil

abbrev startChattingResult : Fields := .nil

end Client

/-! ## Messages between the sides -/

/-- The message types that both sides declare. -/
inductive MessageType
  | cmd
  | resultMessage
  | package
  | packageGroup
  | character
  | roomData
  | login
  | loginResult
  | logout
  | logoutResult
  | createRoom
  | createRoomResult
  | closeRoom
  | closeRoomResult
  | kickOffCharacter
  | kickOffCharacterResult
  | enterRoom
  | enterRoomResult
  | startChatting
  | startChattingResult

/-- Who writes or reads a message. -/
inductive Side
  | server
  | client

/-- The side that reads what a side writes. -/
def Side.other : Side → Side
  | .server => .client
  | .client => .server

/-- The schema that a side has for a message type. -/
@[reducible] def schema : Side → MessageType → Fields
  | .server, .cmd => Command.cmd
  | .server, .resultMessage => Command.resultMessage
  | .server, .package => Command.package
  | .server, .packageGroup => Command.packageGroup
  | .server, .character => Entity.character
  | .server, .roomData => Entity.roomData
  | .server, .login => UserCmd.login
  | .server, .loginResult => UserCmd.loginResult
  | .server, .logout => UserCmd.logout
  | .server, .logoutResult => UserCmd.logoutResult
  | .server, .createRoom => UserCmd.createRoom
  | .server, .createRoomResult => UserCmd.createRoomResult
  | .server, .closeRoom => UserCmd.closeRoom
  | .server, .closeRoomResult => UserCmd.closeRoomResult
  | .server, .kickOffCharacter => UserCmd.kickOffCharacter
  | .server, .kickOffCharacterResult => UserCmd.kickOffCharacterResult
  | .server, .enterRoom => UserCmd.enterRoom
  | .server, .enterRoomResult => UserCmd.enterRoomResult
  | .server, .startChatting => UserCmd.startChatting
  | .server, .startChattingResult => UserCmd.startChattingResult
  | .client, .cmd => Client.cmd
  | .client, .resultMessage => Client.resultMessage
  | .client, .package => Client.package
  | .client, .packageGroup => Client.packageGroup
  | .client, .character => Client.character
  | .client, .roomData => Client.roomData
  | .client, .login => Client.login
  | .client, .loginResult => Client.loginResult
  | .client, .logout => Client.logout
  | .client, .logoutResult => Client.logoutResult
  | .client, .createRoom => Client.createRoom
  | .client, .createRoomResult => Client.createRoomResult
  | .client, .closeRoom => Client.closeRoom
  | .client, .closeRoomResult => Client.closeRoomResult
  | .client, .kickOffCharacter => Client.kickOffCharacter
  | .client, .kickOffCharacterResult => Client.kickOffCharacterResult
  | .client, .enterRoom => Client.enterRoom
  | .client, .enterRoomResult => Client.enterRoomResult
  | .client, .startChatting => Client.startChatting
  | .client, .startChattingResult => Client.startChattingResult

/-- The bytes are an encoding of the room data, as they stand in another message. -/
def EncodesRoomData (bs : ByteString) (d : Entity.roomData.Val) : Prop :=
  Entity.roomData.parseNested bs = some d

/-- The message is no `KickOffCharacterResult`, or it is one of the server's that has neither an id
nor room data, or whose id is an encoding of its room data, or one of a page without room data. -/
def Readable : (side : Side) → (t : MessageType) → Message (schema side t) → Prop
  | .server, .kickOffCharacterResult, m =>
    (m.val.1 = none ∧ m.val.2.1 = none) ∨
      ∃ id d, m.val.1 = some id ∧ m.val.2.1 = some d ∧ EncodesRoomData id d
  | .client, .kickOffCharacterResult, m => m.val.1 = none
  | _, _, _ => True

/-- The schemas of both sides are compatible, but for one type. The room data of a `Logout` and of a
`StartChattingResult` is the server's alone. -/
theorem compatible (side : Side) {t : MessageType} (ht : t ≠ .kickOffCharacterResult) :
    (schema side t).Compatible (schema side.other t) := by
  have hnew : Fields.Compatible .nil
      (.cons "roomData" 1 .optional (.message Entity.roomData) .nil) :=
    fun name n label t hd => .inr ⟨List.not_mem_nil, List.not_mem_nil, by
      rcases hd with ⟨-, -, rfl, -⟩ | hd
      · decide
      · exact hd.elim⟩
  cases t with
  | kickOffCharacterResult => exact absurd rfl ht
  | logout =>
    cases side with
    | server => exact Fields.compatible_nil _
    | client => exact hnew
  | startChattingResult =>
    cases side with
    | server => exact Fields.compatible_nil _
    | client => exact hnew
  | _ => cases side <;> exact Fields.compatible_self _

/-- Every schema is well formed, with different names, and no deeper than a parser goes. -/
theorem schema_wf (side : Side) (t : MessageType) : (schema side t).wf = true ∧
    (schema side t).names.Nodup ∧ (schema side t).depth ≤ recursionLimit := by
  cases side <;> cases t <;> decide

/-! ## KickOffCharacterResult -/

section
variable {id : Option ByteString} {d d' : Option Entity.roomData.Val}

/-- A page has no field for the id, and so reads what it should when it reads the room data. -/
theorem agrees_client : Fields.Agrees UserCmd.kickOffCharacterResult Client.kickOffCharacterResult
    (id, d, ()) (d', ()) ↔ d = d' := by
  have hserver : UserCmd.kickOffCharacterResult.get (id, d, ()) "roomData" =
      some ⟨.message Entity.roomData, d.toList⟩ :=
    (Fields.get_of_ne _ _ (by decide)).trans (Fields.get_self _ _)
  have hclient : Client.kickOffCharacterResult.get (d', ()) "roomData" =
      some ⟨.message Entity.roomData, d'.toList⟩ := Fields.get_self _ _
  constructor
  · intro h
    have hshared := h.shared "roomData" (by decide) (by decide)
    rw [hserver, hclient] at hshared
    exact (toList_inj_of_get hshared).symm
  · rintro rfl
    refine ⟨fun name _ hname => ?_, fun name hname hnot => ?_⟩
    · rw [List.mem_singleton.1 hname, hserver, hclient]
    · rw [List.mem_singleton.1 hname] at hnot
      exact absurd hnot (by decide)

/-- The server reads what it should when it reads the room data and no id. -/
theorem agrees_server : Fields.Agrees Client.kickOffCharacterResult UserCmd.kickOffCharacterResult
    (d, ()) (id, d', ()) ↔ d = d' ∧ id = none := by
  have hserver : UserCmd.kickOffCharacterResult.get (id, d', ()) "roomData" =
      some ⟨.message Entity.roomData, d'.toList⟩ :=
    (Fields.get_of_ne _ _ (by decide)).trans (Fields.get_self _ _)
  have hid : UserCmd.kickOffCharacterResult.get (id, d', ()) "kickOffCharacterId" =
      some ⟨.string, id.toList⟩ := Fields.get_self _ _
  have hclient : Client.kickOffCharacterResult.get (d, ()) "roomData" =
      some ⟨.message Entity.roomData, d.toList⟩ := Fields.get_self _ _
  constructor
  · intro h
    have hshared := h.shared "roomData" (by decide) (by decide)
    obtain ⟨t, hnone⟩ := h.others "kickOffCharacterId" (by decide) (by decide)
    rw [hserver, hclient] at hshared
    rw [hid] at hnone
    cases id with
    | some bs => cases hnone
    | none => exact ⟨(toList_inj_of_get hshared).symm, rfl⟩
  · rintro ⟨rfl, rfl⟩
    refine ⟨fun name hname _ => ?_, fun name hname hnot => ?_⟩
    · rw [List.mem_singleton.1 hname, hserver, hclient]
    · simp only [Fields.names, List.mem_cons, List.not_mem_nil, or_false] at hname
      rcases hname with rfl | rfl
      · exact ⟨.string, hid⟩
      · exact absurd (by decide) hnot

/-- A page reads the id as the room data, and skips the room data. -/
theorem decode_client_none : Client.kickOffCharacterResult.decode recursionLimit
    (UserCmd.kickOffCharacterResult.encode (none, d, ())) = some (none, ()) := by
  cases d with
  | none => rfl
  | some d => rfl

/-- A page reads the id of the character as the room data. -/
theorem decode_client_some (bs : ByteString) : Client.kickOffCharacterResult.decode recursionLimit
    (UserCmd.kickOffCharacterResult.encode (some bs, d, ())) =
      (Client.roomData.parseNested bs).map fun d => (some d, ()) := by
  have hfilter : (UserCmd.kickOffCharacterResult.encode (some bs, d, ())).filter (·.number = 1) =
      [⟨1, .lengthDelimited bs⟩] := by
    cases d with
    | none => rfl
    | some d => rfl
  rw [Fields.decode, hfilter, List.mapM_cons, List.mapM_nil, FieldType.decode_message]
  cases Client.roomData.parseNested bs with
  | none => rfl
  | some d => rfl

/-- The server reads the room data as the id. -/
theorem decode_server : UserCmd.kickOffCharacterResult.decode recursionLimit
    (Client.kickOffCharacterResult.encode (d, ())) =
      some (d.map Entity.roomData.toByteArray, none, ()) := by
  cases d with
  | none => rfl
  | some d => rfl

/-- What a page reads of a `KickOffCharacterResult`. -/
theorem client_reads_iff : (∃ w, Client.kickOffCharacterResult.decode recursionLimit
      (UserCmd.kickOffCharacterResult.encode (id, d, ())) = some w ∧
        Fields.Agrees UserCmd.kickOffCharacterResult Client.kickOffCharacterResult (id, d, ()) w) ↔
    (id = none ∧ d = none) ∨ ∃ bs d', id = some bs ∧ d = some d' ∧ EncodesRoomData bs d' := by
  cases id with
  | none =>
    rw [decode_client_none]
    constructor
    · rintro ⟨w, hw, hagrees⟩
      cases hw
      exact .inl ⟨rfl, agrees_client.1 hagrees⟩
    · rintro (⟨-, hd⟩ | ⟨bs, d', hid, -⟩)
      · exact ⟨_, rfl, agrees_client.2 hd⟩
      · cases hid
  | some bs =>
    rw [decode_client_some]
    constructor
    · rintro ⟨w, hw, hagrees⟩
      obtain ⟨d', hd', rfl⟩ := Option.map_eq_some_iff.1 hw
      exact .inr ⟨bs, d', rfl, agrees_client.1 hagrees, hd'⟩
    · rintro (⟨hid, -⟩ | ⟨bs', d', hid, hd, hd'⟩)
      · cases hid
      · cases hid
        exact ⟨_, Option.map_eq_some_iff.2 ⟨d', hd', rfl⟩, agrees_client.2 hd⟩

/-- What the server reads of one. -/
theorem server_reads_iff : (∃ w, UserCmd.kickOffCharacterResult.decode recursionLimit
      (Client.kickOffCharacterResult.encode (d, ())) = some w ∧
        Fields.Agrees Client.kickOffCharacterResult UserCmd.kickOffCharacterResult (d, ()) w) ↔
    d = none := by
  rw [decode_server]
  constructor
  · rintro ⟨w, hw, hagrees⟩
    cases hw
    exact (agrees_server.1 hagrees).1
  · rintro rfl
    exact ⟨_, rfl, agrees_server.2 ⟨rfl, rfl⟩⟩

end

/-! ## What is read -/

/-- What one side writes is read by the other side as what it is exactly when it is no
`KickOffCharacterResult`, or its id, if it has one, is an encoding of its room data. -/
theorem agree_iff (side : Side) (t : MessageType) (m : Message (schema side t))
    (hlen : ((schema side t).toByteArray m.val).length < 2 ^ 31) :
    (schema side t).DecodesAs (schema side.other t) m ↔ Readable side t m := by
  obtain ⟨hwf, hnames, hdepth⟩ := schema_wf side t
  by_cases ht : t = .kickOffCharacterResult
  · subst ht
    cases side with
    | server =>
      obtain ⟨⟨id, d, ⟨⟩⟩, hinit⟩ := m
      exact (Fields.decodesAs_iff (by decide) hwf _ hlen).trans client_reads_iff
    | client =>
      obtain ⟨⟨d, ⟨⟩⟩, hinit⟩ := m
      exact (Fields.decodesAs_iff (by decide) hwf _ hlen).trans server_reads_iff
  · refine iff_of_true
      (Fields.decodesAs_of_compatible (compatible side ht) hwf hnames hdepth m hlen) ?_
    cases side <;> cases t <;> trivial

/-- The notice that bob has been kicked off. -/
def bobKickedOff : Message UserCmd.kickOffCharacterResult := ⟨(some [98, 111, 98], none, ()), rfl⟩

/-- A page cannot read it. -/
theorem agree_counterexample :
    (UserCmd.kickOffCharacterResult.toByteArray bobKickedOff.val).length < 2 ^ 31 ∧
      ¬ (schema .server .kickOffCharacterResult).DecodesAs
        (schema .client .kickOffCharacterResult) bobKickedOff := by
  refine ⟨by decide +kernel, ?_⟩
  rintro ⟨m', hm', -⟩
  have hnone : Client.kickOffCharacterResult.parseFrom
      (UserCmd.kickOffCharacterResult.toByteArray bobKickedOff.val) = none := rfl
  cases hnone.symm.trans hm'

/-- Alice's LOGIN. -/
def aliceLogin : Message Client.login := ⟨(some [97, 108, 105, 99, 101], some [], ()), rfl⟩

/-- The server reads it. -/
theorem agree_iff_login : Client.login.DecodesAs UserCmd.login aliceLogin :=
  (agree_iff .client .login aliceLogin (by decide +kernel)).2 trivial

end WebRtcNetty
