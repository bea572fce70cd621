import WebRtcNetty.Lib.Java.Platform
import WebRtcNetty.Lib.Proto2.Schema

/-!
# Commands and messages

The command types, the result codes and the messages of the protocol (`cmd/src/main/proto`), with
the accessors of the generated classes that the server uses. References name Java classes of
`org.cn.monkey`, or the schema files.
-/

namespace WebRtcNetty

open Java Proto2

/-! ## Constants -/

namespace CmdType

/-! Reference: `CmdType` (`CmdType.java:3`). -/

def login : BitVec 32 := 200
def loginOut : BitVec 32 := 201
def kickOff : BitVec 32 := 300
def removeCharacter : BitVec 32 := 301
def createRoom : BitVec 32 := 400
def enterRoom : BitVec 32 := 401
def invite : BitVec 32 := 402
def closeRoom : BitVec 32 := 403
def startChatting : BitVec 32 := 404

end CmdType

namespace ResultCode

/-! Reference: `ResultCode` (`ResultCode.java:3`). -/

def ok : BitVec 32 := 200
def fail : BitVec 32 := 400
def error : BitVec 32 := 500

end ResultCode

/-! ## Cmd.proto -/

namespace Command

/-- Reference: `message Cmd` (`Cmd.proto:8`). -/
abbrev cmd : Fields :=
  .cons "cmdType" 1 .required .int32 <| .cons "content" 2 .optional .bytes .nil

/-- Reference: `message ResultMessage` (`Cmd.proto:13`). -/
abbrev resultMessage : Fields :=
  .cons "code" 1 .required .int32 <| .cons "msg" 2 .optional .string .nil

/-- Reference: `message Package` (`Cmd.proto:18`). -/
abbrev package : Fields :=
  .cons "resultMsg" 1 .optional (.message resultMessage) <|
  .cons "cmdType" 2 .optional .int32 <|
  .cons "content" 3 .optional .bytes .nil

/-- Reference: `message PackageGroup` (`Cmd.proto:24`). -/
abbrev packageGroup : Fields :=
  .cons "packages" 1 .repeated (.message package) .nil

abbrev Cmd := Message cmd
abbrev PackageGroup := Message packageGroup

def Cmd.parseFrom (bs : ByteString) : Option Cmd := cmd.parseFrom bs

/-- Reference: `Cmd.getCmdType` (`Command.java:147`). -/
def Cmd.getCmdType (c : Cmd) : BitVec 32 := c.val.1.getD 0

/-- Reference: `Cmd.getContent` (`Command.java:163`). -/
def Cmd.getContent (c : Cmd) : ByteString := c.val.2.1.getD []

/-- The command with the given type and content, as a client builds it. -/
def Cmd.of (cmdType : BitVec 32) (content : ByteString) : Cmd where
  val := (some cmdType, some content, ())
  initialized := rfl

theorem packageGroup_wf : packageGroup.wf = true := by decide

theorem packageGroup_depth : packageGroup.depth ≤ recursionLimit := by decide

end Command

/-! ## Entity.proto -/

namespace Entity

/-- Reference: `message Character` (`Entity.proto:9`). -/
abbrev character : Fields :=
  .cons "id" 1 .optional .string <|
  .cons "nickName" 2 .optional .string <|
  .cons "remoteAddress" 3 .optional .string .nil

/-- Reference: `message RoomData` (`Entity.proto:17`). -/
abbrev roomData : Fields :=
  .cons "id" 1 .optional .int32 <|
  .cons "isClosed" 2 .optional .bool <|
  .cons "hasAudio" 3 .optional .bool <|
  .cons "hasVideo" 4 .optional .bool <|
  .cons "master" 5 .optional .string <|
  .cons "characters" 6 .repeated (.message character) .nil

end Entity

/-! ## UserCmd.proto -/

namespace UserCmd

/-- Reference: `message Login` (`UserCmd.proto:10`). -/
abbrev login : Fields :=
  .cons "userId" 1 .required .string <| .cons "password" 2 .required .string .nil

/-- Reference: `message LoginResult` (`UserCmd.proto:15`). -/
abbrev loginResult : Fields :=
  .cons "roomData" 1 .optional (.message Entity.roomData) .nil

/-- Reference: `message Logout` (`UserCmd.proto:19`). -/
abbrev logout : Fields :=
  .cons "roomData" 1 .optional (.message Entity.roomData) .nil

/-- Reference: `message LogoutResult` (`UserCmd.proto:23`). -/
abbrev logoutResult : Fields :=
  .cons "logoutUserId" 1 .required .string .nil

/-- Reference: `message CreateRoom` (`UserCmd.proto:27`). -/
abbrev createRoom : Fields :=
  .cons "userId" 1 .required .string <|
  .cons "hasAudio" 2 .optional .bool <|
  .cons "hasVideo" 3 .optional .bool .nil

/-- Reference: `message CreateRoomResult` (`UserCmd.proto:33`). -/
abbrev createRoomResult : Fields :=
  .cons "roomId" 1 .required .int64 <|
  .cons "roomData" 2 .optional (.message Entity.roomData) .nil

/-- Reference: `message CloseRoom` (`UserCmd.proto:38`). -/
abbrev closeRoom : Fields := .nil

/-- Reference: `message CloseRoomResult` (`UserCmd.proto:42`). -/
abbrev closeRoomResult : Fields := .nil

/-- Reference: `message KickOffCharacter` (`UserCmd.proto:45`). -/
abbrev kickOffCharacter : Fields :=
  .cons "characterId" 1 .required .string .nil

/-- Reference: `message KickOffCharacterResult` (`UserCmd.proto:49`). -/
abbrev kickOffCharacterResult : Fields :=
  .cons "kickOffCharacterId" 1 .optional .string <|
  .cons "roomData" 2 .optional (.message Entity.roomData) .nil

/-- Reference: `message EnterRoom` (`UserCmd.proto:54`). -/
abbrev enterRoom : Fields :=
  .cons "userId" 1 .required .string <| .cons "roomId" 2 .required .int64 .nil

/-- Reference: `message EnterRoomResult` (`UserCmd.proto:59`). -/
abbrev enterRoomResult : Fields :=
  .cons "roomId" 1 .optional .int64 <|
  .cons "roomData" 2 .optional (.message Entity.roomData) .nil

/-- Reference: `message StartChatting` (`UserCmd.proto:64`). -/
abbrev startChatting : Fields := .nil

/-- Reference: `message StartChattingResult` (`UserCmd.proto:67`). -/
abbrev startChattingResult : Fields :=
  .cons "roomData" 1 .optional (.message Entity.roomData) .nil

/-- Reference: `message InviteCharacter` (`UserCmd.proto:71`). -/
abbrev inviteCharacter : Fields :=
  .cons "roomId" 1 .optional .int64 <| .cons "characterId" 2 .optional .string .nil

/-- Reference: `message InviteCharacterResult` (`UserCmd.proto:76`). -/
abbrev inviteCharacterResult : Fields := .nil

/-! A string field that is not set reads as the empty string. -/

/-- Reference: `Login.getUserId` (`UserCmd.java:157`). -/
def Login.getUserId (p : Platform) (m : Message login) : String := p.decodeUtf8 (m.val.1.getD [])

/-- Reference: `CreateRoom.getHasAudio` (`UserCmd.java:2346`). -/
def CreateRoom.getHasAudio (m : Message createRoom) : Bool := m.val.2.1.getD false

/-- Reference: `CreateRoom.getHasVideo` (`UserCmd.java:2362`). -/
def CreateRoom.getHasVideo (m : Message createRoom) : Bool := m.val.2.2.1.getD false

/-- Reference: `KickOffCharacter.getCharacterId` (`UserCmd.java:4128`). -/
def KickOffCharacter.getCharacterId (p : Platform) (m : Message kickOffCharacter) : String :=
  p.decodeUtf8 (m.val.1.getD [])

/-- Reference: `EnterRoom.getUserId` (`UserCmd.java:5285`). -/
def EnterRoom.getUserId (p : Platform) (m : Message enterRoom) : String :=
  p.decodeUtf8 (m.val.1.getD [])

/-- Reference: `EnterRoom.getRoomId` (`UserCmd.java:5328`). -/
def EnterRoom.getRoomId (m : Message enterRoom) : BitVec 64 := m.val.2.1.getD 0

/-- Reference: `InviteCharacter.getRoomId` (`UserCmd.java:7257`). -/
def InviteCharacter.getRoomId (m : Message inviteCharacter) : BitVec 64 := m.val.1.getD 0

/-- Reference: `InviteCharacter.getCharacterId` (`UserCmd.java:7273`). -/
def InviteCharacter.getCharacterId (p : Platform) (m : Message inviteCharacter) : String :=
  p.decodeUtf8 (m.val.2.1.getD [])

end UserCmd

end WebRtcNetty
