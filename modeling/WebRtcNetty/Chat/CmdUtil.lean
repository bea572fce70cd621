import WebRtcNetty.Chat.RoomData

/-!
# Building replies

`CmdUtil` (`chat-server/.../util/CmdUtil.java`): the messages that the server sends, each a package
group of one package, with a result code, a message, a command type and an encoded result message.
A builder throws where it builds a message whose required fields are not set.
-/

namespace WebRtcNetty

open Java Proto2

/-- `builder.build()`. -/
def build (fs : Fields) (v : fs.Val) : Except Throwable (Message fs) :=
  match fs.build v with
  | some m => .ok m
  | none => .error ⟨"UninitializedMessageException"⟩

/-- `Strings.isNullOrEmpty(s)`. -/
def isNullOrEmpty (s : Option String) : Bool := s.getD "" == ""

/-- A string as an operand of string concatenation. -/
def stringOf (s : Option String) : String := s.getD "null"

namespace CmdUtil

/-- Reference: `packageGroup` (`CmdUtil.java:18`), of packages that are not null. -/
def packageGroup (packages : List (Message Command.package)) : Command.PackageGroup where
  val := (packages.map (·.val), ())
  initialized := by
    simp only [Fields.isInitialized, Bool.and_true, List.all_map]
    exact List.all_eq_true.2 fun m _ => m.initialized

/-- Reference: `resultMsg` (`CmdUtil.java:28`). -/
def resultMsg (resultCode : BitVec 32) (msg : Option String) : Message Command.resultMessage where
  val := (some resultCode, if isNullOrEmpty msg then none else msg.map utf8Bytes, ())
  initialized := by simp [Fields.isInitialized, FieldType.isInitialized]

/-- Reference: `pkg` (`CmdUtil.java:36`). -/
def pkg (resultCode : BitVec 32) (msg : Option String) (cmdType : BitVec 32)
    (content : Option ByteString) : Message Command.package where
  val := (some (resultMsg resultCode msg).val, if (0#32).slt cmdType then some cmdType else none,
    content, ())
  initialized := by simp [resultMsg, Fields.isInitialized, FieldType.isInitialized]

/-- Reference: `errorMsg` (`CmdUtil.java:47`, `state/util/CmdUtil.java:41`). -/
def errorMsg (msg : Option String) (cmdType : BitVec 32) : Command.PackageGroup :=
  packageGroup [pkg ResultCode.error msg cmdType none]

/-- A result whose content is a message of the given type with no field set. -/
def emptyResult (fs : Fields) (cmdType resultCode : BitVec 32) (msg : Option String) :
    Except Throwable Command.PackageGroup := do
  let content ← build fs fs.newBuilder
  return packageGroup [pkg resultCode msg cmdType (fs.toByteArray content.val)]

/-- Reference: `logoutResult` (`CmdUtil.java:51`). -/
def logoutResult : BitVec 32 → Option String → Except Throwable Command.PackageGroup :=
  emptyResult UserCmd.logoutResult CmdType.loginOut

/-- Reference: `kickOffCharacterResult` (`CmdUtil.java:56`). -/
def kickOffCharacterResult : BitVec 32 → Option String → Except Throwable Command.PackageGroup :=
  emptyResult UserCmd.kickOffCharacterResult CmdType.kickOff

/-- Reference: `loginResult` (`CmdUtil.java:135`). -/
def loginResult : BitVec 32 → Option String → Except Throwable Command.PackageGroup :=
  emptyResult UserCmd.loginResult CmdType.login

/-- Reference: `closeRoomResult` (`CmdUtil.java:140`). -/
def closeRoomResult : BitVec 32 → Option String → Except Throwable Command.PackageGroup :=
  emptyResult UserCmd.closeRoomResult CmdType.closeRoom

/-- Reference: `startChatResult` (`CmdUtil.java:145`). -/
def startChatResult : BitVec 32 → Option String → Except Throwable Command.PackageGroup :=
  emptyResult UserCmd.startChatting CmdType.startChatting

/-- Reference: `inviteCharacterResult` (`CmdUtil.java:150`). -/
def inviteCharacterResult : BitVec 32 → Option String → Except Throwable Command.PackageGroup :=
  emptyResult UserCmd.inviteCharacterResult CmdType.invite

/-- The code and the message are not used. Reference: `unsupportedCmdType` (`CmdUtil.java:110`). -/
def unsupportedCmdType (_errorCode : BitVec 32) (_msg : Option String) (cmdType : BitVec 32) :
    Command.PackageGroup :=
  packageGroup [pkg ResultCode.error "无效的命令" cmdType none]

/-- A character's entry in a snapshot; `none` where it has no id or no address. Reference:
`character` (`CmdUtil.java:65`). -/
def character (c : Character) : Exec World (Option Entity.character.Val) := do
  let id := c.getId
  if isNullOrEmpty id then
    return none
  let remoteAddress ← c.getRemoteAddress
  if isNullOrEmpty remoteAddress then
    return none
  let nickName := c.getNickName
  return some (some (utf8Bytes id),
    if isNullOrEmpty nickName then none else nickName.map utf8Bytes,
    some (utf8Bytes remoteAddress), ())

/-- The entries of the characters of a snapshot. Reference: `createRoomResult` and `enterRoomResult`
(`CmdUtil.java:93-99`, `CmdUtil.java:118-124`). -/
def characters : List Character → Exec World (List Entity.character.Val)
  | [] => return []
  | c :: cs => do
    let protoCharacter ← character c
    let rest ← characters cs
    return protoCharacter.toList ++ rest

/-- The snapshot of a room. Reference: `createRoomResult` and `enterRoomResult`
(`CmdUtil.java:92-103`, `CmdUtil.java:117-128`), which build it in the same way. -/
def roomSnapshot (p : Platform) (roomData : RoomData) : Exec World Entity.roomData.Val := do
  let w ← get
  let cs ← characters (roomData.characterSet p w)
  return (none, some roomData.isClosed, some roomData.hasAudio, some roomData.hasVideo,
    some (utf8Bytes roomData.master.getId), cs, ())

/-- Reference: `createRoomResult` (`CmdUtil.java:86`). The room id, which is required, is set for
the code `OK` only. -/
def createRoomResult (p : Platform) (resultCode : BitVec 32) (msg : Option String)
    (roomId : BitVec 64) (stateData : Option RoomData) : Exec World Command.PackageGroup := do
  let v : UserCmd.createRoomResult.Val ←
    if resultCode = ResultCode.ok then
      match stateData with
      | some roomData => do
        let snapshot ← roomSnapshot p roomData
        pure (some roomId, some snapshot, ())
      | none => pure (some roomId, none, ())
    else
      pure UserCmd.createRoomResult.newBuilder
  let content ← orThrow (build UserCmd.createRoomResult v)
  return packageGroup
    [pkg resultCode msg CmdType.createRoom (UserCmd.createRoomResult.toByteArray content.val)]

/-- Reference: `enterRoomResult` (`CmdUtil.java:114`). -/
def enterRoomResult (p : Platform) (resultCode : BitVec 32) (msg : Option String)
    (roomId : BitVec 64) (roomData : Option RoomData) : Exec World Command.PackageGroup := do
  let v : UserCmd.enterRoomResult.Val ←
    match roomData with
    | some roomData => do
      let snapshot ← roomSnapshot p roomData
      pure (some roomId, some snapshot, ())
    | none => pure (some roomId, none, ())
  let content ← orThrow (build UserCmd.enterRoomResult v)
  return packageGroup
    [pkg resultCode msg CmdType.enterRoom (UserCmd.enterRoomResult.toByteArray content.val)]

end CmdUtil

/-- `character.sendMsg(result)`, where building the result may throw. -/
def Character.sendResult (c : Character) (result : Except Throwable Command.PackageGroup) :
    Exec World Unit := do
  let msg ← orThrow result
  c.sendMsg (.message msg)

/-- `session.send(result)`, where building the result may throw. -/
def Session.sendResult (s : SessionRef) (result : Except Throwable Command.PackageGroup) :
    Exec World Unit := do
  let msg ← orThrow result
  Session.send s (.message msg)

end WebRtcNetty
