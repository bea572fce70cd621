import WebRtcNetty.Server.Server

/-!
# The dispatcher

`WebChatDispatcher`: the handlers of the commands that are not handled by a room, and which handler
a command type selects. A handler catches `InvalidProtocolBufferException` alone, which only its
parse of the content throws, so its body is a match on the result of that parse.
-/

namespace WebRtcNetty

open Java Proto2 Command Server

namespace WebChatDispatcher

variable (p : Platform)

/-- Reference: `invite` (`WebChatDispatcher.java:85`). -/
def invite (session : SessionRef) (cmd : Cmd) : Exec Server Unit := do
  let s ← get
  match Session.getAttribute s.world session with
  | none =>
    inWorld (Session.send session (.message
      (CmdUtil.unsupportedCmdType ResultCode.fail "用户尚未登陆" cmd.getCmdType)))
  | some character =>
    match UserCmd.inviteCharacter.parseFrom cmd.getContent with
    | none =>
      inWorld (Session.sendResult session
        (CmdUtil.inviteCharacterResult ResultCode.error "参数异常"))
    | some inviteCharacter =>
      let roomId := UserCmd.InviteCharacter.getRoomId inviteCharacter
      match RoomStateGroupFactory.find s roomId with
      | none =>
        inWorld (Session.sendResult session (CmdUtil.inviteCharacterResult ResultCode.fail
          ("房间【" ++ toString roomId.toInt ++ "】不存在")))
      | some _ =>
        match ChatterFactory.find s (UserCmd.InviteCharacter.getCharacterId p inviteCharacter) with
        | none =>
          inWorld (Session.sendResult session
            (CmdUtil.inviteCharacterResult ResultCode.fail "用户尚未登录"))
        | some invited => do
          inWorld (Session.sendResult session (CmdUtil.inviteCharacterResult ResultCode.ok ""))
          inWorld (invited.sendResult (CmdUtil.inviteCharacterResult ResultCode.ok
            ("用户:【 " ++ stringOf character.getNickName ++ " 】邀请你")))

/-- The answer of `addCharacterCmd` is not looked at. Reference: `handleOtherCmd`
(`WebChatDispatcher.java:118`). -/
def handleOtherCmd (session : SessionRef) (cmd : Cmd) : Exec Server Unit := do
  let s ← get
  match Session.getAttribute s.world session with
  | none =>
    inWorld (Session.send session (.message
      (CmdUtil.unsupportedCmdType ResultCode.fail "用户尚未登陆" cmd.getCmdType)))
  | some character =>
    let currentRoomId := character.getCurrentRoomId s.world
    match RoomStateGroupFactory.find s currentRoomId with
    | none =>
      inWorld (Session.send session (.message (CmdUtil.unsupportedCmdType ResultCode.fail
        ("房间【" ++ toString currentRoomId.toInt ++ "】不存在") cmd.getCmdType)))
    | some room => do
      let _ ← inRoom room (AbstractStateGroup.addCharacterCmd character cmd)

/-- The end of `createRoom`. Reference: `createRoom` (`WebChatDispatcher.java:151-152`). -/
def replyCreated (session : SessionRef) (room : RoomRef) : Exec Server Unit := do
  let s ← get
  let o := s.rooms room
  let msg ← inWorld (CmdUtil.createRoomResult p ResultCode.ok "房间创建成功" o.group.id o.roomData)
  inWorld (Session.send session (.message msg))

/-- Reference: `createRoom` (`WebChatDispatcher.java:134`). -/
def createRoom (session : SessionRef) (cmd : Cmd) : Exec Server Unit :=
  match UserCmd.createRoom.parseFrom cmd.getContent with
  | none => do
    let msg ← inWorld (CmdUtil.createRoomResult p ResultCode.error "参数异常" (-1) none)
    inWorld (Session.send session (.message msg))
  | some createRoom => do
    let s ← get
    match Session.getAttribute s.world session with
    | none =>
      inWorld (Session.sendResult session
        (CmdUtil.closeRoomResult ResultCode.fail "user has not login"))
    | some character => do
      let config : RoomStateConfig :=
        ⟨UserCmd.CreateRoom.getHasAudio createRoom, UserCmd.CreateRoom.getHasVideo createRoom⟩
      let room ← RoomStateGroupFactory.create p character config
      let _ ← inRoom room (RoomStateGroup.enter p character)
      addStateGroup p room
      replyCreated p session room

/-- The character of a session that enters a room without having one: that of the user id in the
command. Reference: `enterRoom` (`WebChatDispatcher.java:169-176`). -/
def characterOf (session : SessionRef) (userId : String) : Exec Server Character := do
  let s ← get
  match Session.getAttribute s.world session with
  | some character => return character
  | none => do
    let (isNew, character) ← ChatterFactory.findOrCreate session userId
    if isNew then pure () else inWorld (character.setSession session)
    inWorld (Session.setAttribute session character)
    return character

/-- The rest of `enterRoom`, once its session has a character. Reference: `enterRoom`
(`WebChatDispatcher.java:178-187`). -/
def enterRoomAs (session : SessionRef) (roomId : BitVec 64) (character : Character) :
    Exec Server Unit := do
  let s ← get
  match RoomStateGroupFactory.find s roomId with
  | none => do
    let msg ← inWorld (CmdUtil.enterRoomResult p ResultCode.fail "房间号不存在" roomId none)
    inWorld (Session.send session (.message msg))
  | some room => do
    let enterResult ← inRoom room (RoomStateGroup.enter p character)
    if enterResult then pure ()
    else do
      let msg ← inWorld (CmdUtil.enterRoomResult p ResultCode.fail
        ("进入房间【" ++ toString roomId.toInt ++ "】失败") roomId none)
      inWorld (Session.send session (.message msg))

/-- Reference: `enterRoom` (`WebChatDispatcher.java:162`). -/
def enterRoom (session : SessionRef) (cmd : Cmd) : Exec Server Unit :=
  match UserCmd.enterRoom.parseFrom cmd.getContent with
  | none => do
    let msg ← inWorld (CmdUtil.enterRoomResult p ResultCode.error "进入房间失败" (-1) none)
    inWorld (Session.send session (.message msg))
  | some enterRoom => do
    let character ← characterOf session (UserCmd.EnterRoom.getUserId p enterRoom)
    enterRoomAs p session (UserCmd.EnterRoom.getRoomId enterRoom) character

/-- Reference: `login` (`WebChatDispatcher.java:194`). The password is not checked. -/
def login (session : SessionRef) (cmd : Cmd) : Exec Server Unit :=
  match UserCmd.login.parseFrom cmd.getContent with
  | none => inWorld (Session.sendResult session (CmdUtil.loginResult ResultCode.error "登录异常"))
  | some login => do
    let (isNew, character) ←
      ChatterFactory.findOrCreate session (UserCmd.Login.getUserId p login)
    inWorld (Session.setAttribute session character)
    if isNew then pure () else inWorld (character.setSession session)
    inWorld (Session.sendResult session (CmdUtil.loginResult ResultCode.ok "登录成功"))

/-- The task that `dispatch` submits. Reference: `dispatch` (`WebChatDispatcher.java:58`). -/
def handler (session : SessionRef) (cmd : Cmd) : Exec Server Unit :=
  if cmd.getCmdType = CmdType.login then
    login p session cmd
  else if cmd.getCmdType = CmdType.createRoom then
    createRoom p session cmd
  else if cmd.getCmdType = CmdType.enterRoom then
    enterRoom p session cmd
  else if cmd.getCmdType = CmdType.invite then
    invite p session cmd
  else
    handleOtherCmd session cmd

section
variable {p : Platform} {session : SessionRef} {cmd : Cmd}

theorem handler_login (h : cmd.getCmdType = CmdType.login) :
    handler p session cmd = login p session cmd :=
  if_pos h

theorem handler_createRoom (h : cmd.getCmdType = CmdType.createRoom) :
    handler p session cmd = createRoom p session cmd := by
  have hlogin : cmd.getCmdType ≠ CmdType.login := by rw [h]; decide
  rw [handler, if_neg hlogin, if_pos h]

theorem handler_enterRoom (h : cmd.getCmdType = CmdType.enterRoom) :
    handler p session cmd = enterRoom p session cmd := by
  have hlogin : cmd.getCmdType ≠ CmdType.login := by rw [h]; decide
  have hcreate : cmd.getCmdType ≠ CmdType.createRoom := by rw [h]; decide
  rw [handler, if_neg hlogin, if_neg hcreate, if_pos h]

theorem handler_invite (h : cmd.getCmdType = CmdType.invite) :
    handler p session cmd = invite p session cmd := by
  have hlogin : cmd.getCmdType ≠ CmdType.login := by rw [h]; decide
  have hcreate : cmd.getCmdType ≠ CmdType.createRoom := by rw [h]; decide
  have henter : cmd.getCmdType ≠ CmdType.enterRoom := by rw [h]; decide
  rw [handler, if_neg hlogin, if_neg hcreate, if_neg henter, if_pos h]

end

end WebChatDispatcher

end WebRtcNetty
