import WebRtcNetty.Chat.Results
import WebRtcNetty.Server.Sessions

/-!
# Malformed commands

The four handlers that parse a content answer one that does not parse with a result of the code
`ERROR`, and change nothing else (`Rejected`). `handler_rejects_iff` says exactly when they do: the
answer to a CREATE_ROOM cannot be built, since its room id is required and is set for the code `OK`
only.
-/

namespace WebRtcNetty

open Java Proto2 Command Server

namespace WebChatDispatcher

/-- The command is one whose handler parses its content, which does not parse. -/
inductive Malformed (cmd : Cmd) : Prop
  | login (hcmd : cmd.getCmdType = CmdType.login)
      (hparse : UserCmd.login.parseFrom cmd.getContent = none)
  | createRoom (hcmd : cmd.getCmdType = CmdType.createRoom)
      (hparse : UserCmd.createRoom.parseFrom cmd.getContent = none)
  | enterRoom (hcmd : cmd.getCmdType = CmdType.enterRoom)
      (hparse : UserCmd.enterRoom.parseFrom cmd.getContent = none)
  | invite (hcmd : cmd.getCmdType = CmdType.invite)
      (hparse : UserCmd.inviteCharacter.parseFrom cmd.getContent = none)

/-- A group of one package, with the code `ERROR` and the given command type. -/
def Refuses (cmdType : BitVec 32) (g : PackageGroup) : Prop :=
  ∃ msg content, g.val.1 = [(some (some ResultCode.error, msg, ()), some cmdType, content, ())]

/-- From `s` to `s'` nothing happens but that the session is sent one group, which refuses its
command. -/
structure Rejected (s : Server) (session : SessionRef) (cmd : Cmd) (s' : Server) : Prop where
  stateGroupMap : s'.stateGroupMap = s.stateGroupMap
  idCounter : s'.idCounter = s.idCounter
  rooms : s'.rooms = s.rooms
  characterMap : s'.characterMap = s.characterMap
  channels : s'.world.channels = s.world.channels
  chatters : s'.world.chatters = s.world.chatters
  workerManager : s'.workerManager = s.workerManager
  sent : ∃ g, Refuses cmd.getCmdType g ∧
    s'.world.sent = s.world.sent ++ [(session, .message g)]

/-- The handler terminates normally, and has rejected the command. -/
def Rejects (p : Platform) (s : Server) (session : SessionRef) (cmd : Cmd) : Prop :=
  ∃ s', handler p session cmd s = .ok () s' ∧ Rejected s session cmd s'

section
variable {p : Platform} {s : Server} {session : SessionRef} {cmd : Cmd}

/-- A result with the code `ERROR` refuses its command. -/
theorem refuses_resultOf {fs : Fields} {cmdType : BitVec 32} (hpos : (0#32).slt cmdType = true)
    (msg : Option String) (v : fs.Val) :
    Refuses cmdType (CmdUtil.resultOf fs cmdType ResultCode.error msg v) := by
  refine ⟨if isNullOrEmpty msg then none else msg.map utf8Bytes, some (fs.toByteArray v), ?_⟩
  simp only [CmdUtil.resultOf, CmdUtil.packageGroup, CmdUtil.pkg, hpos, if_true]
  rfl

/-- A handler that sends a result with the code `ERROR` and does nothing else rejects the command
when the call of `send` does not fail. -/
theorem rejects_iff_of_send {fs : Fields} {cmdType : BitVec 32} {msg : Option String} {v : fs.Val}
    (hcmd : cmd.getCmdType = cmdType) (hpos : (0#32).slt cmdType = true)
    (hrun : handler p session cmd s = inWorld (Session.send session
      (.message (CmdUtil.resultOf fs cmdType ResultCode.error msg v))) s) :
    Rejects p s session cmd ↔ s.world.sendFails s.world.sends = false := by
  constructor
  · rintro ⟨s', hs', -⟩
    by_contra hsend
    rw [Bool.not_eq_false] at hsend
    rw [hrun, inWorld, zoom_error (Session.send_error hsend)] at hs'
    cases hs'
  · intro hsend
    exact ⟨_, hrun.trans (zoom_ok (Session.send_ok hsend)), rfl, rfl, rfl, rfl, rfl, rfl, rfl,
      _, hcmd ▸ refuses_resultOf hpos msg v, rfl⟩

/-- A handler that throws does not reject the command. -/
theorem not_rejects_of_error {e : Throwable} {s' : Server}
    (hrun : handler p session cmd s = .error e s') : ¬ Rejects p s session cmd := by
  rintro ⟨s'', hs'', -⟩
  cases hrun.symm.trans hs''

theorem login_rejects_iff (hcmd : cmd.getCmdType = CmdType.login)
    (hparse : UserCmd.login.parseFrom cmd.getContent = none) :
    Rejects p s session cmd ↔ s.world.sendFails s.world.sends = false := by
  have hrun : handler p session cmd s = inWorld (Session.send session (.message
      (CmdUtil.resultOf UserCmd.loginResult CmdType.login ResultCode.error (some "登录异常")
        UserCmd.loginResult.newBuilder))) s := by
    rw [handler_login hcmd, login, hparse, CmdUtil.loginResult, CmdUtil.emptyResult_ok (by rfl)]
    rfl
  exact rejects_iff_of_send hcmd (by decide) hrun

/-- The room id of the answer to a CREATE_ROOM is not set. -/
theorem createRoom_not_rejects (hcmd : cmd.getCmdType = CmdType.createRoom)
    (hparse : UserCmd.createRoom.parseFrom cmd.getContent = none) :
    ¬ Rejects p s session cmd := by
  have hrun : handler p session cmd s = .error ⟨"UninitializedMessageException"⟩ s := by
    rw [handler_createRoom hcmd, createRoom, hparse]
    exact run_bind_error (zoom_error (CmdUtil.createRoomResult_error (by decide)))
  exact not_rejects_of_error hrun

theorem enterRoom_rejects_iff (hcmd : cmd.getCmdType = CmdType.enterRoom)
    (hparse : UserCmd.enterRoom.parseFrom cmd.getContent = none) :
    Rejects p s session cmd ↔ s.world.sendFails s.world.sends = false := by
  have hresult : CmdUtil.enterRoomResult p ResultCode.error (some "进入房间失败") (-1) none s.world =
      .ok (CmdUtil.resultOf UserCmd.enterRoomResult CmdType.enterRoom ResultCode.error
        (some "进入房间失败") (some (-1), none, ())) s.world :=
    CmdUtil.enterRoomResult_ok fun d hd => by cases hd
  have hrun : handler p session cmd s = inWorld (Session.send session (.message
      (CmdUtil.resultOf UserCmd.enterRoomResult CmdType.enterRoom ResultCode.error
        (some "进入房间失败") (some (-1), none, ())))) s := by
    rw [handler_enterRoom hcmd, enterRoom, hparse]
    exact run_bind_ok (zoom_ok hresult)
  exact rejects_iff_of_send hcmd (by decide) hrun

theorem invite_rejects_iff (hc : Session.getAttribute s.world session ≠ none)
    (hcmd : cmd.getCmdType = CmdType.invite)
    (hparse : UserCmd.inviteCharacter.parseFrom cmd.getContent = none) :
    Rejects p s session cmd ↔ s.world.sendFails s.world.sends = false := by
  obtain ⟨c, hc⟩ := Option.ne_none_iff_exists'.1 hc
  have hrun : handler p session cmd s = inWorld (Session.send session (.message
      (CmdUtil.resultOf UserCmd.inviteCharacterResult CmdType.invite ResultCode.error
        (some "参数异常") UserCmd.inviteCharacterResult.newBuilder))) s := by
    rw [handler_invite hcmd, invite, run_bind_ok (run_get s)]
    simp only [hc, hparse, CmdUtil.inviteCharacterResult]
    rw [CmdUtil.emptyResult_ok (by rfl)]
    rfl
  exact rejects_iff_of_send hcmd (by decide) hrun

/-- The handlers reject what does not parse exactly when it is no CREATE_ROOM and sending does not
fail. -/
theorem handler_rejects_iff (hc : Session.getAttribute s.world session ≠ none)
    (hm : Malformed cmd) : Rejects p s session cmd ↔
      cmd.getCmdType ≠ CmdType.createRoom ∧ s.world.sendFails s.world.sends = false := by
  cases hm with
  | login hcmd hparse =>
    rw [login_rejects_iff hcmd hparse, hcmd]
    exact (and_iff_right (by decide)).symm
  | createRoom hcmd hparse =>
    exact iff_of_false (createRoom_not_rejects hcmd hparse) fun h => h.1 hcmd
  | enterRoom hcmd hparse =>
    rw [enterRoom_rejects_iff hcmd hparse, hcmd]
    exact (and_iff_right (by decide)).symm
  | invite hcmd hparse =>
    rw [invite_rejects_iff hc hcmd hparse, hcmd]
    exact (and_iff_right (by decide)).symm

end

/-- Alice logs in. -/
def aliceLoggedIn : Server :=
  endState (handler .standard 0 (.of CmdType.login
    [10, 5, 97, 108, 105, 99, 101, 18, 0])) Server.start

/-- Her LOGIN without a user id is rejected. -/
theorem handler_rejects_iff_login :
    Rejects .standard aliceLoggedIn 0 (.of CmdType.login []) :=
  (handler_rejects_iff (by decide) (.login rfl rfl)).2 ⟨by decide, rfl⟩

/-- Her CREATE_ROOM without a user id is not: the handler throws, and nothing is sent. -/
theorem handler_rejects_counterexample :
    Session.getAttribute aliceLoggedIn.world 0 ≠ none ∧ Malformed (.of CmdType.createRoom []) ∧
      ¬ Rejects .standard aliceLoggedIn 0 (.of CmdType.createRoom []) := by
  refine ⟨by decide, .createRoom rfl rfl, ?_⟩
  rintro ⟨s', hs', -⟩
  cases hs'

end WebChatDispatcher

end WebRtcNetty
