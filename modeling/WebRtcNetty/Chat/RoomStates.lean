import WebRtcNetty.State.StateGroup
import WebRtcNetty.Chat.CmdUtil

/-!
# The states of a room

The four states that a room is built with (`WaitingState`, `ChattingState`, `FinishState`,
`DefaultErrorState`), over the memory they share: the room's status and data, the flags of the state
objects, and the sessions and characters. A subclass is its superclass's methods applied to its own
code, with the methods it overrides.
-/

namespace WebRtcNetty

open Java Proto2 Command

/-- The memory of a room's states. `isFinished` is the field of the room's `Status`, and
`initialized` the field of the state objects, by their codes. -/
structure RoomMem where
  isFinished : Bool
  initialized : String → Bool
  roomData : RoomData
  world : World

namespace RoomMem

/-- The sessions and the characters. -/
def theWorld : Lens RoomMem World where
  get m := m.world
  set m w := { m with world := w }
  get_set _ _ := rfl
  set_get _ := rfl
  set_set _ _ _ := rfl

@[simp] theorem theWorld_get (m : RoomMem) : theWorld.get m = m.world := rfl

/-- Runs a computation over the sessions and the characters. -/
def inWorld {α : Type} (m : Exec World α) : Exec RoomMem α := zoom theWorld m

/-- `status.isFinished = true`. -/
def setFinished : Exec RoomMem Unit := modify fun m => { m with isFinished := true }

/-- Writes the room's data. -/
def setRoomData (d : RoomData) : Exec RoomMem Unit := modify fun m => { m with roomData := d }

end RoomMem

open RoomMem

/-! ## StateAdapter -/

namespace StateAdapter

/-- Reference: `init` (`StateAdapter.java:22`). -/
def init (code : String) : Exec RoomMem Unit :=
  modify fun m => { m with initialized := Function.update m.initialized code true }

/-- Reference: `hasInit` (`StateAdapter.java:27`). -/
def hasInit (code : String) : Exec RoomMem Bool := do
  let m ← get
  return m.initialized code

/-- Reference: `initOnError` (`StateAdapter.java:32`). -/
def initOnError (_error : Throwable) : Exec RoomMem Unit := setFinished

/-- Reference: `handleCmd` (`StateAdapter.java:39`). -/
def handleCmd (character : Character) (cmd : Cmd) : Exec RoomMem Unit := do
  let msg := "character: " ++ character.getId ++ " can not handle cmd: " ++
    toString cmd.getCmdType.toInt
  inWorld (character.sendMsg (.message (CmdUtil.errorMsg msg cmd.getCmdType)))

/-- Reference: `handleCmdOnError` (`StateAdapter.java:47`). -/
def handleCmdOnError (character : Character) (cmd : Cmd) (_error : Throwable) :
    Exec RoomMem Unit := do
  let msg := "character: " ++ character.getId ++ " handle cmd: " ++
    toString cmd.getCmdType.toInt ++ " error"
  inWorld (character.sendMsg (.message (CmdUtil.errorMsg msg cmd.getCmdType)))

/-- Reference: `updateOnError` (`StateAdapter.java:55`), which logs. -/
def updateOnError (_error : Throwable) : Exec RoomMem Unit := pure ()

/-- Reference: `finishOnError` (`StateAdapter.java:61`), which logs. -/
def finishOnError (_error : Throwable) : Exec RoomMem (Option String) := pure (some "ERROR")

end StateAdapter

/-! ## RoomStateAdapter -/

namespace RoomStateAdapter

variable (p : Platform)

/-- Reference: `broadCastData` (`RoomStateAdapter.java:99`). -/
def broadCastData (excludeCharacter : Option Character) (packageGroup : PackageGroup) :
    Exec RoomMem Unit := do
  let m ← get
  forEach (m.roomData.characterSet p m.world) fun character =>
    if excludeCharacter.map (·.getId) = some character.getId then pure ()
    else inWorld (character.sendMsg (.message packageGroup))

/-- `broadCastData(excludeCharacter, result)`, where building the result may throw. -/
def broadCastResult (excludeCharacter : Option Character)
    (result : Except Throwable PackageGroup) : Exec RoomMem Unit := do
  let packageGroup ← orThrow result
  broadCastData p excludeCharacter packageGroup

/-- Reference: `closeRoomCmd` (`RoomStateAdapter.java:44`). -/
def closeRoomCmd (character : Character) (_cmd : Cmd) : Exec RoomMem Unit := do
  let m ← get
  if character.getId ≠ m.roomData.master.getId then
    inWorld (character.sendResult (CmdUtil.closeRoomResult ResultCode.fail "非房主不能关闭房间"))
  else
    setRoomData m.roomData.close
    inWorld (character.sendResult (CmdUtil.closeRoomResult ResultCode.ok "关闭房间"))
    broadCastResult p (some character) (CmdUtil.closeRoomResult ResultCode.ok "房主已关闭房间")

/-- The removal of the kicked character, which is looked up after it has been removed. Reference:
`clickOutCharacter` (`RoomStateAdapter.java:78-85`). -/
def kickOut (kickOffCharacterId : String) : Exec RoomMem (Option String) := do
  let m ← get
  let r := m.roomData.removeCharacter kickOffCharacterId
  setRoomData r.2
  if r.1 then
    match r.2.getCharacter kickOffCharacterId with
    | some kickOff => do
      inWorld (kickOff.sendResult (CmdUtil.kickOffCharacterResult ResultCode.ok "你已被房主踢出"))
      return kickOff.getNickName
    | none => return none
  else
    return none

/-- Reference: `clickOutCharacter` (`RoomStateAdapter.java:54`). -/
def clickOutCharacter (character : Character) (cmd : Cmd) : Exec RoomMem Unit := do
  let m ← get
  let masterId := m.roomData.master.getId
  if character.getId ≠ masterId then
    inWorld (character.sendResult
      (CmdUtil.kickOffCharacterResult ResultCode.fail "非房主不能踢出用户"))
  else
    match UserCmd.kickOffCharacter.parseFrom cmd.getContent with
    | none =>
      inWorld (character.sendResult (CmdUtil.kickOffCharacterResult ResultCode.error "无效的指令"))
    | some kickOffCharacter => do
      let kickOffCharacterId := UserCmd.KickOffCharacter.getCharacterId p kickOffCharacter
      if masterId = kickOffCharacterId then
        inWorld (character.sendResult
          (CmdUtil.kickOffCharacterResult ResultCode.fail "房主无法踢出自己"))
      else
        let nickName ← kickOut kickOffCharacterId
        let msg := match nickName with
          | none => "用户已被踢出"
          | some nickName => "用户已" ++ nickName ++ "被踢出"
        broadCastResult p none (CmdUtil.kickOffCharacterResult ResultCode.ok msg)

/-- Reference: `logout` (`RoomStateAdapter.java:90`). -/
def logout (character : Character) (_cmd : Cmd) : Exec RoomMem Unit := do
  inWorld (character.sendResult (CmdUtil.logoutResult ResultCode.ok "已退出房间"))
  let m ← get
  let r := m.roomData.removeCharacter character.getId
  setRoomData r.2
  if r.1 then
    broadCastResult p (some character) (CmdUtil.logoutResult ResultCode.ok
      ("【" ++ stringOf character.getNickName ++ "】已退出房间"))
  else
    pure ()

/-- Reference: `handleCmd` (`RoomStateAdapter.java:27`). -/
def handleCmd (character : Character) (cmd : Cmd) : Exec RoomMem Unit :=
  if cmd.getCmdType = CmdType.closeRoom then
    closeRoomCmd p character cmd
  else if cmd.getCmdType = CmdType.kickOff then
    clickOutCharacter p character cmd
  else if cmd.getCmdType = CmdType.loginOut then
    logout p character cmd
  else
    StateAdapter.handleCmd character cmd

/-- `if (this.getRoomData().isClosed()) status.isFinished = true`. Reference: `update`
(`WaitingState.java:34`, `ChattingState.java:16`). -/
def finishWhenClosed : Exec RoomMem Unit := do
  let m ← get
  if m.roomData.isClosed then setFinished else pure ()

end RoomStateAdapter

/-! ## The states -/

/-- The methods that the room's states take over from `StateAdapter`. -/
def stateAdapter (code : String) (handleCmd : Character → Cmd → Exec RoomMem Unit)
    (update : Exec RoomMem Unit) (finish : Option String) : IState RoomMem Character Cmd where
  getCode := code
  hasInit := StateAdapter.hasInit code
  init := StateAdapter.init code
  initOnError := StateAdapter.initOnError
  handleCmd := handleCmd
  handleCmdOnError := StateAdapter.handleCmdOnError
  update := update
  updateOnError := StateAdapter.updateOnError
  finish := pure finish
  finishOnError := StateAdapter.finishOnError

namespace WaitingState

/-- Reference: `startChatting` (`WaitingState.java:45`). -/
def startChatting (character : Character) (_cmd : Cmd) : Exec RoomMem Unit := do
  let m ← get
  if character.getId ≠ m.roomData.master.getId then
    inWorld (character.sendResult (CmdUtil.startChatResult ResultCode.fail "非房主无法开始视频"))
  else
    setFinished

/-- Reference: `handleCmd` (`WaitingState.java:22`). -/
def handleCmd (p : Platform) (character : Character) (cmd : Cmd) : Exec RoomMem Unit :=
  if cmd.getCmdType = CmdType.startChatting then
    startChatting character cmd
  else
    RoomStateAdapter.handleCmd p character cmd

end WaitingState

/-- Reference: `WaitingState` (`WaitingState.java:12`). -/
def waitingState (p : Platform) : IState RoomMem Character Cmd :=
  stateAdapter "waiting" (WaitingState.handleCmd p) RoomStateAdapter.finishWhenClosed
    (some "chatting")

/-- Reference: `ChattingState` (`ChattingState.java:6`). -/
def chattingState (p : Platform) : IState RoomMem Character Cmd :=
  stateAdapter "chatting" (RoomStateAdapter.handleCmd p) RoomStateAdapter.finishWhenClosed
    (some "finish")

/-- Reference: `FinishState` (`FinishState.java:7`). -/
def finishState (p : Platform) : IState RoomMem Character Cmd :=
  stateAdapter "finish" (RoomStateAdapter.handleCmd p) (pure ()) (some "ERROR")

/-- Reference: `DefaultErrorState` (`DefaultErrorState.java:3`). -/
def defaultErrorState : IState RoomMem Character Cmd :=
  stateAdapter "ERROR" StateAdapter.handleCmd (pure ()) none

end WebRtcNetty
