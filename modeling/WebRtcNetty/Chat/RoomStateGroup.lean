import WebRtcNetty.Lib.Run
import WebRtcNetty.Chat.RoomStates

/-!
# Rooms

A room (`RoomStateGroup`) is a state group over the memory of the room's states. This module has its
own methods, how `RoomStateGroupFactory.create` builds it, and the runs of a room: the entries, the
commands put in its queue, the updates, and what the rest of the server does to the sessions and
characters in between, which is arbitrary.
-/

namespace WebRtcNetty

open Java Proto2 Command Runs

/-- A room and the memory of its states. -/
abbrev Room := GroupMem RoomMem Character Cmd

namespace Room

/-- The room's data. -/
def roomData (r : Room) : RoomData := r.mem.roomData

/-- The sessions and characters as the room sees them. -/
def world (r : Room) : World := r.mem.world

/-- The code of the current state. -/
def currentCode (r : Room) : Option String := r.group.currentState.map (·.getCode)

/-- The pairs in the queue. -/
def pending (r : Room) : List (CharacterCmdPair Character Cmd) := r.group.cmdQueue.items

/-- The same room among other sessions and characters. -/
def setWorld (r : Room) (w : World) : Room := { r with mem.world := w }

end Room

namespace RoomStateGroup

variable (p : Platform)

/-- Runs a computation over the sessions and the characters. -/
def inWorld {α : Type} (m : Exec World α) : Exec Room α :=
  zoom AbstractStateGroup.states (RoomMem.inWorld m)

/-- Reference: `AbstractStateGroup.enter` (`AbstractStateGroup.java:70`). -/
def superEnter (character : Character) : Exec Room Bool := do
  let r ← get
  if r.group.isFullCharacter r.roomData.characterSize then
    return false
  set { r with mem.roomData := r.roomData.addCharacter character }
  return true

/-- What the others are told, and the new current room. Reference: `enter`
(`RoomStateGroup.java:19-27`). -/
def reenter (character : Character) (roomId : BitVec 64) : Exec World String := do
  let w ← get
  if character.getCurrentRoomId w = roomId then
    return "用户【" ++ stringOf character.getNickName ++ "】 重新连接房间"
  else
    character.setCurrentRoomId roomId
    return "用户【" ++ stringOf character.getNickName ++ "】 进入房间"

/-- Tells the other members that are online. Reference: `enter` (`RoomStateGroup.java:32-40`). -/
def tellOthers (character : Character) (otherMsg : PackageGroup) :
    List Character → Exec World Unit :=
  fun others => forEach others fun other => do
    let w ← get
    if other.isOffLine w then pure ()
    else if character.getId = other.getId then pure ()
    else other.sendMsg (.message otherMsg)

/-- Reference: `enter` (`RoomStateGroup.java:16`). -/
def enter (character : Character) : Exec Room Bool := do
  if ← superEnter character then
    let r ← get
    let roomId := r.group.id
    let msg ← inWorld (reenter character roomId)
    inWorld do
      let reply ← CmdUtil.enterRoomResult p ResultCode.ok "进入房间成功" roomId r.roomData
      character.sendMsg (.message reply)
      let otherMsg ← CmdUtil.enterRoomResult p ResultCode.ok msg roomId r.roomData
      let w ← get
      tellOthers character otherMsg (r.roomData.characterSet p w)
    return true
  else
    return false

/-- Reference: `canDepose` (`RoomStateGroup.java:47`). -/
def canDepose (r : Room) : Bool := r.roomData.isEmpty p r.world

/-- Reference: `addChatStates` (`RoomStateGroupFactory.java:36`). -/
def addChatStates (g : AbstractStateGroup RoomMem Character Cmd) :
    Option (AbstractStateGroup RoomMem Character Cmd) :=
  (((g.addState (waitingState p)).addState (chattingState p)).addState
    (finishState p)).addState defaultErrorState |>.setCurrentState "waiting"

/-- A new room among the given sessions and characters; `none` where the check of the capacity
throws. Reference: `RoomStateGroupFactory.create` (`RoomStateGroupFactory.java:26-31`). -/
def create (id : BitVec 64) (creator : Character) (config : RoomStateConfig) (roomCapacity : Int)
    (w : World) : Option Room := do
  let g ← addChatStates p (← AbstractStateGroup.new id roomCapacity)
  return {
    group := g
    mem := {
      isFinished := false
      initialized := fun _ => false
      roomData := .new creator config
      world := w }
    handled := [] }

/-! ## Runs -/

/-- What can happen to a room. -/
inductive Op
  | enter (character : Character)
  | addCharacterCmd (character : Character) (cmd : Cmd)
  | update
  | environment (w : World)

/-- An operation as a computation. The rest of the server may do anything to the sessions and
characters. -/
def Op.run : Op → Exec Room Unit
  | .enter character => do let _ ← RoomStateGroup.enter p character
  | .addCharacterCmd character cmd => do
    let _ ← AbstractStateGroup.addCharacterCmd character cmd
  | .update => AbstractStateGroup.update
  | .environment w => modify fun r => r.setWorld w

/-- Every operation is atomic, and may throw. -/
def Step (r : Room) (op : Op) (r' : Room) : Prop := r' = endState (op.run p) r

theorem Step.of (r : Room) (op : Op) : Step p r op (endState (op.run p) r) := rfl

/-! ## A room -/

def alice : Character := ⟨0, "alice", none⟩

def bob : Character := ⟨1, "bob", none⟩

/-- A room that alice has created, with the capacity that the application starts with
(`application.yml`). -/
def aliceRoom : Room :=
  (create .standard 1 alice ⟨true, true⟩ 10 (.initial (fun _ => none) fun _ => false)).get rfl

theorem create_aliceRoom : create .standard 1 alice ⟨true, true⟩ 10
    (.initial (fun _ => none) fun _ => false) = some aliceRoom := rfl

/-- The transitions of a run of operations from a room. -/
def transitions (r : Room) (ops : List Op) : List (Transition Room Op) :=
  trace (fun r op => endState (op.run p) r) r ops

theorem run_transitions (ops : List Op) (r : Room) : Run (Step p) r (transitions p r ops)
    (ops.foldl (fun r op => endState (op.run p) r) r) :=
  run_trace (Step.of p) ops r

end RoomStateGroup

end WebRtcNetty
