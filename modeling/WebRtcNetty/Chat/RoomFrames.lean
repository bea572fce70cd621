import WebRtcNetty.Chat.RoomRefinement

/-!
# What a room does among the sessions and characters

A room's handlers reach the sessions and characters by sending alone, and an entry also sets the
character's current room. So a frame that allows these allows an update (`update_world`) and an
entry (`enter_world`).
-/

namespace WebRtcNetty

open Java Proto2 Command

section
variable {p : Platform} {F : Frame World}

/-- What a frame allows among the sessions and characters, it allows within a room's handler. -/
theorem inWorld_within {α : Type} {m : Exec World α} (h : Within F m) :
    Within (F.comap RoomMem.world) (RoomMem.inWorld m) :=
  h.zoom (L := RoomMem.theWorld)

/-- The flag of a state is not among the sessions and characters. -/
theorem setFinished_world : Within (F.comap RoomMem.world) RoomMem.setFinished :=
  .modify fun m => F.refl m.world

/-- Neither are the data of a room. -/
theorem setRoomData_world (d : RoomData) : Within (F.comap RoomMem.world) (RoomMem.setRoomData d) :=
  .modify fun m => F.refl m.world

variable (hF : Frame.AllowsSending F)
include hF

/-- A character is told a result by sending, or the result cannot be built. -/
theorem sendResult_within (c : Character) (result : Except Throwable PackageGroup) :
    Within F (c.sendResult result) :=
  .bind (.orThrow _) fun _ => Character.sendMsg_within hF

/-- A session is told a result by sending, or the result cannot be built. -/
theorem Session.sendResult_within (s : SessionRef) (result : Except Throwable PackageGroup) :
    Within F (Session.sendResult s result) :=
  .bind (.orThrow _) fun _ => Session.send_within hF

/-- A broadcast sends to each member. -/
theorem broadCastData_world (exclude : Option Character) (msg : PackageGroup) :
    Within (F.comap RoomMem.world) (RoomStateAdapter.broadCastData p exclude msg) :=
  .bind .read fun _ => .forEach
    (fun _ => .ite (.pure ()) (inWorld_within (Character.sendMsg_within hF))) _

/-- A broadcast of a result that cannot be built sends nothing. -/
theorem broadCastResult_world (exclude : Option Character)
    (result : Except Throwable PackageGroup) :
    Within (F.comap RoomMem.world) (RoomStateAdapter.broadCastResult p exclude result) :=
  .bind (.orThrow _) fun _ => broadCastData_world hF _ _

/-- Closing a room sends to the caller and to the members. -/
theorem closeRoomCmd_world (c : Character) (k : Cmd) :
    Within (F.comap RoomMem.world) (RoomStateAdapter.closeRoomCmd p c k) :=
  .bind .read fun _ => .ite (inWorld_within (sendResult_within hF _ _)) <|
    .bind (setRoomData_world _) fun _ => .bind (inWorld_within (sendResult_within hF _ _)) fun _ =>
      broadCastResult_world hF _ _

/-- Kicking a member out sends to that member. -/
theorem kickOut_world (id : String) :
    Within (F.comap RoomMem.world) (RoomStateAdapter.kickOut id) := by
  refine .bind .read fun m => .bind (setRoomData_world _) fun _ => .ite ?_ (.pure none)
  cases (m.roomData.removeCharacter id).2.getCharacter id with
  | none => exact .pure none
  | some kickOff => exact .bind (inWorld_within (sendResult_within hF _ _)) fun _ => .pure _

/-- The command to kick a member out sends to that member, the creator and the other members. -/
theorem clickOutCharacter_world (c : Character) (k : Cmd) :
    Within (F.comap RoomMem.world) (RoomStateAdapter.clickOutCharacter p c k) := by
  refine .bind .read fun m => .ite (inWorld_within (sendResult_within hF _ _)) ?_
  cases UserCmd.kickOffCharacter.parseFrom k.getContent with
  | none => exact inWorld_within (sendResult_within hF _ _)
  | some kick =>
    exact .ite (inWorld_within (sendResult_within hF _ _)) <|
      .bind (kickOut_world hF _) fun _ => broadCastResult_world hF _ _

/-- The command to leave sends to the caller and the other members. -/
theorem logout_world (c : Character) (k : Cmd) :
    Within (F.comap RoomMem.world) (RoomStateAdapter.logout p c k) :=
  .bind (inWorld_within (sendResult_within hF _ _)) fun _ => .bind .read fun _ =>
    .bind (setRoomData_world _) fun _ => .ite (broadCastResult_world hF _ _) (.pure ())

/-- The commands that every state has reach the sessions and characters by sending. -/
theorem handleCmd_world (c : Character) (k : Cmd) :
    Within (F.comap RoomMem.world) (RoomStateAdapter.handleCmd p c k) :=
  .ite (closeRoomCmd_world hF c k) <| .ite (clickOutCharacter_world hF c k) <|
    .ite (logout_world hF c k) (inWorld_within (Character.sendMsg_within hF))

/-- Each phase's state reaches the sessions and characters by sending. -/
theorem handleCmd_state_world (ph : Phase) (c : Character) (k : Cmd) :
    Within (F.comap RoomMem.world) ((ph.state p).handleCmd c k) := by
  cases ph with
  | waiting =>
    exact .ite (.bind .read fun _ => .ite (inWorld_within (sendResult_within hF _ _))
      setFinished_world) (handleCmd_world hF c k)
  | chatting => exact handleCmd_world hF c k
  | finish => exact handleCmd_world hF c k
  | error => exact inWorld_within (Character.sendMsg_within hF)

/-- An update reaches the sessions and characters by sending. -/
theorem update_world {r : Room} {ph : Phase} (h : r.InPhase p ph) :
    F.rel r.world (Room.world (endState AbstractStateGroup.update r)) := by
  cases hq : r.pending with
  | nil => rw [update_of_pending_nil hq]; exact F.refl _
  | cons pair rest =>
    have hhandle : Within (F.comap RoomMem.world)
        (AbstractStateGroup.handleStage (ph.state p) pair) :=
      .catching (handleCmd_state_world hF ph _ _) fun e => by
        rw [Phase.handleCmdOnError_state]
        exact inWorld_within (Character.sendMsg_within hF)
    have hprocess := AbstractStateGroup.process_within
      (initStage_within (fun m _ => F.refl m.world) ph) hhandle
      (updateStage_within (fun m => F.refl m.world) ph)
      (by rw [Phase.finish_state]; exact .pure _)
      (fun e => by rw [Phase.finishOnError_state]; exact .pure _)
    obtain ⟨hp, -⟩ := LinkedBlockingQueue.poll_of_cons hq
    rw [AbstractStateGroup.endState_update_busy h.currentState hp]
    exact hprocess { r with group.cmdQueue := r.group.cmdQueue.poll.2 }

/-! ## Entering -/

omit hF in
/-- Asking for an address changes nothing. -/
theorem getRemoteAddress_within (c : Character) : Within F c.getRemoteAddress := by
  refine .bind .read fun w => .bind .read fun w' => ?_
  cases (w'.channels (w.chatters c).session).remoteAddress with
  | some address => exact .pure address
  | none => exact .throw _

omit hF in
/-- The description of a character changes nothing. -/
theorem character_within (c : Character) : Within F (CmdUtil.character c) :=
  .ite (.pure none) <| .bind (getRemoteAddress_within c) fun _ => .ite (.pure none) (.pure _)

omit hF in
/-- Neither do those of the members. -/
theorem characters_within : ∀ cs : List Character, Within F (CmdUtil.characters cs)
  | [] => .pure []
  | c :: cs => .bind (character_within c) fun _ => .bind (characters_within cs) fun _ => .pure _

omit hF in
/-- The snapshot of a room changes nothing. -/
theorem roomSnapshot_within (d : RoomData) : Within F (CmdUtil.roomSnapshot p d) :=
  .bind .read fun _ => .bind (characters_within _) fun _ => .pure _

omit hF in
/-- The result of an entry is built from what the room holds, and changes nothing. -/
theorem enterRoomResult_within (code : BitVec 32) (msg : Option String) (roomId : BitVec 64)
    (d : Option RoomData) : Within F (CmdUtil.enterRoomResult p code msg roomId d) := by
  have hbuild : ∀ v : UserCmd.enterRoomResult.Val, Within F (do
      let content ← orThrow (build UserCmd.enterRoomResult v)
      return CmdUtil.packageGroup [CmdUtil.pkg code msg CmdType.enterRoom
        (UserCmd.enterRoomResult.toByteArray content.val)]) := fun _ =>
    .bind (.orThrow _) fun _ => .pure _
  cases d with
  | some d => exact .bind (roomSnapshot_within d) fun _ => .bind (.pure _) hbuild
  | none => exact .bind (.pure _) hbuild

/-- Those who are told of an entry are sent to. -/
theorem tellOthers_within (c : Character) (msg : PackageGroup) (others : List Character) :
    Within F (RoomStateGroup.tellOthers c msg others) :=
  .forEach (fun _ => .bind .read fun _ => .ite (.pure ()) <| .ite (.pure ())
    (Character.sendMsg_within hF)) _

omit hF in
/-- What a frame allows among the sessions and characters, it allows within a room. -/
theorem inWorld_world {α : Type} {m : Exec World α} (h : Within F m) :
    Within (F.comap Room.world) (RoomStateGroup.inWorld m) :=
  (inWorld_within h).zoom (L := AbstractStateGroup.states)

/-- An entry reaches the sessions and characters by sending, and by setting the character's current
room. -/
theorem enter_world {c : Character} (hroom : ∀ roomId, Within F (c.setCurrentRoomId roomId)) :
    Within (F.comap Room.world) (RoomStateGroup.enter p c) := by
  have hsuper : Within (F.comap Room.world) (RoomStateGroup.superEnter c) := fun r => by
    rw [endState_superEnter]
    split
    · exact F.refl r.world
    · exact F.refl r.world
  refine .bind hsuper fun entered => .ite ?_ (.pure false)
  refine .bind .read fun r => .bind (inWorld_world ?_) fun msg =>
    .bind (inWorld_world ?_) fun _ => .pure true
  · exact .bind .read fun _ => .ite (.pure _) (.bind (hroom _) fun _ => .pure _)
  · exact .bind (enterRoomResult_within _ _ _ _) fun _ =>
      .bind (Character.sendMsg_within hF) fun _ =>
      .bind (enterRoomResult_within _ _ _ _) fun _ =>
      .bind .read fun _ => tellOthers_within hF _ _ _

end

/-! ## The current rooms -/

/-- The current rooms of the characters. -/
def World.currentRooms (w : World) (c : Character) : BitVec 64 := c.getCurrentRoomId w

section
variable {p : Platform}

/-- Sending leaves the current rooms as they are. -/
theorem allowsSending_currentRooms : Frame.AllowsSending (.keeping World.currentRooms) where
  sent _ _ _ := rfl
  failed _ := rfl

/-- Setting the current room. -/
theorem currentRooms_reenter (c : Character) (roomId : BitVec 64) (w : World) : ∃ msg w',
    RoomStateGroup.reenter c roomId w = .ok msg w' ∧
      w'.currentRooms = Function.update w.currentRooms c roomId := by
  unfold RoomStateGroup.reenter
  rw [run_bind_ok (run_get w)]
  split
  · next h =>
    exact ⟨_, w, rfl, by rw [← h]; exact (Function.update_eq_self c w.currentRooms).symm⟩
  · exact ⟨_, _, rfl, funext (Function.apply_update (fun _ (f : Chatter) => f.currentRoomId) _ _ _)⟩

/-- An entry sets the character's current room, whatever it sends. -/
theorem currentRooms_enter {room : Room} (c : Character)
    (hfull : room.group.isFullCharacter room.roomData.characterSize = false) :
    (Room.world (endState (RoomStateGroup.enter p c) room)).currentRooms =
      Function.update room.world.currentRooms c room.group.id := by
  obtain ⟨msg, w, hreenter, hw⟩ := currentRooms_reenter c room.group.id room.world
  have hset : RoomStateGroup.inWorld (RoomStateGroup.reenter c room.group.id)
      { room with mem.roomData := room.roomData.addCharacter c } =
        .ok msg { room with mem.roomData := room.roomData.addCharacter c, mem.world := w } :=
    zoom_ok (zoom_ok hreenter)
  rw [RoomStateGroup.enter, endState_bind_ok (superEnter_ok hfull), if_pos rfl, endState_get_bind]
  dsimp only
  rw [endState_bind_ok hset]
  refine Eq.trans (Within.bind (F := .comap (.keeping World.currentRooms) Room.world)
    (inWorld_world ?_) (fun _ => .pure true) _) hw
  exact .bind (enterRoomResult_within _ _ _ _) fun _ =>
    .bind (Character.sendMsg_within allowsSending_currentRooms) fun _ =>
    .bind (enterRoomResult_within _ _ _ _) fun _ => .bind .read fun _ =>
      tellOthers_within allowsSending_currentRooms _ _ _

end

end WebRtcNetty
