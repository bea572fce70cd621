import WebRtcNetty.Server.WebChatDispatcher

/-!
# What the handlers change

A frame of the server may allow commands in rooms (`Frame.AllowsCommands`), entries
(`Frame.AllowsEntries`), new rooms (`Frame.AllowsCreations`), and what LOGIN and ENTER_ROOM do to
the characters (`Frame.AllowsCharacters`). Each handler stays within a frame that allows what it
does: all of them within one that allows everything (`handler_within`), all but that of CREATE_ROOM
within one that allows no new rooms (`handler_within_of_ne`), and those that enter no room within
one that allows no entries either (`handler_within_of_stays`).

`Server.frame G` is the frame of code that stays within `G` on the sessions and characters and
leaves the character registry alone.
-/

namespace WebRtcNetty

open Java Proto2 Command Server

/-! ## What a frame may allow -/

/-- The frame allows sending, and putting a command in a room's queue. -/
structure Frame.AllowsCommands (F : Frame Server) : Prop where
  sending : ∀ s, Frame.AllowsSending (F.comap (theWorld.set s))
  queueing : ∀ r c k, Within F (inRoom r (AbstractStateGroup.addCharacterCmd c k))

/-- The frame also allows entering a room. -/
structure Frame.AllowsEntries (p : Platform) (F : Frame Server) : Prop
    extends Frame.AllowsCommands F where
  entering : ∀ r c, Within F (inRoom r (RoomStateGroup.enter p c))

/-- The frame allows making a room and handing it to a worker. -/
structure Frame.AllowsCreations (p : Platform) (F : Frame Server) : Prop where
  creating : ∀ c config, Within F (RoomStateGroupFactory.create p c config)
  adding : ∀ r, Within F (addStateGroup p r)

/-- The frame allows what the handlers do with rooms. -/
structure Frame.AllowsRooms (p : Platform) (F : Frame Server) : Prop
    extends Frame.AllowsEntries p F, Frame.AllowsCreations p F

/-- The frame allows what LOGIN and ENTER_ROOM do to the characters. -/
structure Frame.AllowsCharacters (F : Frame Server) : Prop where
  finding : ∀ session userId, Within F (ChatterFactory.findOrCreate session userId)
  attributing : ∀ session c, Within F (inWorld (Session.setAttribute session c))
  displacing : ∀ c session, Within F (inWorld (Character.setSession c session))

/-- A frame that allows more. -/
theorem Frame.AllowsRooms.mono {p : Platform} {F G : Frame Server} (hF : Frame.AllowsRooms p F)
    (h : ∀ s s', F.rel s s' → G.rel s s') : Frame.AllowsRooms p G where
  sending s := ⟨fun w session msg => h _ _ ((hF.sending s).sent w session msg),
    fun w => h _ _ ((hF.sending s).failed w)⟩
  entering r c := (hF.entering r c).mono h
  queueing r c k := (hF.queueing r c k).mono h
  creating c config := (hF.creating c config).mono h
  adding r := (hF.adding r).mono h

/-! ## The handlers -/

section
variable {p : Platform} {F : Frame Server}

/-- What reaches the sessions and characters by sending alone is allowed where sending is. -/
theorem inWorld_sending {α : Type} {m : Exec World α}
    (hF : ∀ s, Frame.AllowsSending (F.comap (theWorld.set s)))
    (h : ∀ {G : Frame World}, Frame.AllowsSending G → Within G m) : Within F (inWorld m) :=
  .zoom_set fun s => h (hF s)

/-- The result of a CREATE_ROOM is built from what the room holds, and changes nothing. -/
theorem createRoomResult_within {G : Frame World} (code : BitVec 32) (msg : Option String)
    (roomId : BitVec 64) (d : Option RoomData) :
    Within G (CmdUtil.createRoomResult p code msg roomId d) := by
  have hbuild : ∀ v : UserCmd.createRoomResult.Val, Within G (do
      let content ← orThrow (build UserCmd.createRoomResult v)
      return CmdUtil.packageGroup [CmdUtil.pkg code msg CmdType.createRoom
        (UserCmd.createRoomResult.toByteArray content.val)]) := fun _ =>
    .bind (.orThrow _) fun _ => .pure _
  unfold CmdUtil.createRoomResult
  dsimp only
  split
  · cases d with
    | some d => exact .bind (roomSnapshot_within d) fun _ => .bind (.pure _) hbuild
    | none => exact .bind (.pure _) hbuild
  · exact .bind (.pure _) hbuild

variable (hF : Frame.AllowsCommands F)
include hF

/-- Sending to a session. -/
theorem Frame.AllowsCommands.send (session : SessionRef) (msg : PackageGroup) :
    Within F (inWorld (Session.send session (.message msg))) :=
  inWorld_sending hF.sending fun hG => Session.send_within hG

/-- Telling a session a result. -/
theorem Frame.AllowsCommands.sendResult (session : SessionRef)
    (result : Except Throwable PackageGroup) :
    Within F (inWorld (Session.sendResult session result)) :=
  inWorld_sending hF.sending fun hG => Session.sendResult_within hG _ _

/-- The handler of the commands for a room. -/
theorem handleOtherCmd_within (session : SessionRef) (cmd : Cmd) :
    Within F (WebChatDispatcher.handleOtherCmd session cmd) := by
  refine .bind .read fun s => ?_
  cases Session.getAttribute s.world session with
  | none => exact hF.send _ _
  | some c =>
    dsimp only
    cases RoomStateGroupFactory.find s (c.getCurrentRoomId s.world) with
    | none => exact hF.send _ _
    | some r => exact .bind (hF.queueing r c cmd) fun _ => .pure ()

/-- The handler of INVITE. -/
theorem invite_within (session : SessionRef) (cmd : Cmd) :
    Within F (WebChatDispatcher.invite p session cmd) := by
  refine .bind .read fun s => ?_
  cases Session.getAttribute s.world session with
  | none => exact hF.send _ _
  | some c =>
    dsimp only
    cases UserCmd.inviteCharacter.parseFrom cmd.getContent with
    | none => exact hF.sendResult _ _
    | some invitation =>
      dsimp only
      cases RoomStateGroupFactory.find s (UserCmd.InviteCharacter.getRoomId invitation) with
      | none => exact hF.sendResult _ _
      | some r =>
        dsimp only
        cases ChatterFactory.find s (UserCmd.InviteCharacter.getCharacterId p invitation) with
        | none => exact hF.sendResult _ _
        | some invited =>
          exact .bind (hF.sendResult _ _) fun _ =>
            inWorld_sending hF.sending fun hG => sendResult_within hG _ _

/-- The reply to a CREATE_ROOM. -/
theorem replyCreated_within (session : SessionRef) (r : RoomRef) :
    Within F (WebChatDispatcher.replyCreated p session r) :=
  .bind .read fun _ =>
    .bind (inWorld_sending hF.sending fun _ => createRoomResult_within _ _ _ _) fun _ => hF.send _ _

end

section
variable {p : Platform} {F : Frame Server} (hF : Frame.AllowsEntries p F)
include hF

/-- The entry of a character into a room. -/
theorem enterRoomAs_within (session : SessionRef) (roomId : BitVec 64) (c : Character) :
    Within F (WebChatDispatcher.enterRoomAs p session roomId c) := by
  refine .bind .read fun s => ?_
  cases RoomStateGroupFactory.find s roomId with
  | none =>
    exact .bind (inWorld_sending hF.sending fun _ => enterRoomResult_within _ _ _ _) fun _ =>
      hF.send _ _
  | some r =>
    exact .bind (hF.entering r c) fun _ => .ite (.pure ()) <|
      .bind (inWorld_sending hF.sending fun _ => enterRoomResult_within _ _ _ _) fun _ =>
        hF.send _ _

end

section
variable {p : Platform} {F : Frame Server} (hF : Frame.AllowsRooms p F)
include hF

/-- The handler of CREATE_ROOM. -/
theorem createRoom_within (session : SessionRef) (cmd : Cmd) :
    Within F (WebChatDispatcher.createRoom p session cmd) := by
  unfold WebChatDispatcher.createRoom
  cases UserCmd.createRoom.parseFrom cmd.getContent with
  | none =>
    exact .bind (inWorld_sending hF.sending fun _ => createRoomResult_within _ _ _ _) fun _ =>
      hF.send _ _
  | some m =>
    refine .bind .read fun s => ?_
    cases Session.getAttribute s.world session with
    | none => exact hF.sendResult _ _
    | some c =>
      exact .bind (hF.creating c _) fun r => .bind (hF.entering r c) fun _ =>
        .bind (hF.adding r) fun _ => replyCreated_within hF.toAllowsCommands session r

end

section
variable {F : Frame Server} (hC : Frame.AllowsCharacters F)
include hC

/-- The character of a session, which is found or created. -/
theorem characterOf_within (session : SessionRef) (userId : String) :
    Within F (WebChatDispatcher.characterOf session userId) := by
  refine .bind .read fun s => ?_
  cases Session.getAttribute s.world session with
  | some c => exact .pure c
  | none =>
    refine .bind (hC.finding _ _) fun ⟨isNew, c⟩ => ?_
    have hrest : Within F (do
        inWorld (Session.setAttribute session c)
        return c) := .bind (hC.attributing _ _) fun _ => .pure _
    exact .ite hrest (.bind (hC.displacing _ _) fun _ => hrest)

variable {p : Platform}

/-- The handler of LOGIN. -/
theorem login_within (hF : Frame.AllowsCommands F) (session : SessionRef) (cmd : Cmd) :
    Within F (WebChatDispatcher.login p session cmd) := by
  unfold WebChatDispatcher.login
  cases UserCmd.login.parseFrom cmd.getContent with
  | none => exact hF.sendResult _ _
  | some m =>
    exact .bind (hC.finding _ _) fun _ => .bind (hC.attributing _ _) fun _ =>
      .ite (hF.sendResult _ _) (.bind (hC.displacing _ _) fun _ => hF.sendResult _ _)

/-- Every handler but those that enter a room. -/
theorem handler_within_of_stays (hF : Frame.AllowsCommands F) (session : SessionRef) (cmd : Cmd)
    (hcreate : cmd.getCmdType ≠ CmdType.createRoom) (henter : cmd.getCmdType ≠ CmdType.enterRoom) :
    Within F (WebChatDispatcher.handler p session cmd) := by
  rw [WebChatDispatcher.handler, if_neg hcreate, if_neg henter]
  exact .ite (login_within hC hF session cmd) <| .ite (invite_within hF session cmd) <|
    handleOtherCmd_within hF session cmd

variable (hF : Frame.AllowsEntries p F)
include hF

/-- The handler of ENTER_ROOM. -/
theorem enterRoom_within (session : SessionRef) (cmd : Cmd) :
    Within F (WebChatDispatcher.enterRoom p session cmd) := by
  unfold WebChatDispatcher.enterRoom
  cases UserCmd.enterRoom.parseFrom cmd.getContent with
  | none =>
    exact .bind (inWorld_sending hF.sending fun _ => enterRoomResult_within _ _ _ _) fun _ =>
      hF.send _ _
  | some m =>
    exact .bind (characterOf_within hC _ _) fun c => enterRoomAs_within hF session _ c

/-- Every handler but that of CREATE_ROOM. -/
theorem handler_within_of_ne (session : SessionRef) (cmd : Cmd)
    (hcreate : cmd.getCmdType ≠ CmdType.createRoom) :
    Within F (WebChatDispatcher.handler p session cmd) := by
  by_cases henter : cmd.getCmdType = CmdType.enterRoom
  · rw [WebChatDispatcher.handler_enterRoom henter]
    exact enterRoom_within hC hF session cmd
  · exact handler_within_of_stays hC hF.toAllowsCommands session cmd hcreate henter

end

/-- Every handler. -/
theorem handler_within {p : Platform} {F : Frame Server} (hC : Frame.AllowsCharacters F)
    (hF : Frame.AllowsRooms p F) (session : SessionRef) (cmd : Cmd) :
    Within F (WebChatDispatcher.handler p session cmd) := by
  by_cases h : cmd.getCmdType = CmdType.createRoom
  · rw [WebChatDispatcher.handler_createRoom h]
    exact createRoom_within hF session cmd
  · exact handler_within_of_ne hC hF.toAllowsEntries session cmd h

/-! ## Frames of the sessions and characters -/

/-- The frame allows what an entry into a room does: sending, and setting a current room. -/
structure Frame.AllowsEntering (G : Frame World) : Prop extends Frame.AllowsSending G where
  currentRoom : ∀ w c roomId, G.rel w { w with
    chatters := Function.update w.chatters c { w.chatters c with currentRoomId := roomId } }

/-- Within `G` on the sessions and characters, with the same character registry. -/
def Server.frame (G : Frame World) : Frame Server where
  rel s s' := G.rel s.world s'.world ∧ s'.characterMap = s.characterMap ∧
    s'.nextSerial = s.nextSerial
  refl s := ⟨G.refl s.world, rfl, rfl⟩
  trans h h' := ⟨G.trans h.1 h'.1, h'.2.1.trans h.2.1, h'.2.2.trans h.2.2⟩

section
variable {p : Platform} {G : Frame World}

/-- What a frame allows in a room, it allows on the server. -/
theorem inRoom_frame {α : Type} {r : RoomRef} {m : Exec Room α}
    (h : Within (G.comap Room.world) m) : Within (Server.frame G) (inRoom r m) := by
  intro s
  rw [inRoom, endState_zoom]
  exact ⟨h ((Server.room r).get s), rfl, rfl⟩

/-- What a new room changes, when there is one: neither the sessions nor the characters. -/
theorem create_frame (c : Character) (config : RoomStateConfig) :
    Within (Server.frame G) (RoomStateGroupFactory.create p c config) := by
  intro s
  unfold endState RoomStateGroupFactory.create
  dsimp only
  cases s.stateGroupMap.get s.idCounter with
  | some r => exact ⟨G.refl s.world, rfl, rfl⟩
  | none =>
    dsimp only
    cases RoomStateGroup.create p s.idCounter c config s.roomCapacity s.world with
    | none => exact ⟨G.refl s.world, rfl, rfl⟩
    | some room => exact ⟨G.refl s.world, rfl, rfl⟩

/-- A command put in a room's queue concerns that room alone. -/
theorem addCharacterCmd_world (c : Character) (k : Cmd) :
    Within (G.comap Room.world) (AbstractStateGroup.addCharacterCmd c k) := by
  intro r
  rw [endState_ok (addCharacterCmd_eq c k r)]
  exact G.refl r.world

/-- Setting the current room of a character. -/
theorem setCurrentRoomId_within (hG : Frame.AllowsEntering G) (c : Character)
    (roomId : BitVec 64) : Within G (c.setCurrentRoomId roomId) :=
  .modify fun w => hG.currentRoom w c roomId

/-- The handlers keep out of the character registry but for LOGIN and ENTER_ROOM. -/
theorem Frame.AllowsEntering.allowsRooms (hG : Frame.AllowsEntering G) :
    Frame.AllowsRooms p (Server.frame G) where
  sending _ := {
    sent := fun w session msg => ⟨hG.sent w session msg, rfl, rfl⟩
    failed := fun w => ⟨hG.failed w, rfl, rfl⟩ }
  creating c config := create_frame c config
  entering _ c := inRoom_frame
    (enter_world hG.toAllowsSending (setCurrentRoomId_within hG c))
  adding _ := .modify fun s => ⟨G.refl s.world, rfl, rfl⟩
  queueing _ c k := inRoom_frame (addCharacterCmd_world c k)

end

end WebRtcNetty
