import WebRtcNetty.Server.RoomRegistry

/-!
# Members and their current rooms

Who is a member of a room is kept in the room, and which room a character is in is kept in the
character. An entry writes both; nothing takes a character out of the room it was in before. So a
member's current room is the one that it entered last (`run_members`), which need not be the room
that it is a member of.

Everything the server does but an entry keeps the two as they are, or removes members (`Stays`).
-/

namespace WebRtcNetty

open Java Proto2 Command Runs Server

/-! ## Entries -/

namespace WebChatDispatcher

variable (p : Platform)

/-- The first part of `enterRoom`: the character, and the room that it is to enter, if there is one
with the id. Reference: `enterRoom` (`WebChatDispatcher.java:162-178`). -/
def findRoom (session : SessionRef) (cmd : Cmd) : Exec Server (Option (Character × RoomRef)) :=
  match UserCmd.enterRoom.parseFrom cmd.getContent with
  | none => return none
  | some enterRoom => do
    let character ← characterOf session (UserCmd.EnterRoom.getUserId p enterRoom)
    let s ← get
    return (RoomStateGroupFactory.find s (UserCmd.EnterRoom.getRoomId enterRoom)).map
      fun room => (character, room)

/-- What a handler does before it calls `enter`, with the character and the room that it calls it
on. -/
def entry (session : SessionRef) (cmd : Cmd) : Exec Server (Option (Character × RoomRef)) :=
  if cmd.getCmdType = CmdType.createRoom then
    insertRoom p session cmd
  else if cmd.getCmdType = CmdType.enterRoom then
    findRoom p session cmd
  else
    return none

end WebChatDispatcher

/-- The member of the room under the id. -/
def Server.member (s : Server) (r : RoomRef) (id : String) : Option Character :=
  (s.rooms r).roomData.getCharacter id

/-- The room takes no more characters. -/
def Server.isFull (s : Server) (r : RoomRef) : Bool :=
  (s.rooms r).group.isFullCharacter (s.rooms r).roomData.characterSize

/-- The transition handles a command that lets the character into the room. -/
def Enters (p : Platform) (c : Character) (r : RoomRef) (t : Transition Server Op) : Prop :=
  ∃ session cmd s, t.label = .handle session cmd ∧
    WebChatDispatcher.entry p session cmd t.before = .ok (some (c, r)) s ∧ s.isFull r = false

/-- The transition handles a command of the character by putting it in the room's queue. -/
def Queues (c : Character) (r : RoomRef) (t : Transition Server Op) : Prop :=
  ∃ session cmd, t.label = .handle session cmd ∧
    ((Server.room r).get t.after).pending = ((Server.room r).get t.before).pending ++ [⟨c, cmd⟩]

/-- A transition lets one character into one room at most. -/
theorem Enters.unique {p : Platform} {t : Transition Server Op} {c c' : Character} {r r' : RoomRef}
    (h : Enters p c r t) (h' : Enters p c' r' t) : c = c' ∧ r = r' := by
  obtain ⟨session, cmd, s, hl, he, -⟩ := h
  obtain ⟨session', cmd', s', hl', he', -⟩ := h'
  rw [hl] at hl'
  cases hl'
  rw [he] at he'
  cases he'
  exact ⟨rfl, rfl⟩

/-! ## What leaves the rooms alone -/

/-- From `s` to `s'` no room gets a member, and the characters that there are have the same current
rooms. -/
structure Stays (s s' : Server) : Prop where
  roomCount : s.roomCount ≤ s'.roomCount
  nextSerial : s.nextSerial ≤ s'.nextSerial
  member : ∀ r < s'.roomCount, ∀ id c, s'.member r id = some c →
    r < s.roomCount ∧ s.member r id = some c
  currentRoom : ∀ c, c.serial < s.nextSerial → s'.world.currentRooms c = s.world.currentRooms c
  id : ∀ r < s.roomCount, (s'.rooms r).group.id = (s.rooms r).group.id

/-- The frame of code that lets nobody into a room. -/
def Server.stays : Frame Server where
  rel := Stays
  refl s := ⟨le_refl _, le_refl _, fun _ hr _ _ hc => ⟨hr, hc⟩, fun _ _ => rfl, fun _ _ => rfl⟩
  trans {s₁ s₂ s₃} h₁ h₂ := by
    refine ⟨h₁.roomCount.trans h₂.roomCount, h₁.nextSerial.trans h₂.nextSerial,
      fun r hr id c hc => ?_, fun c hc => ?_, fun r hr => ?_⟩
    · obtain ⟨hr₂, hc₂⟩ := h₂.member r hr id c hc
      exact h₁.member r hr₂ id c hc₂
    · exact (h₂.currentRoom c (hc.trans_le h₁.nextSerial)).trans (h₁.currentRoom c hc)
    · exact (h₂.id r (hr.trans_le h₁.roomCount)).trans (h₁.id r hr)

section
variable {p : Platform} {s s' : Server}

/-- What writes to no room, makes none, and keeps the current rooms. -/
theorem Stays.of_rooms (hcount : s'.roomCount = s.roomCount) (hrooms : s'.rooms = s.rooms)
    (hserial : s.nextSerial ≤ s'.nextSerial)
    (hcurrent : ∀ c, c.serial < s.nextSerial → s'.world.currentRooms c = s.world.currentRooms c) :
    Stays s s' where
  roomCount := hcount.ge
  nextSerial := hserial
  member r hr id c hc := by
    rw [hcount] at hr
    rw [Server.member, hrooms] at hc
    exact ⟨hr, hc⟩
  currentRoom := hcurrent
  id r _ := by rw [hrooms]

theorem inWorld_stays {α : Type} {m : Exec World α} (h : Within (.keeping World.currentRooms) m) :
    Within Server.stays (inWorld m) := by
  intro s
  rw [inWorld, endState_zoom]
  exact .of_rooms rfl rfl (le_refl _) fun c _ => congrFun (h s.world) c

/-- What happens in a room lets nobody in when it gives the room no member, and keeps the room's id
and the current rooms. -/
theorem inRoom_stays {α : Type} {r : RoomRef} {m : Exec Room α}
    (hmember : ∀ id c,
      (Room.roomData (endState m ((Server.room r).get s))).getCharacter id = some c →
        s.member r id = some c)
    (hid : (endState m ((Server.room r).get s)).group.id = (s.rooms r).group.id)
    (hcurrent : (Room.world (endState m ((Server.room r).get s))).currentRooms =
      s.world.currentRooms) : Stays s (endState (inRoom r m) s) := by
  refine ⟨roomCount_inRoom.ge, nextSerial_inRoom.ge, fun r' hr' id c hc => ?_, fun c _ => ?_,
    fun r' _ => ?_⟩
  · rw [roomCount_inRoom] at hr'
    refine ⟨hr', ?_⟩
    by_cases hr : r' = r
    · subst hr
      rw [Server.member, rooms_inRoom_self] at hc
      exact hmember id c hc
    · rwa [Server.member, rooms_inRoom_of_ne hr] at hc
  · rw [world_inRoom]
    exact congrFun hcurrent c
  · by_cases hr : r' = r
    · subst hr
      rw [rooms_inRoom_self]
      exact hid
    · rw [rooms_inRoom_of_ne hr]

/-! ## The handlers that enter no room -/

/-- A character that gets another session is in the same room. -/
theorem setSession_currentRooms (c : Character) (session : SessionRef) :
    Within (.keeping World.currentRooms) (c.setSession session) :=
  .bind .read fun _ => .bind (Session.sendResult_within allowsSending_currentRooms _ _) fun _ =>
    .modify fun w => by
      have hsame := Function.apply_update (fun _ (f : Chatter) => f.currentRoomId) w.chatters c
        { w.chatters c with session := session }
      exact (funext hsame).trans (Function.update_eq_self c w.currentRooms)

theorem allowsCommands_stays : Frame.AllowsCommands Server.stays where
  sending _ := ⟨fun _ _ _ => .of_rooms rfl rfl (le_refl _) fun _ _ => rfl,
    fun _ => .of_rooms rfl rfl (le_refl _) fun _ _ => rfl⟩
  queueing r c k s := by
    have hroom := endState_ok (addCharacterCmd_eq c k ((Server.room r).get s))
    refine inRoom_stays (fun id c hc => ?_) ?_ ?_
    · rwa [hroom] at hc
    · rw [hroom]
      rfl
    · rw [hroom]
      rfl

theorem allowsCharacters_stays : Frame.AllowsCharacters Server.stays where
  finding session userId s := by
    unfold endState ChatterFactory.findOrCreate
    cases s.characterMap.get userId with
    | some c => exact Server.stays.refl s
    | none =>
      refine .of_rooms rfl rfl (Nat.le_succ _) fun c hc => ?_
      have hne : c ≠ ⟨s.nextSerial, userId, none⟩ := by
        rintro rfl
        exact absurd hc (Nat.lt_irrefl _)
      exact congrArg Chatter.currentRoomId (Function.update_of_ne hne ..)
  attributing _ _ := inWorld_stays (.modify fun _ => rfl)
  displacing c session := inWorld_stays (setSession_currentRooms c session)

/-- A new room has no members. -/
theorem allowsCreations_stays : Frame.AllowsCreations p Server.stays where
  creating c config s := by
    unfold endState RoomStateGroupFactory.create
    dsimp only
    cases s.stateGroupMap.get s.idCounter with
    | some r => exact .of_rooms rfl rfl (le_refl _) fun _ _ => rfl
    | none =>
      dsimp only
      cases hc : RoomStateGroup.create p s.idCounter c config s.roomCapacity s.world with
      | none => exact .of_rooms rfl rfl (le_refl _) fun _ _ => rfl
      | some room =>
        obtain ⟨-, hspec, -⟩ := create_spec hc
        have hdata : room.roomData = .new c config := congrArg RoomSpec.data hspec
        have hne : ∀ {r}, r < s.roomCount →
            Function.update s.rooms s.roomCount (RoomObject.ofRoom room) r = s.rooms r := fun hr =>
          Function.update_of_ne (Nat.ne_of_lt hr) _ s.rooms
        refine ⟨Nat.le_succ _, le_refl _, fun r (hr : r < s.roomCount + 1) id c' hc' => ?_,
          fun _ _ => rfl, fun r hr => congrArg (·.group.id) (hne hr)⟩
        have hmember : (Function.update s.rooms s.roomCount (RoomObject.ofRoom room)
          r).roomData.getCharacter id = some c' := hc'
        rcases Nat.lt_succ_iff_lt_or_eq.1 hr with hr | rfl
        · rw [hne hr] at hmember
          exact ⟨hr, hmember⟩
        · rw [Function.update_self] at hmember
          have hnone : room.roomData.getCharacter id = some c' := hmember
          rw [hdata] at hnone
          cases (HashMap.get_empty id).symm.trans hnone
  adding _ := .modify fun _ => .of_rooms rfl rfl (le_refl _) fun _ _ => rfl

/-- A command may remove a member, and adds none. -/
theorem RoomData.member_after {d : RoomData} {phase : Phase} {c c' : Character} {k : Cmd}
    {id : String} (h : (d.after p phase c k).getCharacter id = some c') :
    d.getCharacter id = some c' := by
  rcases RoomData.after_cases p d phase c k with he | ⟨-, -, he⟩ | ⟨id', -, -, he⟩
  · rwa [he] at h
  · rw [he] at h
    exact h
  · rw [he] at h
    have hget : (d.characterMap.remove id').2.get id = some c' := h
    rw [HashMap.get_remove_eq] at hget
    split at hget
    · cases hget
    · exact hget

/-- An update lets nobody in. -/
theorem update_stays {r : RoomRef} (hwf : s.WellFormed p) (hr : r < s.roomCount) :
    Stays s (endState (inRoom r AbstractStateGroup.update) s) := by
  obtain ⟨ph, hph⟩ := hwf.inPhase r hr
  refine inRoom_stays (fun id c hc => ?_) ?_ (update_world allowsSending_currentRooms hph)
  · cases hq : ((Server.room r).get s).pending with
    | nil => rwa [update_of_pending_nil hq] at hc
    | cons pair rest =>
      rw [(update_handles hph hq).roomData] at hc
      exact RoomData.member_after hc
  · exact congrArg Prod.fst (AbstractStateGroup.update_config ((Server.room r).get s))

theorem background_stays (hwf : s.WellFormed p) (b : Background) :
    Stays s (endState (b.run p) s) := by
  cases b with
  | update r =>
    by_cases hr : r < s.roomCount
    · rw [endState_update hr]
      exact update_stays hwf hr
    · rw [endState_update_of_not_lt hr]
      exact Server.stays.refl s
  | removeOffLine => exact .of_rooms rfl rfl (le_refl _) fun _ _ => rfl
  | removeDeposedStateGroup => exact .of_rooms rfl rfl (le_refl _) fun _ _ => rfl
  | removeWorker => exact .of_rooms rfl rfl (le_refl _) fun _ _ => rfl
  | removeDeposedGroup worker => exact .of_rooms rfl rfl (le_refl _) fun _ _ => rfl
  | close session => exact .of_rooms rfl rfl (le_refl _) fun _ _ => rfl

/-! ## What an entry does -/

/-- A character that a room lets in is a member of it and is in it; the other members, and the rooms
the others are in, are as before. -/
structure LetsIn (c : Character) (r : RoomRef) (s s' : Server) : Prop where
  roomCount : s'.roomCount = s.roomCount
  nextSerial : s'.nextSerial = s.nextSerial
  member : ∀ r' id c', s'.member r' id = some c' →
    r' = r ∧ c' = c ∨ s.member r' id = some c'
  currentRooms : s'.world.currentRooms =
    Function.update s.world.currentRooms c (s.rooms r).group.id
  id : ∀ r', (s'.rooms r').group.id = (s.rooms r').group.id

theorem letsIn (c : Character) (r : RoomRef) (hfull : s.isFull r = false) :
    LetsIn c r s (endState (inRoom r (RoomStateGroup.enter p c)) s) := by
  refine ⟨roomCount_inRoom, nextSerial_inRoom, fun r' id c' hc' => ?_, ?_, fun r' => ?_⟩
  · by_cases hr : r' = r
    · subst hr
      have hdata := roomData_enter (p := p) c ((Server.room r').get s)
      have hfull' : ((Server.room r').get s).group.isFullCharacter
          ((Server.room r').get s).roomData.characterSize = false := hfull
      rw [if_neg (by simp [hfull'])] at hdata
      rw [Server.member, rooms_inRoom_self] at hc'
      have hput : ((s.rooms r').roomData.characterMap.put c.getId c).get id = some c' :=
        (congrArg (fun d => RoomData.getCharacter d id) hdata).symm.trans hc'
      rw [HashMap.get_put_eq] at hput
      split at hput
      · cases hput
        exact .inl ⟨rfl, rfl⟩
      · exact .inr hput
    · rw [Server.member, rooms_inRoom_of_ne hr] at hc'
      exact .inr hc'
  · rw [world_inRoom]
    exact currentRooms_enter c hfull
  · by_cases hr : r' = r
    · subst hr
      rw [rooms_inRoom_self]
      exact congrArg AbstractStateGroup.id (enter_group c ((Server.room r').get s)).1
    · rw [rooms_inRoom_of_ne hr]

/-- Entering a room that is full changes nothing. -/
theorem enter_of_isFull (c : Character) (r : RoomRef) (hfull : s.isFull r = true) :
    endState (inRoom r (RoomStateGroup.enter p c)) s = s := by
  have hfull' : ((Server.room r).get s).group.isFullCharacter
      ((Server.room r).get s).roomData.characterSize = true := hfull
  have hsame : endState (RoomStateGroup.enter p c) ((Server.room r).get s) =
      (Server.room r).get s := endState_bind_ok (superEnter_full hfull')
  rw [inRoom, endState_zoom, hsame, Lens.set_get]

/-! ## What the handlers do -/

section
variable {F : Frame Server} (hF : Frame.AllowsCommands F) (hN : Frame.AllowsCreations p F)
variable (hC : Frame.AllowsCharacters F)

include hF hN in
theorem insertRoom_within (session : SessionRef) (cmd : Cmd) :
    Within F (WebChatDispatcher.insertRoom p session cmd) := by
  unfold WebChatDispatcher.insertRoom
  cases UserCmd.createRoom.parseFrom cmd.getContent with
  | none =>
    exact .bind (inWorld_sending hF.sending fun _ => createRoomResult_within _ _ _ _) fun _ =>
      .bind (hF.send _ _) fun _ => .pure _
  | some m =>
    refine .bind .read fun s => ?_
    cases Session.getAttribute s.world session with
    | none => exact .bind (hF.sendResult _ _) fun _ => .pure _
    | some c => exact .bind (hN.creating c _) fun _ => .pure _

include hC in
theorem findRoom_within (session : SessionRef) (cmd : Cmd) :
    Within F (WebChatDispatcher.findRoom p session cmd) := by
  unfold WebChatDispatcher.findRoom
  cases UserCmd.enterRoom.parseFrom cmd.getContent with
  | none => exact .pure _
  | some m => exact .bind (characterOf_within hC _ _) fun _ => .bind .read fun _ => .pure _

include hF hN hC in
theorem entry_within (session : SessionRef) (cmd : Cmd) :
    Within F (WebChatDispatcher.entry p session cmd) :=
  .ite (insertRoom_within hF hN session cmd) (.ite (findRoom_within hC session cmd) (.pure none))

include hF hN in
/-- `finishCreation` comes after the entry. -/
theorem finishCreation_within (session : SessionRef) (r : RoomRef) :
    Within F (WebChatDispatcher.finishCreation p session r) :=
  .bind (hN.adding r) fun _ => replyCreated_within hF session r

variable {session : SessionRef} {cmd : Cmd} {c : Character} {r : RoomRef} {s₁ : Server}

include hF hN in
theorem createRoom_entry (h : WebChatDispatcher.insertRoom p session cmd s = .ok (some (c, r)) s₁) :
    F.rel (endState (inRoom r (RoomStateGroup.enter p c)) s₁)
      (endState (WebChatDispatcher.createRoom p session cmd) s) := by
  rw [WebChatDispatcher.createRoom_eq, endState_bind_ok h]
  exact Within.bind_rel (fun _ => finishCreation_within hF hN session r) s₁

include hF hN in
theorem createRoom_stays
    (h : ∀ x s₁, WebChatDispatcher.insertRoom p session cmd s ≠ .ok (some x) s₁) :
    F.rel s (endState (WebChatDispatcher.createRoom p session cmd) s) := by
  have hinsert := insertRoom_within hF hN session cmd s
  rw [WebChatDispatcher.createRoom_eq]
  cases hi : WebChatDispatcher.insertRoom p session cmd s with
  | ok inserted s₁ =>
    cases inserted with
    | none =>
      rw [endState_ok hi] at hinsert
      rw [endState_bind_ok hi]
      exact hinsert
    | some x => exact absurd hi (h x s₁)
  | error e s₁ =>
    rw [endState_error hi] at hinsert
    rw [endState_bind_error hi]
    exact hinsert

include hF in
theorem enterRoom_entry (h : WebChatDispatcher.findRoom p session cmd s = .ok (some (c, r)) s₁) :
    F.rel (endState (inRoom r (RoomStateGroup.enter p c)) s₁)
      (endState (WebChatDispatcher.enterRoom p session cmd) s) := by
  unfold WebChatDispatcher.findRoom at h
  unfold WebChatDispatcher.enterRoom
  cases hparse : UserCmd.enterRoom.parseFrom cmd.getContent with
  | none =>
    rw [hparse] at h
    cases h
  | some m =>
    simp only [hparse] at h
    obtain ⟨c', s', hc, h⟩ := bind_eq_ok h
    rw [run_bind_ok (run_get s'), run_pure] at h
    injection h with hfound hs
    subst hs
    obtain ⟨r', hfind, hcr⟩ := Option.map_eq_some_iff.1 hfound
    cases hcr
    dsimp only
    rw [endState_bind_ok hc, WebChatDispatcher.enterRoomAs, endState_get_bind, hfind]
    exact Within.bind_rel (fun _ => .ite (.pure ()) <|
      .bind (inWorld_sending hF.sending fun _ => enterRoomResult_within _ _ _ _)
        fun _ => hF.send _ _) s'

include hF hC in
theorem enterRoom_stays
    (h : ∀ x s₁, WebChatDispatcher.findRoom p session cmd s ≠ .ok (some x) s₁) :
    F.rel s (endState (WebChatDispatcher.enterRoom p session cmd) s) := by
  have hsends : ∀ code msg roomId, Within F (do
      let msg ← inWorld (CmdUtil.enterRoomResult p code msg roomId none)
      inWorld (Session.send session (.message msg))) := fun _ _ _ =>
    .bind (inWorld_sending hF.sending fun _ => enterRoomResult_within _ _ _ _) fun _ => hF.send _ _
  unfold WebChatDispatcher.findRoom at h
  unfold WebChatDispatcher.enterRoom
  cases hparse : UserCmd.enterRoom.parseFrom cmd.getContent with
  | none => exact hsends _ _ _ s
  | some m =>
    simp only [hparse] at h
    dsimp only
    have hstays := characterOf_within hC session (UserCmd.EnterRoom.getUserId p m) s
    cases hc : WebChatDispatcher.characterOf session (UserCmd.EnterRoom.getUserId p m) s with
    | ok c s₁ =>
      rw [endState_ok hc] at hstays
      rw [endState_bind_ok hc, WebChatDispatcher.enterRoomAs, endState_get_bind]
      cases hfind : RoomStateGroupFactory.find s₁ (UserCmd.EnterRoom.getRoomId m) with
      | none => exact F.trans hstays (hsends _ _ _ s₁)
      | some r =>
        refine absurd ?_ (h (c, r) s₁)
        rw [run_bind_ok hc, run_bind_ok (run_get s₁), hfind]
        rfl
    | error e s₁ =>
      rw [endState_error hc] at hstays
      rw [endState_bind_error hc]
      exact hstays

include hF hN hC

/-- What a handler that calls `enter` does before and after it. -/
theorem handler_entry (h : WebChatDispatcher.entry p session cmd s = .ok (some (c, r)) s₁) :
    F.rel s s₁ ∧ F.rel (endState (inRoom r (RoomStateGroup.enter p c)) s₁)
      (endState (WebChatDispatcher.handler p session cmd) s) := by
  have hbefore := entry_within hF hN hC session cmd s
  rw [endState_ok h] at hbefore
  refine ⟨hbefore, ?_⟩
  unfold WebChatDispatcher.entry at h
  by_cases hcreate : cmd.getCmdType = CmdType.createRoom
  · rw [if_pos hcreate] at h
    rw [WebChatDispatcher.handler_createRoom hcreate]
    exact createRoom_entry hF hN h
  rw [if_neg hcreate] at h
  by_cases henter : cmd.getCmdType = CmdType.enterRoom
  · rw [if_pos henter] at h
    rw [WebChatDispatcher.handler_enterRoom henter]
    exact enterRoom_entry hF h
  · rw [if_neg henter] at h
    cases h

/-- What a handler that does not call `enter` does. -/
theorem handler_stays (h : ∀ x s₁, WebChatDispatcher.entry p session cmd s ≠ .ok (some x) s₁) :
    F.rel s (endState (WebChatDispatcher.handler p session cmd) s) := by
  unfold WebChatDispatcher.entry at h
  by_cases hcreate : cmd.getCmdType = CmdType.createRoom
  · rw [if_pos hcreate] at h
    rw [WebChatDispatcher.handler_createRoom hcreate]
    exact createRoom_stays hF hN h
  rw [if_neg hcreate] at h
  by_cases henter : cmd.getCmdType = CmdType.enterRoom
  · rw [if_pos henter] at h
    rw [WebChatDispatcher.handler_enterRoom henter]
    exact enterRoom_stays hF hC h
  · exact handler_within_of_stays hC hF session cmd hcreate henter s

end

end

/-! ## Characters that there are -/

/-- The characters that the sessions act for and that the registry has. -/
structure Sessions.Known (b : Sessions) : Prop where
  character : ∀ session c, b.character session = some c → c.serial < b.nextSerial
  registered : ∀ id c, b.characterMap.get id = some c → c.serial < b.nextSerial

section
variable {p : Platform}

theorem known_initial (remoteAddress : SessionRef → Option String) (sendFails : Nat → Bool)
    (roomCapacity : Int) (m : WorkerManager RoomRef) :
    (Server.initial (.initial remoteAddress sendFails) roomCapacity m).sessions.Known where
  character session c hc := by cases hc
  registered id c hc := by
    have hget : (∅ : HashMap String Character).get id = some c := hc
    rw [HashMap.get_empty] at hget
    cases hget

/-- A session gets a character that there is. -/
theorem Sessions.Known.setAttribute {b : Sessions} {c : Character} (h : b.Known)
    (session : SessionRef) (hc : c.serial < b.nextSerial) : (b.setAttribute session c).Known where
  character session' c' hc' := by
    have hupdate : Function.update b.character session (some c) session' = some c' := hc'
    by_cases hs : session' = session
    · subst hs
      rw [Function.update_self] at hupdate
      cases hupdate
      exact hc
    · rw [Function.update_of_ne hs] at hupdate
      exact h.character session' c' hupdate
  registered := h.registered

theorem Sessions.Known.create {b : Sessions} (h : b.Known) (session : SessionRef)
    (userId : String) :
    (b.create session userId).2.Known where
  character session' c hc := Nat.lt_succ_of_lt (h.character session' c hc)
  registered id c hc := by
    have hput : (b.characterMap.put userId (b.create session userId).1).get id = some c := hc
    rw [HashMap.get_put_eq] at hput
    split at hput
    · cases hput
      exact Nat.lt_succ_self _
    · exact Nat.lt_succ_of_lt (h.registered id c hput)

theorem Sessions.Known.after {b : Sessions} (h : b.Known) (sendFails : Bool) (op : Op) :
    (b.after p sendFails op).Known := by
  cases op with
  | handle session cmd =>
    show (b.handle p sendFails session cmd).Known
    cases hu : b.looksUp p session cmd with
    | none => rw [Sessions.handle_of_looksUp_none hu]; exact h
    | some userId =>
      cases hget : b.characterMap.get userId with
      | none =>
        rw [Sessions.handle_of_get_none hu hget]
        exact (h.create session userId).setAttribute session (Nat.lt_succ_self _)
      | some c =>
        have hset := h.setAttribute session (h.registered userId c hget)
        rw [Sessions.handle_of_get_some hu hget]
        split
        · split
          · exact hset
          · exact h
        · exact ⟨hset.character, hset.registered⟩
  | background b =>
    cases b with
    | removeOffLine =>
      exact ⟨h.character, fun id c hc => h.registered id c ((HashMap.get_removeIf _ _ _ _).1 hc).1⟩
    | update r => exact h
    | removeDeposedStateGroup => exact h
    | removeWorker => exact h
    | removeDeposedGroup worker => exact h
    | close session => exact ⟨h.character, h.registered⟩

theorem known_findOrCreate {session : SessionRef} {userId : String} {isNew : Bool} {c : Character}
    {s s₁ : Server} (hs : s.sessions.Known)
    (h : ChatterFactory.findOrCreate session userId s = .ok (isNew, c) s₁) :
    c.serial < s₁.nextSerial := by
  unfold ChatterFactory.findOrCreate at h
  cases hget : s.characterMap.get userId with
  | some c' =>
    rw [hget] at h
    cases h
    exact hs.registered userId c hget
  | none =>
    rw [hget] at h
    cases h
    exact Nat.lt_succ_self _

theorem known_characterOf {session : SessionRef} {userId : String} {c : Character} {s s₁ : Server}
    (hs : s.sessions.Known) (h : WebChatDispatcher.characterOf session userId s = .ok c s₁) :
    c.serial < s₁.nextSerial := by
  rw [WebChatDispatcher.characterOf, run_bind_ok (run_get s)] at h
  cases hattr : Session.getAttribute s.world session with
  | some c' =>
    rw [hattr] at h
    cases h
    exact hs.character session c hattr
  | none =>
    rw [hattr] at h
    obtain ⟨⟨isNew, c'⟩, s₂, hfind, hrest⟩ := bind_eq_ok h
    have hset : ∀ {s₃}, (do
        inWorld (Session.setAttribute session c')
        return c' : Exec Server Character) s₃ = .ok c s₁ →
          c = c' ∧ s₁.nextSerial = s₃.nextSerial := fun h => by
      obtain ⟨_, s₄, hset, hc⟩ := bind_eq_ok h
      cases hc
      cases hset
      exact ⟨rfl, rfl⟩
    cases isNew with
    | true =>
      obtain ⟨rfl, hserial⟩ := hset hrest
      rw [hserial]
      exact known_findOrCreate hs hfind
    | false =>
      obtain ⟨_, s₃, hdisplace, hrest⟩ := bind_eq_ok hrest
      obtain ⟨rfl, hserial⟩ := hset hrest
      have hdisplaced : Stays s₂ s₃ := by
        rw [← endState_ok hdisplace]
        exact allowsCharacters_stays.displacing c session s₂
      rw [hserial]
      exact (known_findOrCreate hs hfind).trans_le hdisplaced.nextSerial

/-- The creator of a room is a character that there is, and the registry has the room. -/
theorem insertRoom_spec {session : SessionRef} {cmd : Cmd} {c : Character} {r : RoomRef}
    {s s₁ : Server} (hs : s.sessions.Known)
    (h : WebChatDispatcher.insertRoom p session cmd s = .ok (some (c, r)) s₁) :
    c.serial < s₁.nextSerial ∧ ∃ k, RoomStateGroupFactory.find s₁ k = some r := by
  constructor
  · have hstays : Stays s (endState (WebChatDispatcher.insertRoom p session cmd) s) :=
      insertRoom_within allowsCommands_stays allowsCreations_stays session cmd s
    rw [endState_ok h] at hstays
    refine lt_of_lt_of_le ?_ hstays.nextSerial
    unfold WebChatDispatcher.insertRoom at h
    cases hparse : UserCmd.createRoom.parseFrom cmd.getContent with
    | none =>
      rw [hparse] at h
      obtain ⟨_, _, -, h⟩ := bind_eq_ok h
      obtain ⟨_, _, -, h⟩ := bind_eq_ok h
      cases h
    | some m =>
      simp only [hparse] at h
      rw [run_bind_ok (run_get s)] at h
      cases hattr : Session.getAttribute s.world session with
      | none =>
        rw [hattr] at h
        obtain ⟨_, _, -, h⟩ := bind_eq_ok h
        cases h
      | some c' =>
        rw [hattr] at h
        obtain ⟨r', _, -, h⟩ := bind_eq_ok h
        cases h
        exact hs.character session c hattr
  · refine ⟨s.idCounter, ?_⟩
    rcases RoomRegistry.insertRoom_cases (p := p) session cmd s with
      ⟨hne, -⟩ | ⟨c', r', s', hinsert, -, hlisting⟩
    · exact absurd h (hne _ _)
    · rw [hinsert] at h
      cases h
      rcases hlisting with ⟨hget, hlisting⟩ | ⟨-, rfl, -, hlisting⟩
      · have hmap : s₁.stateGroupMap = s.stateGroupMap :=
          congrArg RoomRegistry.Listing.map hlisting
        rw [RoomStateGroupFactory.find, hmap]
        exact hget
      · have hmap : s₁.stateGroupMap = s.stateGroupMap.put s.idCounter s.roomCount :=
          congrArg RoomRegistry.Listing.map hlisting
        rw [RoomStateGroupFactory.find, hmap]
        exact HashMap.get_put _ _ _

theorem findRoom_spec {session : SessionRef} {cmd : Cmd} {c : Character} {r : RoomRef}
    {s s₁ : Server} (hs : s.sessions.Known)
    (h : WebChatDispatcher.findRoom p session cmd s = .ok (some (c, r)) s₁) :
    c.serial < s₁.nextSerial ∧ ∃ k, RoomStateGroupFactory.find s₁ k = some r := by
  unfold WebChatDispatcher.findRoom at h
  cases hparse : UserCmd.enterRoom.parseFrom cmd.getContent with
  | none =>
    rw [hparse] at h
    cases h
  | some m =>
    simp only [hparse] at h
    obtain ⟨c', s', hc, h⟩ := bind_eq_ok h
    rw [run_bind_ok (run_get s'), run_pure] at h
    injection h with hfound hs'
    subst hs'
    obtain ⟨r', hfind, hcr⟩ := Option.map_eq_some_iff.1 hfound
    cases hcr
    exact ⟨known_characterOf hs hc, _, hfind⟩

/-- The character that a handler calls `enter` with is one that there is, and so is the room. -/
theorem entry_spec {session : SessionRef} {cmd : Cmd} {c : Character} {r : RoomRef} {s s₁ : Server}
    (hwf : s.WellFormed p) (hs : s.sessions.Known)
    (h : WebChatDispatcher.entry p session cmd s = .ok (some (c, r)) s₁) :
    c.serial < s₁.nextSerial ∧ r < s₁.roomCount := by
  have hwf₁ : WellFormed p (endState (WebChatDispatcher.entry p session cmd) s) :=
    entry_within allowsRooms_wellFormed.toAllowsCommands allowsRooms_wellFormed.toAllowsCreations
      allowsCharacters_wellFormed session cmd s hwf
  rw [endState_ok h] at hwf₁
  have hspec : c.serial < s₁.nextSerial ∧ ∃ k, RoomStateGroupFactory.find s₁ k = some r := by
    unfold WebChatDispatcher.entry at h
    split at h
    · exact insertRoom_spec hs h
    split at h
    · exact findRoom_spec hs h
    · cases h
  obtain ⟨hknown, k, hfind⟩ := hspec
  exact ⟨hknown, (hwf₁.registered k r hfind).1⟩

end

/-! ## The room that a character entered last -/

/-- The room that the character entered last has the id of the character's current room. -/
def LastEntered (p : Platform) (ts : List (Transition Server Op)) (s : Server) (c : Character) :
    Prop :=
  Latest (fun t => ∃ r, Enters p c r t) (fun t => ∃ r, Enters p c r t ∧ r < s.roomCount ∧
    (s.rooms r).group.id = s.world.currentRooms c) ts

/-- A member has entered the room, and its current room is the one that it entered last. -/
structure Entered (p : Platform) (ts : List (Transition Server Op)) (s : Server) (r : RoomRef)
    (c : Character) : Prop where
  known : c.serial < s.nextSerial
  entered : ∃ t ∈ ts, Enters p c r t
  last : LastEntered p ts s c

section
variable {p : Platform} {ts : List (Transition Server Op)} {t : Transition Server Op}
variable {s s' : Server} {c : Character} {r : RoomRef}

/-- A member that is let in nowhere, and whose current room is the same, has entered what it had. -/
theorem Entered.keep (h : Entered p ts s r c) (hserial : s.nextSerial ≤ s'.nextSerial)
    (hcount : s.roomCount ≤ s'.roomCount)
    (hid : ∀ r < s.roomCount, (s'.rooms r).group.id = (s.rooms r).group.id)
    (hcurrent : s'.world.currentRooms c = s.world.currentRooms c) (ht : ¬ ∃ r, Enters p c r t) :
    Entered p (ts ++ [t]) s' r c where
  known := h.known.trans_le hserial
  entered := by
    obtain ⟨u, hu, he⟩ := h.entered
    exact ⟨u, List.mem_append_left _ hu, he⟩
  last := (h.last.mono fun u ⟨r', he, hr', hid'⟩ => ⟨r', he, hr'.trans_le hcount,
    (hid r' hr').trans (hid'.trans hcurrent.symm)⟩).snoc ht

/-- A character that is let in has the room as its current room. -/
theorem LastEntered.of_letsIn {s₁ s₂ : Server} (hlets : LetsIn c r s₁ s₂) (hs : Stays s₂ s')
    (hknown : c.serial < s₁.nextSerial) (hr : r < s₁.roomCount) (ht : Enters p c r t) :
    LastEntered p (ts ++ [t]) s' c := by
  have hr₂ : r < s₂.roomCount := hlets.roomCount ▸ hr
  refine .last ⟨r, ht⟩ ⟨r, ht, hr₂.trans_le hs.roomCount, ?_⟩
  rw [hs.id r hr₂, hlets.id, hs.currentRoom c (hlets.nextSerial ▸ hknown), hlets.currentRooms,
    Function.update_self]

/-- A step lets nobody in, or one character into one room; what else it does stays within every
frame that allows it. -/
theorem step_cases {F : Frame Server} (hF : Frame.AllowsCommands F) (hN : Frame.AllowsCreations p F)
    (hC : Frame.AllowsCharacters F) (hB : ∀ b, F.rel s (endState (Background.run p b) s)) {op : Op}
    (hwf : s.WellFormed p) (hk : s.sessions.Known) (hs : Step p s op s') :
    (F.rel s s' ∧ ∀ c, ¬ ∃ r, Enters p c r ⟨s, op, s'⟩) ∨
    ∃ c r s₁ s₂, Enters p c r ⟨s, op, s'⟩ ∧ c.serial < s₁.nextSerial ∧ r < s₁.roomCount ∧
      F.rel s s₁ ∧ LetsIn c r s₁ s₂ ∧ F.rel s₂ s' := by
  cases hs
  cases op with
  | background b =>
    refine .inl ⟨hB b, ?_⟩
    rintro c ⟨r, session, cmd, s₁, hl, -⟩
    cases hl
  | handle session cmd =>
    by_cases hentry : ∃ x s₁, WebChatDispatcher.entry p session cmd s = .ok (some x) s₁
    · obtain ⟨⟨c, r⟩, s₁, hentry⟩ := hentry
      obtain ⟨hbefore, hafter⟩ := handler_entry hF hN hC hentry
      cases hfull : s₁.isFull r with
      | false =>
        obtain ⟨hknown, hr⟩ := entry_spec hwf hk hentry
        exact .inr ⟨c, r, s₁, _, ⟨session, cmd, s₁, rfl, hentry, hfull⟩, hknown, hr, hbefore,
          letsIn c r hfull, hafter⟩
      | true =>
        rw [enter_of_isFull c r hfull] at hafter
        refine .inl ⟨F.trans hbefore hafter, ?_⟩
        rintro c' ⟨r', session', cmd', s', hl, hentry', hfull'⟩
        cases hl
        cases hentry.symm.trans hentry'
        exact absurd (hfull.symm.trans hfull') (by decide)
    · refine .inl ⟨handler_stays hF hN hC fun x s₁ h => hentry ⟨x, s₁, h⟩, ?_⟩
      rintro c ⟨r, session', cmd', s₁, hl, hentry', -⟩
      cases hl
      exact hentry ⟨_, s₁, hentry'⟩

/-- Every step keeps what the members have entered. -/
theorem entered_step {op : Op} (hwf : s.WellFormed p) (hk : s.sessions.Known)
    (h : ∀ r < s.roomCount, ∀ id c, s.member r id = some c → Entered p ts s r c)
    (hs : Step p s op s') : ∀ r < s'.roomCount, ∀ id c, s'.member r id = some c →
      Entered p (ts ++ [⟨s, op, s'⟩]) s' r c := by
  intro r hr id c hc
  rcases step_cases allowsCommands_stays allowsCreations_stays allowsCharacters_stays
      (background_stays hwf) hwf hk hs with
    ⟨hstays, ht⟩ | ⟨c₀, r₀, s₁, s₂, ht, hknown, hr₀, hbefore, hlets, hafter⟩
  · obtain ⟨hr, hc⟩ := hstays.member r hr id c hc
    have hold := h r hr id c hc
    exact hold.keep hstays.nextSerial hstays.roomCount hstays.id (hstays.currentRoom c hold.known)
      (ht c)
  · obtain ⟨hr₂, hc₂⟩ := hafter.member r hr id c hc
    have hlast : LastEntered p (ts ++ [⟨s, op, s'⟩]) s' c₀ := .of_letsIn hlets hafter hknown hr₀ ht
    rcases hlets.member r id c hc₂ with ⟨rfl, rfl⟩ | hc₁
    · exact ⟨(hlets.nextSerial ▸ hknown).trans_le hafter.nextSerial, ⟨_, by simp, ht⟩, hlast⟩
    · obtain ⟨hr, hc⟩ := hbefore.member r (hlets.roomCount ▸ hr₂) id c hc₁
      have hold := h r hr id c hc
      have hserial : s.nextSerial ≤ s₂.nextSerial := hlets.nextSerial ▸ hbefore.nextSerial
      by_cases hcc : c = c₀
      · subst hcc
        obtain ⟨u, hu, he⟩ := hold.entered
        exact ⟨(hold.known.trans_le hserial).trans_le hafter.nextSerial,
          ⟨u, List.mem_append_left _ hu, he⟩, hlast⟩
      · refine hold.keep (hserial.trans hafter.nextSerial)
          (hbefore.roomCount.trans (hlets.roomCount ▸ hafter.roomCount)) (fun r' hr' => ?_) ?_ ?_
        · have hr₁ : r' < s₁.roomCount := hr'.trans_le hbefore.roomCount
          rw [hafter.id r' (hlets.roomCount ▸ hr₁), hlets.id, hbefore.id r' hr']
        · rw [hafter.currentRoom c (hold.known.trans_le hserial), hlets.currentRooms,
            Function.update_of_ne hcc, hbefore.currentRoom c hold.known]
        · rintro ⟨r', he⟩
          exact hcc (he.unique ht).1

end

/-! ## Runs -/

section
variable {p : Platform} {remoteAddress : SessionRef → Option String} {sendFails : Nat → Bool}
variable {roomCapacity : Int} {m : WorkerManager RoomRef} {ts : List (Transition Server Op)}
variable {s : Server}

theorem run_known
    (hr : Run (Step p) (initial (.initial remoteAddress sendFails) roomCapacity m) ts s) :
    s.sessions.Known := by
  induction hr with
  | nil => exact known_initial _ _ _ _
  | snoc hr hs ih =>
    rw [sessions_step (run_wellFormed hr) hs]
    exact ih.after _ _

/-- Every member of a room has entered it. -/
theorem run_entered
    (hr : Run (Step p) (initial (.initial remoteAddress sendFails) roomCapacity m) ts s) :
    ∀ r < s.roomCount, ∀ id c, s.member r id = some c → Entered p ts s r c := by
  induction hr with
  | nil => exact fun r hr => absurd hr (Nat.not_lt_zero r)
  | snoc hr hs ih => exact entered_step (run_wellFormed hr) (run_known hr) ih hs

/-- Whoever is a member of a room that the registry has under an id has entered it, and its current
room is the one that it entered last: that id, as long as it has entered no other room since. -/
theorem run_members
    (hr : Run (Step p) (initial (.initial remoteAddress sendFails) roomCapacity m) ts s) :
    ∀ k r, RoomStateGroupFactory.find s k = some r → ∀ id c, s.member r id = some c →
      (∃ t ∈ ts, Enters p c r t) ∧ LastEntered p ts s c ∧
        ∀ us t vs, ts = us ++ t :: vs → Enters p c r t →
          (∀ v ∈ vs, ∀ r', Enters p c r' v → r' = r) → c.getCurrentRoomId s.world = k := by
  intro k r hfind id c hc
  obtain ⟨hlt, hid⟩ := (run_wellFormed hr).registered k r hfind
  have h := run_entered hr r hlt id c hc
  refine ⟨h.entered, h.last, fun us t vs hts ht hvs => ?_⟩
  have hlast := h.last
  unfold LastEntered at hlast
  rw [hts] at hlast
  obtain ⟨u, hu, r', he, -, hcurrent⟩ := hlast.since ⟨r, ht⟩
  have hrr : r' = r := by
    rcases List.mem_cons.1 hu with rfl | hu
    · exact (he.unique ht).2
    · exact hvs u hu r' he
  rw [← hid, ← hrr]
  exact hcurrent.symm

end

/-! ## A member of two rooms -/

/-- Alice logs in and creates a room. -/
def createOnce : List Op := [.handle 0 loginAlice, .handle 0 RoomRegistry.createAlice]

/-- Alice logs in and creates two rooms. -/
def createTwice : List Op := createOnce ++ [.handle 0 RoomRegistry.createAlice]

/-- Alice is a member of both rooms, and the second one is her current room. -/
theorem members_counterexample : ∃ s,
    Run (Step .standard) start (transitions .standard start createTwice) s ∧
      s.member 0 "alice" = some ⟨0, "alice", none⟩ ∧ s.member 1 "alice" = some ⟨0, "alice", none⟩ ∧
      ¬ ∀ k r, RoomStateGroupFactory.find s k = some r → ∀ id c, s.member r id = some c →
        c.getCurrentRoomId s.world = k := by
  refine ⟨_, run_transitions .standard createTwice start, by decide +kernel, by decide +kernel,
    fun h => ?_⟩
  have hcurrent := h 1 0 (by decide +kernel) "alice" ⟨0, "alice", none⟩ (by decide +kernel)
  revert hcurrent
  decide +kernel

/-- When alice has created one room, she has entered it last. -/
theorem run_members_alice : ∃ s,
    Run (Step .standard) start (transitions .standard start createOnce) s ∧
      s.member 0 "alice" = some ⟨0, "alice", none⟩ ∧
      LastEntered .standard (transitions .standard start createOnce) s ⟨0, "alice", none⟩ := by
  have hr := run_transitions .standard createOnce start
  have hmembers := run_members hr 1 0 (by decide +kernel) "alice" ⟨0, "alice", none⟩
    (by decide +kernel)
  exact ⟨_, hr, by decide +kernel, hmembers.2.1⟩

end WebRtcNetty
