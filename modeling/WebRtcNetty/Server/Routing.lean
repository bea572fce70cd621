import WebRtcNetty.Chat.Reconnect
import WebRtcNetty.Server.Membership
import WebRtcNetty.Server.Numbering

/-!
# The routing of commands to rooms

A command goes to the room that the registry has under the id its sender remembers. The id is set by
the entry, it is never reset, and the registry may lose the room meanwhile. `Routing` has the parts
of the handlers that create rooms, enter them and queue commands as steps of their own, so a room
may be swept, or entered by others, between the steps of one handler. The steps of a handler one
after the other are the handler, so a run of the server is a run of steps (`run_steps`).

As long as no method of a session throws, a character is routed to the room that let it in last, or
to none (`run_routing`).
-/

namespace WebRtcNetty

open Java Proto2 Command Runs Server

namespace Routing

/-- What can happen to the server: the parts of the handlers of CREATE_ROOM and ENTER_ROOM, the
other handlers, and what happens besides them. -/
inductive Op
  | create (session : SessionRef) (cmd : Cmd)
  | identify (session : SessionRef) (userId : String)
  | enter (character : Character) (room : RoomRef)
  | finish (session : SessionRef) (room : RoomRef)
  | send (session : SessionRef) (msg : PackageGroup)
  | login (session : SessionRef) (cmd : Cmd)
  | invite (session : SessionRef) (cmd : Cmd)
  | other (session : SessionRef) (cmd : Cmd)
  | background (b : Background)

section
variable (p : Platform)

/-- An entry is into a room that has been created, by any character, whether the registry still has
the room or not. -/
def Op.run : Op → Exec Server Unit
  | .create session cmd => do let _ ← WebChatDispatcher.insertRoom p session cmd
  | .identify session userId => do let _ ← WebChatDispatcher.characterOf session userId
  | .enter character room => do
    let s ← get
    if room < s.roomCount then
      let _ ← inRoom room (RoomStateGroup.enter p character)
    else pure ()
  | .finish session room => WebChatDispatcher.finishCreation p session room
  | .send session msg => inWorld (Session.send session (.message msg))
  | .login session cmd => WebChatDispatcher.login p session cmd
  | .invite session cmd => WebChatDispatcher.invite p session cmd
  | .other session cmd => WebChatDispatcher.handleOtherCmd session cmd
  | .background b => b.run p

/-- Every operation is atomic, and may throw. -/
def Step (s : Server) (op : Op) (s' : Server) : Prop := s' = endState (op.run p) s

theorem Step.of (s : Server) (op : Op) : Step p s op (endState (op.run p) s) := rfl

/-- The transition is a call of `enter` that returns true. -/
def Admits (c : Character) (r : RoomRef) (t : Transition Server Op) : Prop :=
  t.label = .enter c r ∧ r < t.before.roomCount ∧
    ∃ s, inRoom r (RoomStateGroup.enter p c) t.before = .ok true s

end

/-- The transition is a call of `handleOtherCmd` that puts a command of the character in the room's
queue. -/
def Routes (c : Character) (r : RoomRef) (t : Transition Server Op) : Prop :=
  ∃ session cmd, t.label = .other session cmd ∧
    ((Server.room r).get t.after).pending = ((Server.room r).get t.before).pending ++ [⟨c, cmd⟩]

/-- The room is the one that let the character in last. -/
def LastAdmitted (p : Platform) (ts : List (Transition Server Op)) (c : Character) (r : RoomRef) :
    Prop :=
  Latest (fun t => ∃ r', Admits p c r' t) (Admits p c r) ts

/-! ## The handlers in steps -/

section
variable {p : Platform} {s s' s'' : Server} {α β : Type}

/-- A part of a handler that is a step, and the steps of the rest. -/
theorem run_bind_step {m : Exec Server α} {f : α → Exec Server β} (op : Op)
    (hop : endState (op.run p) s = endState m s)
    (hf : ∀ a s₁, m s = .ok a s₁ → ∃ ts, Run (Step p) s₁ ts (endState (f a) s₁)) :
    ∃ ts, Run (Step p) s ts (endState (m >>= f) s) := by
  have hstep := Step.of p s op
  rw [hop] at hstep
  cases hm : m s with
  | ok a s₁ =>
    rw [endState_ok hm] at hstep
    obtain ⟨ts, hts⟩ := hf a s₁ hm
    rw [endState_bind_ok hm]
    exact ⟨_, .cons hstep hts⟩
  | error e s₁ =>
    rw [endState_error hm] at hstep
    rw [endState_bind_error hm]
    exact ⟨_, .single hstep⟩

/-- A part of a handler that writes nothing takes no step. -/
theorem run_bind_read {m : Exec Server α} {f : α → Exec Server β} (hm : Within (.keeping id) m)
    (hf : ∀ a, ∃ ts, Run (Step p) s ts (endState (f a) s)) :
    ∃ ts, Run (Step p) s ts (endState (m >>= f) s) := by
  have hsame : endState m s = s := hm s
  cases hms : m s with
  | ok a s₁ =>
    rw [endState_ok hms] at hsame
    rw [endState_bind_ok hms, hsame]
    exact hf a
  | error e s₁ =>
    rw [endState_error hms] at hsame
    rw [endState_bind_error hms, hsame]
    exact ⟨[], .nil⟩

/-- Whether a value is returned makes no difference to the memory. -/
theorem endState_ignore (m : Exec Server α) :
    endState (do let _ ← m : Exec Server Unit) s = endState m s := by
  cases hm : m s with
  | ok a s₁ => rw [endState_bind_ok hm, endState_ok hm]; rfl
  | error e s₁ => rw [endState_bind_error hm, endState_error hm]

theorem endState_enter {c : Character} {r : RoomRef} (hr : r < s.roomCount) :
    endState (Op.run p (.enter c r)) s = endState (inRoom r (RoomStateGroup.enter p c)) s := by
  rw [Op.run, endState_get_bind, if_pos hr]
  exact endState_ignore _

/-- The answer to an ENTER_ROOM that entered no room. -/
theorem reply_run (session : SessionRef) (code : BitVec 32) (msg : Option String)
    (roomId : BitVec 64) : ∃ ts, Run (Step p) s ts (endState (do
      let msg ← inWorld (CmdUtil.enterRoomResult p code msg roomId none)
      inWorld (Session.send session (.message msg))) s) := by
  have hbuild : Within (.keeping id) (inWorld (CmdUtil.enterRoomResult p code msg roomId none)) :=
    .zoom_set fun s => enterRoomResult_within code msg roomId none
  exact run_bind_read hbuild fun msg => ⟨_, .single (Step.of p s (.send session msg))⟩

/-- The steps of a CREATE_ROOM. -/
theorem createRoom_run (hwf : s.WellFormed p) (hk : s.sessions.Known) (session : SessionRef)
    (cmd : Cmd) :
    ∃ ts, Run (Step p) s ts (endState (WebChatDispatcher.createRoom p session cmd) s) := by
  rw [WebChatDispatcher.createRoom_eq]
  refine run_bind_step (.create session cmd) (endState_ignore _) fun inserted s₁ hinsert => ?_
  cases inserted with
  | none => exact ⟨[], .nil⟩
  | some x =>
    obtain ⟨c, r⟩ := x
    have hwf₁ : (endState (WebChatDispatcher.insertRoom p session cmd) s).WellFormed p :=
      insertRoom_within allowsRooms_wellFormed.toAllowsCommands
        allowsRooms_wellFormed.toAllowsCreations session cmd s hwf
    rw [endState_ok hinsert] at hwf₁
    obtain ⟨-, k, hfind⟩ := insertRoom_spec hk hinsert
    refine run_bind_step (.enter c r) (endState_enter (hwf₁.registered k r hfind).1)
      fun _ s₂ _ => ⟨_, .single (Step.of p s₂ (.finish session r))⟩

/-- The steps of an ENTER_ROOM. -/
theorem enterRoom_run (hwf : s.WellFormed p) (session : SessionRef) (cmd : Cmd) :
    ∃ ts, Run (Step p) s ts (endState (WebChatDispatcher.enterRoom p session cmd) s) := by
  unfold WebChatDispatcher.enterRoom
  cases UserCmd.enterRoom.parseFrom cmd.getContent with
  | none => exact reply_run _ _ _ _
  | some m =>
    refine run_bind_step (.identify session (UserCmd.EnterRoom.getUserId p m))
      (endState_ignore _) fun c s₁ hc => ?_
    have hwf₁ : (endState (WebChatDispatcher.characterOf session
        (UserCmd.EnterRoom.getUserId p m)) s).WellFormed p :=
      characterOf_within allowsCharacters_wellFormed session _ s hwf
    rw [endState_ok hc] at hwf₁
    rw [WebChatDispatcher.enterRoomAs, endState_get_bind]
    cases hfind : RoomStateGroupFactory.find s₁ (UserCmd.EnterRoom.getRoomId m) with
    | none => exact reply_run _ _ _ _
    | some r =>
      refine run_bind_step (.enter c r) (endState_enter (hwf₁.registered _ r hfind).1)
        fun entered s₂ _ => ?_
      cases entered with
      | true => exact ⟨[], .nil⟩
      | false => exact reply_run _ _ _ _

/-- Each step of the server is a run of steps. -/
theorem step_run {op : Server.Op} (hwf : s.WellFormed p) (hk : s.sessions.Known)
    (hs : Server.Step p s op s') : ∃ ts, Run (Step p) s ts s' := by
  cases hs
  cases op with
  | background b => exact ⟨_, .single (Step.of p s (.background b))⟩
  | handle session cmd =>
    show ∃ ts, Run (Step p) s ts (endState (WebChatDispatcher.handler p session cmd) s)
    unfold WebChatDispatcher.handler
    split
    · exact ⟨_, .single (Step.of p s (.login session cmd))⟩
    split
    · exact createRoom_run hwf hk session cmd
    split
    · exact enterRoom_run hwf session cmd
    split
    · exact ⟨_, .single (Step.of p s (.invite session cmd))⟩
    · exact ⟨_, .single (Step.of p s (.other session cmd))⟩

/-- Each run of the server is a run of steps. -/
theorem run_steps {remoteAddress : SessionRef → Option String} {sendFails : Nat → Bool}
    {roomCapacity : Int} {m : WorkerManager RoomRef} {ts : List (Transition Server Server.Op)}
    (hr : Run (Server.Step p) (initial (.initial remoteAddress sendFails) roomCapacity m) ts s) :
    ∃ us, Run (Step p) (initial (.initial remoteAddress sendFails) roomCapacity m) us s := by
  induction hr with
  | nil => exact ⟨[], .nil⟩
  | snoc hr hs ih =>
    obtain ⟨us, hus⟩ := ih
    obtain ⟨vs, hvs⟩ := step_run (run_wellFormed hr) (run_known hr) hs
    exact ⟨us ++ vs, hus.append hvs⟩

end

/-! ## What the steps keep -/

section
variable {p : Platform} {s s' : Server}

/-- Every step stays within a frame that allows what it does. -/
theorem op_within {F : Frame Server} (hF : Frame.AllowsCommands F)
    (hN : Frame.AllowsCreations p F) (hC : Frame.AllowsCharacters F)
    (hB : ∀ b, F.rel s (endState (Background.run p b) s)) (op : Op)
    (hE : ∀ c r, op = .enter c r → r < s.roomCount →
      F.rel s (endState (inRoom r (RoomStateGroup.enter p c)) s)) :
    F.rel s (endState (op.run p) s) := by
  cases op with
  | create session cmd =>
    rw [Op.run, endState_ignore]
    exact insertRoom_within hF hN session cmd s
  | identify session userId =>
    rw [Op.run, endState_ignore]
    exact characterOf_within hC session userId s
  | enter c r =>
    by_cases hr : r < s.roomCount
    · rw [endState_enter hr]
      exact hE c r rfl hr
    · rw [Op.run, endState_get_bind, if_neg hr]
      exact F.refl s
  | finish session r => exact finishCreation_within hF hN session r s
  | send session msg => exact hF.send session msg s
  | login session cmd => exact login_within hC hF session cmd s
  | invite session cmd => exact invite_within hF session cmd s
  | other session cmd => exact handleOtherCmd_within hF session cmd s
  | background b => exact hB b

theorem wellFormed_step {op : Op} (hs : Step p s op s') (h : s.WellFormed p) :
    s'.WellFormed p := by
  cases hs
  exact op_within (F := .preserving (WellFormed p)) allowsRooms_wellFormed.toAllowsCommands
    allowsRooms_wellFormed.toAllowsCreations allowsCharacters_wellFormed
    (fun b => wellFormed_background b s) op
    (fun c r _ _ => allowsRooms_wellFormed.entering r c s) h

/-- The rooms keep their numbers. -/
theorem numbering_step {op : Op} (hs : Step p s op s') : RoomRegistry.numbering.rel s s' := by
  cases hs
  have hrooms := RoomRegistry.allowsRooms_numbering (p := p)
  exact op_within hrooms.toAllowsCommands hrooms.toAllowsCreations
    RoomRegistry.allowsCharacters_numbering (fun b => RoomRegistry.background_numbering b s) op
    (fun c r _ _ => hrooms.entering r c s)

/-! ## The sessions -/

/-- Which calls of `send` fail, and the peers' addresses. -/
def behaviour (w : World) : (Nat → Bool) × (SessionRef → Option String) :=
  (w.sendFails, fun session => (w.channels session).remoteAddress)

theorem allowsServer_behaviour : Frame.AllowsServer (.keeping behaviour) where
  sent _ _ _ := rfl
  failed _ := rfl
  currentRoom _ _ _ := rfl
  attributing session c := .modify fun w => Prod.ext rfl
    ((funext (Function.apply_update (fun _ (ch : Channel) => ch.remoteAddress) w.channels session
      { w.channels session with character := some c })).trans (Function.update_eq_self ..))
  displacing _ _ := .bind .read fun _ =>
    .bind (Session.sendResult_within ⟨fun _ _ _ => rfl, fun _ => rfl⟩ _ _) fun _ =>
      .modify fun _ => rfl
  creating _ _ _ := rfl
  closing session := .modify fun w => Prod.ext rfl
    ((funext (Function.apply_update (fun _ (ch : Channel) => ch.remoteAddress) w.channels session
      { w.channels session with isActive := false })).trans (Function.update_eq_self ..))

/-- The sessions behave as before. -/
theorem behaviour_step {op : Op} (hwf : s.WellFormed p) (hs : Step p s op s') :
    behaviour s'.world = behaviour s.world := by
  cases hs
  have hrooms := allowsServer_behaviour.allowsRooms (p := p)
  have hstep : ∀ b, Server.Step p s (.background b)
      (endState ((Server.Op.background b).run p) s) := fun _ => rfl
  exact op_within hrooms.toAllowsCommands hrooms.toAllowsCreations
    allowsServer_behaviour.allowsCharacters
    (fun b => allowsServer_behaviour.step hwf (hstep b)) op
    (fun c r _ _ => hrooms.entering r c s)

/-! ## The current rooms -/

/-- From `w` to `w'` no character's current room changes, but that there may be new characters,
which are in no room. -/
def calm : Frame World where
  rel w w' := ∀ c, w'.currentRooms c = w.currentRooms c ∨ w'.currentRooms c = 0
  refl _ _ := .inl rfl
  trans {w₁ w₂ w₃} h₁ h₂ c := by
    rcases h₂ c with h | h
    · rw [h]
      exact h₁ c
    · exact .inr h

theorem calm_of_eq {w w' : World} (h : w'.currentRooms = w.currentRooms) : calm.rel w w' :=
  fun c => .inl (congrFun h c)

/-- A new character is in no room. -/
theorem calm_new (w : World) (c : Character) (session : SessionRef) : calm.rel w { w with
    chatters := Function.update w.chatters c ⟨session, true, 0⟩ } := by
  intro c'
  by_cases hc : c' = c
  · subst hc
    refine .inr ?_
    show (Function.update w.chatters c' ⟨session, true, 0⟩ c').currentRoomId = 0
    rw [Function.update_self]
  · refine .inl ?_
    show (Function.update w.chatters c ⟨session, true, 0⟩ c').currentRoomId = _
    rw [Function.update_of_ne hc]
    rfl

theorem allowsSending_calm : Frame.AllowsSending calm :=
  ⟨fun _ _ _ => calm_of_eq rfl, fun _ => calm_of_eq rfl⟩

theorem allowsCommands_calm : Frame.AllowsCommands (calm.comap Server.world) where
  sending _ := ⟨fun _ _ _ => calm_of_eq rfl, fun _ => calm_of_eq rfl⟩
  queueing _ c k := (inRoom_frame (G := calm) (addCharacterCmd_world c k)).mono fun _ _ h => h.1

theorem allowsCreations_calm : Frame.AllowsCreations p (calm.comap Server.world) where
  creating c config := (create_frame (G := calm) c config).mono fun _ _ h => h.1
  adding _ := .modify fun _ => calm_of_eq rfl

theorem allowsCharacters_calm : Frame.AllowsCharacters (calm.comap Server.world) where
  finding session userId s := by
    unfold endState ChatterFactory.findOrCreate
    cases s.characterMap.get userId with
    | some c => exact calm_of_eq rfl
    | none => exact calm_new s.world _ session
  attributing session c := Within.zoom (L := theWorld) (.modify fun _ => calm_of_eq rfl)
  displacing c session := Within.zoom (L := theWorld)
    ((setSession_currentRooms c session).mono fun _ _ => calm_of_eq)

theorem background_calm (hwf : s.WellFormed p) (b : Background) :
    calm.rel s.world (endState (b.run p) s).world := by
  cases b with
  | update r =>
    by_cases hr : r < s.roomCount
    · obtain ⟨ph, hph⟩ := hwf.inPhase r hr
      rw [endState_update hr, world_inRoom]
      exact update_world allowsSending_calm hph
    · rw [endState_update_of_not_lt hr]
      exact calm.refl s.world
  | removeOffLine => exact calm_of_eq rfl
  | removeDeposedStateGroup => exact calm_of_eq rfl
  | removeWorker => exact calm_of_eq rfl
  | removeDeposedGroup worker => exact calm_of_eq rfl
  | close session => exact calm_of_eq rfl

/-! ## What a step does to the current rooms -/

/-- A room that is not full lets the character in, where the methods of the sessions return. -/
theorem admits_of_not_full {c : Character} {r : RoomRef} (hsend : ∀ n, s.world.sendFails n = false)
    (haddr : ∀ session, (s.world.channels session).remoteAddress ≠ none)
    (hfull : s.isFull r = false) :
    ∃ s', inRoom r (RoomStateGroup.enter p c) s = .ok true s' := by
  have hfull' : ((Server.room r).get s).group.isFullCharacter
      ((Server.room r).get s).roomData.characterSize = false := hfull
  obtain ⟨b, room, hroom⟩ : Returns (RoomStateGroup.enter p c) ((Server.room r).get s) :=
    (RoomStateGroup.enter_returns_iff hfull').2 ⟨fun c' _ _ => haddr _, fun i _ => hsend _⟩
  have hb := RoomStateGroup.enter_value hfull' hroom
  subst hb
  exact ⟨_, zoom_ok hroom⟩

/-- A step lets one character into one room, and sets its current room, or is calm. -/
theorem step_cases {op : Op} (hwf : s.WellFormed p) (hsend : ∀ n, s.world.sendFails n = false)
    (haddr : ∀ session, (s.world.channels session).remoteAddress ≠ none) (hs : Step p s op s') :
    (calm.rel s.world s'.world ∧ ∀ c r, ¬ Admits p c r ⟨s, op, s'⟩) ∨
    ∃ c r, op = .enter c r ∧ r < s.roomCount ∧ Admits p c r ⟨s, op, s'⟩ ∧
      s'.world.currentRooms = Function.update s.world.currentRooms c (s.rooms r).group.id := by
  cases hs
  by_cases henter : ∃ c r, op = .enter c r ∧ r < s.roomCount ∧ s.isFull r = false
  · obtain ⟨c, r, rfl, hr, hfull⟩ := henter
    refine .inr ⟨c, r, rfl, hr, ⟨rfl, hr, admits_of_not_full hsend haddr hfull⟩, ?_⟩
    rw [endState_enter hr]
    exact (letsIn c r hfull).currentRooms
  · refine .inl ⟨?_, ?_⟩
    · refine op_within allowsCommands_calm allowsCreations_calm allowsCharacters_calm
        (fun b => background_calm hwf b) op fun c r hop hr => ?_
      cases hfull : s.isFull r with
      | false => exact absurd ⟨c, r, hop, hr, hfull⟩ henter
      | true =>
        rw [enter_of_isFull c r hfull]
        exact calm.refl s.world
    · rintro c r ⟨hl, hr, s₁, hadmit⟩
      cases hfull : s.isFull r with
      | false => exact henter ⟨c, r, hl, hr, hfull⟩
      | true =>
        have hfalse : inRoom r (RoomStateGroup.enter p c) s = .ok false _ :=
          zoom_ok (RoomStateGroup.enter_full hfull)
        cases hfalse.symm.trans hadmit

/-- A room's queue does not change when nothing is done in the room. -/
theorem not_routes_of_rooms {c : Character} {r : RoomRef} {t : Transition Server Op}
    (h : t.after.rooms r = t.before.rooms r) : ¬ Routes c r t := by
  rintro ⟨session, cmd, -, hpending⟩
  have hsame : ((Server.room r).get t.after).pending = ((Server.room r).get t.before).pending :=
    congrArg (fun o : RoomObject => o.group.cmdQueue.items) h
  rw [hsame] at hpending
  exact absurd (List.self_eq_append_right.1 hpending) (List.cons_ne_nil _ _)

/-- What `addCharacterCmd` puts in a queue is the character's command, in that room's queue. -/
theorem routes_of_addCharacterCmd {c c' : Character} {r r' : RoomRef} {cmd : Cmd}
    {t : Transition Server Op}
    (hrun : t.after = endState (inRoom r' (AbstractStateGroup.addCharacterCmd c' cmd)) t.before)
    (h : Routes c r t) : r' = r ∧ c' = c := by
  by_cases hr : r = r'
  · subst hr
    obtain ⟨session, cmd', -, hpending⟩ := h
    have hqueue : ((Server.room r).get t.after).pending =
        ((Server.room r).get t.before).pending ++
          if ((Server.room r).get t.before).pending.length < 1000 then [⟨c', cmd⟩] else [] := by
      rw [← pending_addCharacterCmd, hrun]
      exact congrArg (fun o : RoomObject => o.group.cmdQueue.items) rooms_inRoom_self
    have hput := List.append_cancel_left (hqueue.symm.trans hpending)
    split at hput
    · cases hput
      exact ⟨rfl, rfl⟩
    · cases hput
  · refine absurd h (not_routes_of_rooms ?_)
    rw [hrun]
    exact rooms_inRoom_of_ne hr

/-- A command that is put in a room's queue is put in that of the room that the registry has under
the sender's current room. -/
theorem find_of_routes {c : Character} {r : RoomRef} {t : Transition Server Op}
    (hs : Step p t.before t.label t.after) (h : Routes c r t) :
    RoomStateGroupFactory.find t.before (c.getCurrentRoomId t.before.world) = some r := by
  have hroutes := h
  obtain ⟨session, cmd, hl, hpending⟩ := h
  rw [hl] at hs
  have hrun : t.after = endState (WebChatDispatcher.handleOtherCmd session cmd) t.before := hs
  have hsends : ∀ msg,
      t.after ≠ endState (inWorld (Session.send session (.message msg))) t.before := by
    intro msg hm
    refine not_routes_of_rooms ?_ hroutes
    rw [hm, inWorld, endState_zoom]
    rfl
  rw [WebChatDispatcher.handleOtherCmd, endState_get_bind] at hrun
  cases hattr : Session.getAttribute t.before.world session with
  | none =>
    rw [hattr] at hrun
    exact absurd hrun (hsends _)
  | some c' =>
    rw [hattr] at hrun
    dsimp only at hrun
    cases hfind : RoomStateGroupFactory.find t.before (c'.getCurrentRoomId t.before.world) with
    | none =>
      rw [hfind] at hrun
      exact absurd hrun (hsends _)
    | some r' =>
      rw [hfind] at hrun
      dsimp only at hrun
      rw [endState_ignore] at hrun
      obtain ⟨rfl, rfl⟩ := routes_of_addCharacterCmd hrun hroutes
      exact hfind

end

/-! ## Runs -/

/-- The character's current room is none, or it is the room that let the character in last. -/
def Routed (p : Platform) (ts : List (Transition Server Op)) (s : Server) (c : Character) : Prop :=
  s.world.currentRooms c = 0 ∨ Latest (fun t => ∃ r, Admits p c r t) (fun t => ∃ r, Admits p c r t ∧
    r < s.roomCount ∧ s.world.currentRooms c = BitVec.ofNat 64 (r + 1)) ts

section
variable {p : Platform} {remoteAddress : SessionRef → Option String} {sendFails : Nat → Bool}
variable {roomCapacity : Int} {m : WorkerManager RoomRef} {ts : List (Transition Server Op)}
variable {s s' : Server}

theorem run_wellFormed
    (hr : Run (Step p) (initial (.initial remoteAddress sendFails) roomCapacity m) ts s) :
    s.WellFormed p :=
  hr.invariant (wellFormed_initial _ _ _) fun _ _ _ h hs => wellFormed_step hs h

theorem run_behaviour
    (hr : Run (Step p) (initial (.initial remoteAddress sendFails) roomCapacity m) ts s) :
    behaviour s.world = (sendFails, remoteAddress) := by
  induction hr with
  | nil => rfl
  | snoc hr hs ih => rw [behaviour_step (run_wellFormed hr) hs, ih]

theorem run_numbered
    (hr : Run (Step p) (initial (.initial remoteAddress sendFails) roomCapacity m) ts s)
    (hcount : s.roomCount < 2 ^ 63) : (RoomRegistry.listing s).Numbered s.idCounter := by
  induction hr with
  | nil => exact RoomRegistry.numbered_initial _ _ _
  | snoc hr hs ih =>
    obtain ⟨hle, hkeep⟩ := numbering_step hs
    exact hkeep hcount (ih (hle.trans_lt hcount))

/-- No room goes away. -/
theorem roomCount_le (hr : Run (Step p) s ts s') : s.roomCount ≤ s'.roomCount := by
  induction hr with
  | nil => exact le_refl _
  | snoc _ hs ih => exact ih.trans (numbering_step hs).1

/-- Every step keeps the characters' current rooms what they are to be. -/
theorem routed_step {op : Op} (hwf : s.WellFormed p) (hsend : ∀ n, s.world.sendFails n = false)
    (haddr : ∀ session, (s.world.channels session).remoteAddress ≠ none)
    (hnumbered : (RoomRegistry.listing s).Numbered s.idCounter) (h : ∀ c, Routed p ts s c)
    (hs : Step p s op s') : ∀ c, Routed p (ts ++ [⟨s, op, s'⟩]) s' c := by
  intro c
  have hcount : s.roomCount ≤ s'.roomCount := (numbering_step hs).1
  have hkeep : s'.world.currentRooms c = s.world.currentRooms c →
      (∀ r, ¬ Admits p c r ⟨s, op, s'⟩) → Routed p (ts ++ [⟨s, op, s'⟩]) s' c := by
    intro hsame hnot
    rw [Routed, hsame]
    refine (h c).imp id fun hlast => ?_
    refine (hlast.mono fun t ⟨r, ht, hr, hid⟩ => ⟨r, ht, hr.trans_le hcount, hid⟩).snoc ?_
    rintro ⟨r, ht⟩
    exact hnot r ht
  rcases step_cases hwf hsend haddr hs with
    ⟨hcalm, hnot⟩ | ⟨c₀, r₀, rfl, hr₀, hadmits, hcurrent⟩
  · rcases hcalm c with hsame | hzero
    · exact hkeep hsame (hnot c)
    · exact .inl hzero
  · by_cases hc : c = c₀
    · subst hc
      refine .inr (.last ⟨r₀, hadmits⟩ ⟨r₀, hadmits, hr₀.trans_le hcount, ?_⟩)
      rw [hcurrent, Function.update_self]
      exact hnumbered.id r₀ hr₀
    · refine hkeep (by rw [hcurrent, Function.update_of_ne hc]) ?_
      rintro r ⟨hl, -⟩
      cases hl
      exact hc rfl

theorem run_routed (hsend : ∀ n, sendFails n = false)
    (haddr : ∀ session, remoteAddress session ≠ none)
    (hr : Run (Step p) (initial (.initial remoteAddress sendFails) roomCapacity m) ts s)
    (hcount : s.roomCount < 2 ^ 63) : ∀ c, Routed p ts s c := by
  induction hr with
  | nil => exact fun c => .inl rfl
  | snoc hr hs ih =>
    have hlt := (numbering_step hs).1.trans_lt hcount
    have hbehaviour := run_behaviour hr
    have hfails := congrArg Prod.fst hbehaviour
    have haddress := congrArg Prod.snd hbehaviour
    exact routed_step (run_wellFormed hr) (fun n => (congrFun hfails n).trans (hsend n))
      (fun session he => haddr session ((congrFun haddress session).symm.trans he))
      (run_numbered hr hlt) (ih hlt) hs

/-- A room that the registry has under a character's current room let the character in last. -/
theorem lastAdmitted (hsend : ∀ n, sendFails n = false)
    (haddr : ∀ session, remoteAddress session ≠ none)
    (hr : Run (Step p) (initial (.initial remoteAddress sendFails) roomCapacity m) ts s)
    (hcount : s.roomCount < 2 ^ 63) {c : Character} {r : RoomRef}
    (hfind : RoomStateGroupFactory.find s (c.getCurrentRoomId s.world) = some r) :
    LastAdmitted p ts c r := by
  have hnumbered := run_numbered hr hcount
  obtain ⟨hlt, hid⟩ := hnumbered.registered _ r hfind
  rcases run_routed hsend haddr hr hcount c with hzero | hlast
  · exact absurd (hid.trans hzero) (hnumbered.id_ne_zero hcount hlt)
  · refine hlast.mono fun t ⟨r', ht, hr', hcurrent⟩ => ?_
    have hsame : r' = r := hnumbered.id_injective hcount hr' hlt
      ((hnumbered.id r' hr').trans (hcurrent.symm.trans hid.symm))
    exact hsame ▸ ht

/-- Where no method of a session throws and fewer than `2 ^ 63` rooms are created, a character is
routed to the room that let it in last, or to none, and to none if no room has. No room has the id
that another room has in the registry now or had in it before. A command that is put in a room's
queue is put in that of the room that let its sender in last. -/
theorem run_routing (hsend : ∀ n, sendFails n = false)
    (haddr : ∀ session, remoteAddress session ≠ none)
    (hr : Run (Step p) (initial (.initial remoteAddress sendFails) roomCapacity m) ts s)
    (hcount : s.roomCount < 2 ^ 63) :
    (∀ c r, RoomStateGroupFactory.find s (c.getCurrentRoomId s.world) = some r →
      LastAdmitted p ts c r) ∧
    (∀ c, (∀ t ∈ ts, ∀ r, ¬ Admits p c r t) →
      RoomStateGroupFactory.find s (c.getCurrentRoomId s.world) = none) ∧
    (∀ t ∈ ts, ∀ k r, RoomStateGroupFactory.find t.before k = some r →
      ∀ r' < s.roomCount, (s.rooms r').group.id = k → r' = r) ∧
    ∀ us t vs, ts = us ++ t :: vs → ∀ c r, Routes c r t → LastAdmitted p us c r := by
  refine ⟨fun c r hfind => lastAdmitted hsend haddr hr hcount hfind, fun c hnot => ?_,
    fun t ht k r hfind r' hr' hid => ?_, fun us t vs hts c r hroutes => ?_⟩
  · cases hfind : RoomStateGroupFactory.find s (c.getCurrentRoomId s.world) with
    | none => rfl
    | some r =>
      obtain ⟨us, t, vs, rfl, -, hadmits, -⟩ := lastAdmitted hsend haddr hr hcount hfind
      exact absurd hadmits (hnot t (by simp) r)
  · obtain ⟨us, vs, rfl⟩ := List.append_of_mem ht
    obtain ⟨hbefore, hs, hafter⟩ := hr.split
    have hle : t.before.roomCount ≤ s.roomCount := roomCount_le (.cons hs hafter)
    obtain ⟨hlt, hk⟩ := (run_numbered hbefore (hle.trans_lt hcount)).registered k r hfind
    have hnumbered := run_numbered hr hcount
    refine hnumbered.id_injective hcount hr' (hlt.trans_le hle) (hid.trans ?_)
    rw [← hk, (run_numbered hbefore (hle.trans_lt hcount)).id r hlt,
      hnumbered.id r (hlt.trans_le hle)]
  · subst hts
    obtain ⟨hbefore, hs, hafter⟩ := hr.split
    have hle : t.before.roomCount ≤ s.roomCount := roomCount_le (.cons hs hafter)
    exact lastAdmitted hsend haddr hbefore (hle.trans_lt hcount) (find_of_routes hs hroutes)

end

/-! ## Alice's room -/

/-- Alice logs in, creates a room, and enters it. -/
def entersOwn : List Op := [.login 0 loginAlice, .create 0 RoomRegistry.createAlice,
  .enter ⟨0, "alice", none⟩ 0, .finish 0 0]

/-- The transitions of a run of operations. -/
def transitions (p : Platform) (s : Server) (ops : List Op) : List (Transition Server Op) :=
  trace (fun s op => endState (op.run p) s) s ops

theorem run_transitions (p : Platform) (ops : List Op) (s : Server) :
    Run (Step p) s (transitions p s ops) (ops.foldl (fun s op => endState (op.run p) s) s) :=
  run_trace (Step.of p) ops s

/-- Alice is routed to the room that she has entered. -/
theorem run_routing_alice : ∃ s,
    Run (Step .standard) start (transitions .standard start entersOwn) s ∧
      RoomStateGroupFactory.find s (Character.getCurrentRoomId s.world ⟨0, "alice", none⟩) =
        some 0 ∧
      LastAdmitted .standard (transitions .standard start entersOwn) ⟨0, "alice", none⟩ 0 := by
  have hr := run_transitions .standard entersOwn start
  have hrouting :=
    run_routing (fun _ => rfl) (fun _ => Option.some_ne_none _) hr (by decide +kernel)
  exact ⟨_, hr, by decide +kernel, hrouting.1 ⟨0, "alice", none⟩ 0 (by decide +kernel)⟩

end Routing

end WebRtcNetty
