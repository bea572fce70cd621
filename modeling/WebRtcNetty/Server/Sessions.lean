import WebRtcNetty.Server.Runs

/-!
# Sessions and characters

Who acts through which session: the binding is kept twice, as a session's attribute and as a
character's session, and the character registry has the character of each user id. `Sessions` is the
server cut down to these, and `Sessions.after` says what each operation does to them: LOGIN, and
ENTER_ROOM on a session without a character, look a user id up; the rest leaves them alone but for
the sweep of the registry and the ends of connections. Every step of the server does exactly this
(`sessions_step`).
-/

namespace WebRtcNetty

open Java Proto2 Command Runs Server

/-! ## The bindings -/

/-- The channels and the characters' sessions. -/
structure Bindings where
  isActive : SessionRef → Bool
  character : SessionRef → Option Character
  session : Character → SessionRef
  isOnLine : Character → Bool

/-- The bindings, with the character registry. -/
structure Sessions extends Bindings where
  characterMap : HashMap String Character
  nextSerial : Nat

/-- The bindings among the sessions and characters of a server. -/
def World.bindings (w : World) : Bindings where
  isActive session := (w.channels session).isActive
  character session := (w.channels session).character
  session c := (w.chatters c).session
  isOnLine c := (w.chatters c).isOnLine

/-- The sessions of a server. -/
def Server.sessions (s : Server) : Sessions where
  toBindings := s.world.bindings
  characterMap := s.characterMap
  nextSerial := s.nextSerial

namespace Sessions

variable (p : Platform)

/-- The session acts for the character. -/
def setAttribute (session : SessionRef) (c : Character) (b : Sessions) : Sessions :=
  { b with character := Function.update b.character session (some c) }

/-- The character is reached by the session. -/
def setSession (c : Character) (session : SessionRef) (b : Sessions) : Sessions :=
  { b with session := Function.update b.session c session }

/-- A new character of the user id, reached by the session. -/
def create (session : SessionRef) (userId : String) (b : Sessions) : Character × Sessions :=
  let c : Character := ⟨b.nextSerial, userId, none⟩
  (c, { b with
    session := Function.update b.session c session
    isOnLine := Function.update b.isOnLine c true
    characterMap := b.characterMap.put userId c
    nextSerial := b.nextSerial + 1 })

/-- The user id that a command looks up: that of a LOGIN, and that of an ENTER_ROOM on a session
without a character. -/
def looksUp (b : Sessions) (session : SessionRef) (cmd : Cmd) : Option String :=
  if cmd.getCmdType = CmdType.login then
    (UserCmd.login.parseFrom cmd.getContent).map (UserCmd.Login.getUserId p)
  else if cmd.getCmdType = CmdType.enterRoom ∧ b.character session = none then
    (UserCmd.enterRoom.parseFrom cmd.getContent).map (UserCmd.EnterRoom.getUserId p)
  else
    none

/-- The bindings after a command. A character that is there already is told that it is displaced
before it gets its new session; when that call of `send` fails, a LOGIN has already set the
session's attribute, and an ENTER_ROOM has not. -/
def handle (sendFails : Bool) (session : SessionRef) (cmd : Cmd) (b : Sessions) : Sessions :=
  match b.looksUp p session cmd with
  | none => b
  | some userId =>
    match b.characterMap.get userId with
    | none => (b.create session userId).2.setAttribute session (b.create session userId).1
    | some c =>
      if sendFails then
        if cmd.getCmdType = CmdType.login then b.setAttribute session c else b
      else
        (b.setAttribute session c).setSession c session

/-- The character is off line. -/
def isOffLine (b : Sessions) (c : Character) : Bool := !b.isOnLine c || !b.isActive (b.session c)

/-- The bindings after an operation; `sendFails` tells whether the next call of `send` fails. -/
def after (sendFails : Bool) (b : Sessions) : Op → Sessions
  | .handle session cmd => b.handle p sendFails session cmd
  | .background .removeOffLine =>
    { b with characterMap := b.characterMap.removeIf fun _ c => b.isOffLine c }
  | .background (.close session) =>
    { b with isActive := Function.update b.isActive session false }
  | .background _ => b

section
variable {p} {sendFails : Bool} {b : Sessions} {session : SessionRef} {cmd : Cmd} {userId : String}
variable {c : Character}

/-- No session is open that was not open before another one closed. -/
theorem isActive_of_close {isActive : SessionRef → Bool} {closed : SessionRef}
    (h : Function.update isActive closed false session = true) : isActive session = true := by
  by_cases hs : session = closed
  · rw [hs, Function.update_self] at h
    cases h
  · rwa [Function.update_of_ne hs] at h

/-- A command that looks up no user does nothing here. -/
theorem handle_of_looksUp_none (h : b.looksUp p session cmd = none) :
    b.handle p sendFails session cmd = b := by
  simp [handle, h]

/-- A user who is new gets a character, and the session it. -/
theorem handle_of_get_none (h : b.looksUp p session cmd = some userId)
    (hget : b.characterMap.get userId = none) : b.handle p sendFails session cmd =
      (b.create session userId).2.setAttribute session (b.create session userId).1 := by
  simp [handle, h, hget]

/-- A user who is known gets the session, unless its old session cannot be told. -/
theorem handle_of_get_some (h : b.looksUp p session cmd = some userId)
    (hget : b.characterMap.get userId = some c) : b.handle p sendFails session cmd =
      if sendFails then
        if cmd.getCmdType = CmdType.login then b.setAttribute session c else b
      else
        (b.setAttribute session c).setSession c session := by
  simp [handle, h, hget]

/-- An ENTER_ROOM looks a user id up on a session without a character. -/
theorem looksUp_of_ne_login (h : b.looksUp p session cmd = some userId)
    (hne : cmd.getCmdType ≠ CmdType.login) : b.character session = none := by
  rw [looksUp, if_neg hne] at h
  split at h
  · next h' => exact h'.2
  · cases h

/-- The registry has the characters under their user ids, and they are on line. -/
def Registered (b : Sessions) : Prop :=
  ∀ id c, b.characterMap.get id = some c → c.getId = id ∧ b.isOnLine c = true

/-- A character that is created is registered. -/
theorem Registered.create (h : b.Registered) (session : SessionRef) (userId : String) :
    (b.create session userId).2.Registered := by
  intro id c (hc : (b.characterMap.put userId _).get id = some c)
  show c.getId = id ∧ Function.update b.isOnLine (b.create session userId).1 true c = true
  rw [HashMap.get_put_eq] at hc
  split at hc
  · next hid =>
    cases hc
    exact ⟨hid.symm, Function.update_self ..⟩
  · obtain ⟨hid, honLine⟩ := h id c hc
    refine ⟨hid, ?_⟩
    by_cases hnew : c = (b.create session userId).1
    · rw [hnew, Function.update_self]
    · rw [Function.update_of_ne hnew]
      exact honLine

/-- No operation spoils the registry. -/
theorem Registered.after (h : b.Registered) (sendFails : Bool) (op : Op) :
    (b.after p sendFails op).Registered := by
  cases op with
  | handle session cmd =>
    show (b.handle p sendFails session cmd).Registered
    cases hu : b.looksUp p session cmd with
    | none => rw [handle_of_looksUp_none hu]; exact h
    | some userId =>
      cases hget : b.characterMap.get userId with
      | none => rw [handle_of_get_none hu hget]; exact h.create session userId
      | some c =>
        rw [handle_of_get_some hu hget]
        split
        · split
          · exact h
          · exact h
        · exact h
  | background op =>
    cases op with
    | removeOffLine => exact fun id c hc => h id c ((HashMap.get_removeIf _ _ _ _).1 hc).1
    | update r => exact h
    | removeDeposedStateGroup => exact h
    | removeWorker => exact h
    | removeDeposedGroup worker => exact h
    | close session => exact h

end

end Sessions

/-! ## What the server does to them -/

section
variable {p : Platform}

/-- At the start there is no character. -/
theorem registered_initial (w : World) (roomCapacity : Int) (m : WorkerManager RoomRef) :
    (Server.initial w roomCapacity m).sessions.Registered := by
  intro id c (hc : (∅ : HashMap String Character).get id = some c)
  rw [HashMap.get_empty] at hc
  cases hc

/-- A channel as the bindings have it. -/
theorem bindings_channel (w : World) (session : SessionRef) (ch : Channel) :
    World.bindings { w with channels := Function.update w.channels session ch } = { w.bindings with
      isActive := Function.update w.bindings.isActive session ch.isActive
      character := Function.update w.bindings.character session ch.character } := by
  have hactive := Function.apply_update (fun _ (x : Channel) => x.isActive) w.channels session ch
  have hcharacter :=
    Function.apply_update (fun _ (x : Channel) => x.character) w.channels session ch
  simp only [World.bindings, hactive, hcharacter]

/-- A character as the bindings have it. -/
theorem bindings_chatter (w : World) (c : Character) (f : Chatter) :
    World.bindings { w with chatters := Function.update w.chatters c f } = { w.bindings with
      session := Function.update w.bindings.session c f.session
      isOnLine := Function.update w.bindings.isOnLine c f.isOnLine } := by
  have hsession := Function.apply_update (fun _ (x : Chatter) => x.session) w.chatters c f
  have honLine := Function.apply_update (fun _ (x : Chatter) => x.isOnLine) w.chatters c f
  simp only [World.bindings, hsession, honLine]

/-- Setting the attribute of a session. -/
theorem bindings_setAttribute (session : SessionRef) (c : Character) (w : World) :
    (endState (Session.setAttribute session c) w).bindings =
      { w.bindings with character := Function.update w.bindings.character session (some c) } := by
  have hsame : Function.update w.bindings.isActive session (w.channels session).isActive =
      w.bindings.isActive := Function.update_eq_self session _
  rw [Session.setAttribute, endState_ok (run_modify _ w), bindings_channel, hsame]

/-- The end of a session. -/
theorem bindings_close (session : SessionRef) (w : World) :
    (endState (Session.close session) w).bindings =
      { w.bindings with isActive := Function.update w.bindings.isActive session false } := by
  have hsame : Function.update w.bindings.character session (w.channels session).character =
      w.bindings.character := Function.update_eq_self session _
  rw [Session.close, endState_ok (run_modify _ w), bindings_channel, hsame]

/-- Neither sending nor an entry changes the bindings. -/
theorem allowsEntering_bindings : Frame.AllowsEntering (.keeping World.bindings) where
  sent _ _ _ := rfl
  failed _ := rfl
  currentRoom w c roomId := by
    have hsession : Function.update w.bindings.session c (w.chatters c).session =
        w.bindings.session := Function.update_eq_self c _
    have honLine : Function.update w.bindings.isOnLine c (w.chatters c).isOnLine =
        w.bindings.isOnLine := Function.update_eq_self c _
    show World.bindings _ = _
    rw [bindings_chatter, hsession, honLine]

/-- A displaced character is told so before it gets its new session. -/
theorem setSession_cases (c : Character) (session : SessionRef) (w : World) :
    (w.sendFails w.sends = false ∧ ∃ w', c.setSession session w = .ok () w' ∧
      w'.bindings = { w.bindings with session := Function.update w.bindings.session c session }) ∨
    (w.sendFails w.sends = true ∧ ∃ e w', c.setSession session w = .error e w' ∧
      w'.bindings = w.bindings) := by
  obtain ⟨msg, hmsg⟩ : ∃ msg, CmdUtil.kickOffCharacterResult ResultCode.ok "异地登陆" = .ok msg :=
    ⟨_, rfl⟩
  have hsend : c.setSession session w = (do
      Session.send (w.chatters c).session (.message msg)
      c.setFields fun f => { f with session := session } : Exec World Unit) w := by
    unfold Character.setSession Session.sendResult
    rw [run_bind_ok (run_get w), hmsg]
    rfl
  rw [hsend]
  cases hf : w.sendFails w.sends with
  | false =>
    refine .inl ⟨rfl, _, run_bind_ok (Session.send_ok hf), ?_⟩
    have honLine : Function.update w.bindings.isOnLine c (w.chatters c).isOnLine =
        w.bindings.isOnLine := Function.update_eq_self c _
    exact (bindings_chatter _ c _).trans (congrArg (fun f => { w.bindings with
      session := Function.update w.bindings.session c session, isOnLine := f }) honLine)
  | true => exact .inr ⟨rfl, _, _, run_bind_error (Session.send_error hf), rfl⟩

/-! ## The refinement -/

/-- Code that keeps the bindings and the registry keeps the sessions. -/
theorem sessions_of_frame {s s' : Server} (h : (Server.frame (.keeping World.bindings)).rel s s') :
    s'.sessions = s.sessions := by
  obtain ⟨hbindings, hmap, hserial⟩ := h
  have hbindings' : s'.world.bindings = s.world.bindings := hbindings
  simp only [Server.sessions, hbindings', hmap, hserial]

/-- What keeps the bindings may follow. -/
theorem sessions_bind {α β : Type} {m : Exec Server α} {f : α → Exec Server β}
    (hf : ∀ a, Within (Server.frame (.keeping World.bindings)) (f a)) (s : Server) :
    (endState (m >>= f) s).sessions = (endState m s).sessions :=
  sessions_of_frame (Within.bind_rel hf s)

/-- What happens among the sessions and characters, as the sessions have it. -/
theorem sessions_inWorld {α : Type} (m : Exec World α) (s : Server) :
    (endState (inWorld m) s).sessions =
      { s.sessions with toBindings := (endState m s.world).bindings } := by
  rw [inWorld, endState_zoom]
  rfl

/-- A server sets the attribute of a session, and sends nothing for that. -/
theorem setAttribute_server (session : SessionRef) (c : Character) (s : Server) : ∃ s',
    inWorld (Session.setAttribute session c) s = .ok () s' ∧
      s'.sessions = s.sessions.setAttribute session c ∧
      s'.world.sendFails s'.world.sends = s.world.sendFails s.world.sends := by
  refine ⟨_, zoom_ok (run_modify _ _), ?_, rfl⟩
  show Sessions.mk (endState (Session.setAttribute session c) s.world).bindings _ _ = _
  rw [bindings_setAttribute]
  rfl

/-- A user id has a character, or gets one. -/
theorem findOrCreate_cases (session : SessionRef) (userId : String) (s : Server) :
    (∃ c, s.sessions.characterMap.get userId = some c ∧
      ChatterFactory.findOrCreate session userId s = .ok (false, c) s) ∨
    (s.sessions.characterMap.get userId = none ∧ ∃ s',
      ChatterFactory.findOrCreate session userId s =
        .ok (true, (s.sessions.create session userId).1) s' ∧
      s'.sessions = (s.sessions.create session userId).2) := by
  have hmap : s.sessions.characterMap = s.characterMap := rfl
  rw [hmap]
  cases hget : s.characterMap.get userId with
  | some c => exact .inl ⟨c, rfl, by rw [ChatterFactory.findOrCreate, hget]⟩
  | none =>
    refine .inr ⟨rfl, _, by rw [ChatterFactory.findOrCreate, hget]; rfl, ?_⟩
    simp only [Server.sessions, bindings_chatter]
    rfl

/-- Displacing a character, when it can be told so. -/
theorem setSession_server (c : Character) (session : SessionRef) (s : Server) :
    (s.world.sendFails s.world.sends = false ∧ ∃ s',
      inWorld (c.setSession session) s = .ok () s' ∧
        s'.sessions = s.sessions.setSession c session) ∨
    (s.world.sendFails s.world.sends = true ∧ ∃ e s',
      inWorld (c.setSession session) s = .error e s' ∧ s'.sessions = s.sessions) := by
  rcases setSession_cases c session s.world with ⟨hf, w, hw, hb⟩ | ⟨hf, e, w, hw, hb⟩
  · refine .inl ⟨hf, _, zoom_ok hw, ?_⟩
    show Sessions.mk w.bindings _ _ = _
    rw [hb]
    rfl
  · refine .inr ⟨hf, e, _, zoom_error hw, ?_⟩
    show Sessions.mk w.bindings _ _ = _
    rw [hb]
    rfl

/-- A LOGIN does what `handle` says. -/
theorem sessions_login {session : SessionRef} {cmd : Cmd} (s : Server)
    (h : cmd.getCmdType = CmdType.login) :
    (endState (WebChatDispatcher.login p session cmd) s).sessions =
      s.sessions.handle p (s.world.sendFails s.world.sends) session cmd := by
  have hrooms : Frame.AllowsRooms p (Server.frame (.keeping World.bindings)) :=
    allowsEntering_bindings.allowsRooms
  rw [WebChatDispatcher.login, Sessions.handle, Sessions.looksUp, if_pos h]
  cases UserCmd.login.parseFrom cmd.getContent with
  | none => exact sessions_of_frame (hrooms.sendResult _ _ s)
  | some m =>
    dsimp only [Option.map_some]
    rcases findOrCreate_cases session (UserCmd.Login.getUserId p m) s with
      ⟨c, hget, hf⟩ | ⟨hget, s₁, hf, hs₁⟩
    · obtain ⟨s₁, hset, hs₁, hsends⟩ := setAttribute_server session c s
      rw [endState_bind_ok hf, hget, endState_bind_ok hset]
      dsimp only
      rw [if_neg Bool.false_ne_true, ← hsends, if_pos h, ← hs₁]
      rcases setSession_server c session s₁ with ⟨hfails, s₂, hs, hs₂⟩ | ⟨hfails, e, s₂, hs, hs₂⟩
      · rw [endState_bind_ok hs, hfails, if_neg Bool.false_ne_true, ← hs₂]
        exact sessions_of_frame (hrooms.sendResult _ _ s₂)
      · rw [endState_bind_error hs, hfails, if_pos rfl, hs₂]
    · obtain ⟨s₂, hset, hs₂, -⟩ :=
        setAttribute_server session (s.sessions.create session (UserCmd.Login.getUserId p m)).1 s₁
      rw [endState_bind_ok hf, hget, endState_bind_ok hset]
      exact (sessions_of_frame (hrooms.sendResult _ _ s₂)).trans (hs₂.trans (congrArg _ hs₁))

/-- The character of a session without one is found or created. -/
theorem sessions_characterOf {session : SessionRef} {userId : String} (s : Server)
    (h : s.sessions.character session = none) :
    (endState (WebChatDispatcher.characterOf session userId) s).sessions =
      match s.sessions.characterMap.get userId with
      | none => (s.sessions.create session userId).2.setAttribute session
          (s.sessions.create session userId).1
      | some c =>
        if s.world.sendFails s.world.sends then s.sessions
        else (s.sessions.setAttribute session c).setSession c session := by
  have hnone : Session.getAttribute s.world session = none := h
  rw [WebChatDispatcher.characterOf, endState_get_bind, hnone]
  dsimp only
  rcases findOrCreate_cases session userId s with ⟨c, hget, hf⟩ | ⟨hget, s₁, hf, hs₁⟩
  · rw [endState_bind_ok hf, hget]
    dsimp only
    rw [if_neg Bool.false_ne_true]
    rcases setSession_server c session s with ⟨hfails, s₁, hs, hs₁⟩ | ⟨hfails, e, s₁, hs, hs₁⟩
    · obtain ⟨s₂, hset, hs₂, -⟩ := setAttribute_server session c s₁
      rw [endState_bind_ok hs, hfails, if_neg Bool.false_ne_true, endState_bind_ok hset,
        endState_pure, hs₂, hs₁]
      rfl
    · rw [endState_bind_error hs, hfails, if_pos rfl, hs₁]
  · obtain ⟨s₂, hset, hs₂, -⟩ := setAttribute_server session (s.sessions.create session userId).1 s₁
    rw [endState_bind_ok hf, hget]
    dsimp only
    rw [if_pos rfl, endState_bind_ok hset, endState_pure, hs₂, hs₁]

/-- An ENTER_ROOM does what `handle` says. -/
theorem sessions_enterRoom {session : SessionRef} {cmd : Cmd} (s : Server)
    (h : cmd.getCmdType = CmdType.enterRoom) :
    (endState (WebChatDispatcher.enterRoom p session cmd) s).sessions =
      s.sessions.handle p (s.world.sendFails s.world.sends) session cmd := by
  have hrooms : Frame.AllowsRooms p (Server.frame (.keeping World.bindings)) :=
    allowsEntering_bindings.allowsRooms
  have hlogin : cmd.getCmdType ≠ CmdType.login := by rw [h]; decide
  rw [WebChatDispatcher.enterRoom, Sessions.handle, Sessions.looksUp, if_neg hlogin]
  cases UserCmd.enterRoom.parseFrom cmd.getContent with
  | none =>
    rw [Option.map_none, ite_self]
    exact sessions_of_frame (Within.bind (inWorld_sending hrooms.sending
      fun _ => enterRoomResult_within _ _ _ _) (fun _ => hrooms.send _ _) s)
  | some m =>
    dsimp only [Option.map_some]
    rw [sessions_bind fun c => enterRoomAs_within hrooms.toAllowsEntries session _ c]
    cases hattr : s.sessions.character session with
    | none =>
      rw [if_pos ⟨h, rfl⟩, sessions_characterOf s hattr]
      simp only [if_neg hlogin]
    | some c =>
      have hsome : Session.getAttribute s.world session = some c := hattr
      rw [if_neg (fun hne => Option.some_ne_none c hne.2), WebChatDispatcher.characterOf,
        endState_get_bind, hsome]
      rfl

/-- Every step of the server does to the sessions what their specification says. -/
theorem sessions_step {s s' : Server} {op : Op} (hwf : WellFormed p s) (hs : Step p s op s') :
    s'.sessions = s.sessions.after p (s.world.sendFails s.world.sends) op := by
  have hrooms : Frame.AllowsRooms p (Server.frame (.keeping World.bindings)) :=
    allowsEntering_bindings.allowsRooms
  cases hs
  cases op with
  | handle session cmd =>
    show (endState (WebChatDispatcher.handler p session cmd) s).sessions = _
    by_cases hlogin : cmd.getCmdType = CmdType.login
    · rw [WebChatDispatcher.handler_login hlogin]
      exact sessions_login s hlogin
    by_cases henter : cmd.getCmdType = CmdType.enterRoom
    · rw [WebChatDispatcher.handler_enterRoom henter]
      exact sessions_enterRoom s henter
    have hnone : s.sessions.looksUp p session cmd = none := by
      rw [Sessions.looksUp, if_neg hlogin, if_neg fun h => henter h.1]
    rw [WebChatDispatcher.handler, if_neg hlogin, if_neg henter]
    show _ = s.sessions.handle p _ session cmd
    rw [Sessions.handle, hnone]
    have hcommands := hrooms.toAllowsCommands
    exact sessions_of_frame (Within.ite (createRoom_within hrooms session cmd)
      (Within.ite (invite_within hcommands session cmd)
        (handleOtherCmd_within hcommands session cmd)) s)
  | background b =>
    cases b with
    | update r =>
      refine sessions_of_frame ?_
      show (Server.frame (.keeping World.bindings)).rel s
        (endState (Background.run p (.update r)) s)
      by_cases hr : r < s.roomCount
      · obtain ⟨ph, hph⟩ := hwf.inPhase r hr
        rw [endState_update hr, inRoom, endState_zoom]
        exact ⟨update_world allowsEntering_bindings.toAllowsSending hph, rfl, rfl⟩
      · rw [endState_update_of_not_lt hr]
        exact (Server.frame (.keeping World.bindings)).refl s
    | removeOffLine => rfl
    | removeDeposedStateGroup => rfl
    | removeWorker => rfl
    | removeDeposedGroup worker => rfl
    | close session =>
      show (endState (inWorld (Session.close session)) s).sessions = _
      rw [sessions_inWorld, bindings_close]
      rfl

end

/-! ## Runs -/

namespace Server

section
variable {p : Platform} {remoteAddress : SessionRef → Option String} {sendFails : Nat → Bool}
variable {roomCapacity : Int} {m : WorkerManager RoomRef} {ts : List (Transition Server Op)}
variable {s : Server}

/-- A server is well formed in every run. -/
theorem run_wellFormed
    (hr : Run (Step p) (initial (.initial remoteAddress sendFails) roomCapacity m) ts s) :
    WellFormed p s :=
  hr.invariant (wellFormed_initial _ _ _) fun _ _ _ h hs => h.step hs

/-- The registry of a run. -/
theorem run_registered
    (hr : Run (Step p) (initial (.initial remoteAddress sendFails) roomCapacity m) ts s) :
    s.sessions.Registered := by
  induction hr with
  | nil => exact registered_initial _ _ _
  | snoc hr hs ih =>
    rw [sessions_step (run_wellFormed hr) hs]
    exact ih.after _ _

end

end Server

end WebRtcNetty
