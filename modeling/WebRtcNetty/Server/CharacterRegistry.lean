import WebRtcNetty.Lib.Java.SweptMap
import WebRtcNetty.Server.Sessions

/-!
# The character registry while it is swept

A LOGIN looks its user's character up in the registry or puts a new one there, makes it the
session's attribute, gives a character that was there already the session, and answers. The sweep of
the registry copies it, drops the offline characters from its copy, and publishes the copy.
`CharacterRegistry` has the LOGINs that are under way and the sweep, each of which goes on step by
step while connections end.
-/

namespace WebRtcNetty

open Java Proto2 Command Runs Server

/-! ## A LOGIN in steps -/

namespace WebChatDispatcher

variable (p : Platform)

/-- The first step of `login`: the user id, whether its character is new, and the character, or
nothing when the content is malformed. Reference: `login` (`WebChatDispatcher.java:195-201`). -/
def findCharacter (session : SessionRef) (cmd : Cmd) :
    Exec Server (Option (String × Bool × Character)) :=
  match UserCmd.login.parseFrom cmd.getContent with
  | none => do
    inWorld (Session.sendResult session (CmdUtil.loginResult ResultCode.error "登录异常"))
    return none
  | some login => do
    let userId := UserCmd.Login.getUserId p login
    let (isNew, character) ← ChatterFactory.findOrCreate session userId
    return some (userId, isNew, character)

/-- The last step of `login`. Reference: `login` (`WebChatDispatcher.java:207`). -/
def replyLogin (session : SessionRef) : Exec Server Unit :=
  inWorld (Session.sendResult session (CmdUtil.loginResult ResultCode.ok "登录成功"))

/-- The steps one after the other are `login`. -/
theorem login_eq (session : SessionRef) (cmd : Cmd) : login p session cmd = (do
    match ← findCharacter p session cmd with
    | none => pure ()
    | some (_, isNew, character) => do
      inWorld (Session.setAttribute session character)
      if isNew then pure () else inWorld (character.setSession session)
      replyLogin session) := by
  unfold login findCharacter replyLogin
  cases UserCmd.login.parseFrom cmd.getContent with
  | none => simp
  | some m => simp

end WebChatDispatcher

/-! ## The registry -/

/-- What a LOGIN that is under way has done: found its character, made it the session's attribute,
or all but answered. -/
inductive Progress
  | found
  | attributed
  | complete
  deriving DecidableEq

/-- A LOGIN that is under way. -/
structure Login where
  session : SessionRef
  userId : String
  character : Character
  isNew : Bool
  progress : Progress
  deriving DecidableEq

/-- The server, with the sweep of its character registry and the LOGINs that are under way. -/
structure CharacterRegistry where
  server : Server
  sweep : Sweep String Character
  logins : List Login

namespace CharacterRegistry

/-- No sweep and no LOGIN are under way. -/
def initial (server : Server) : CharacterRegistry := ⟨server, .idle, []⟩

/-- The registry's map, with the sweep. -/
def swept (s : CharacterRegistry) : SweptMap String Character := ⟨s.server.characterMap, s.sweep⟩

/-- Replaces the map and the sweep. -/
def setSwept (s : CharacterRegistry) (m : SweptMap String Character) : CharacterRegistry :=
  { s with server.characterMap := m.map, sweep := m.sweep }

/-- The next step of a LOGIN or of a sweep, or the end of a connection. -/
inductive Op
  | find (session : SessionRef) (cmd : Cmd)
  | setAttribute (i : Nat)
  | setSession (i : Nat)
  | reply (i : Nat)
  | copy
  | drop
  | publish
  | close (session : SessionRef)

section
variable (p : Platform)

/-- What an operation does. When `setSession` throws, the LOGIN ends there. A step that is not the
next one of its LOGIN or of the sweep does nothing. -/
def after (s : CharacterRegistry) : Op → CharacterRegistry
  | .find session cmd =>
    match WebChatDispatcher.findCharacter p session cmd s.server with
    | .ok (some (userId, isNew, character)) server => { s with
        server, logins := s.logins ++ [⟨session, userId, character, isNew, .found⟩] }
    | .ok none server => { s with server }
    | .error _ server => { s with server }
  | .setAttribute i =>
    match s.logins[i]? with
    | some ⟨session, userId, character, isNew, .found⟩ => { s with
        server := endState (inWorld (Session.setAttribute session character)) s.server
        logins := s.logins.set i
          ⟨session, userId, character, isNew, if isNew then .complete else .attributed⟩ }
    | _ => s
  | .setSession i =>
    match s.logins[i]? with
    | some ⟨session, userId, character, isNew, .attributed⟩ =>
      match inWorld (character.setSession session) s.server with
      | .ok _ server => { s with
          server, logins := s.logins.set i ⟨session, userId, character, isNew, .complete⟩ }
      | .error _ server => { s with server, logins := s.logins.eraseIdx i }
    | _ => s
  | .reply i =>
    match s.logins[i]? with
    | some ⟨session, _, _, _, .complete⟩ => { s with
        server := endState (WebChatDispatcher.replyLogin session) s.server
        logins := s.logins.eraseIdx i }
    | _ => s
  | .copy => s.setSwept s.swept.copy
  | .drop => s.setSwept (s.swept.drop fun c => c.isOffLine s.server.world)
  | .publish => s.setSwept s.swept.publish
  | .close session => { s with server := endState (inWorld (Session.close session)) s.server }

/-- Every operation is atomic. -/
def Step (s : CharacterRegistry) (op : Op) (s' : CharacterRegistry) : Prop := s' = after p s op

/-- A sweep that nothing comes in between of is the server's. -/
theorem sweep_alone (s : CharacterRegistry) (h : s.sweep = .idle) :
    after p (after p (after p s .copy) .drop) .publish =
      { s with server := ChatterFactory.removeOffLine s.server } := by
  obtain ⟨server, sweep, logins⟩ := s
  cases h
  exact congrArg (CharacterRegistry.setSwept ⟨server, .idle, logins⟩)
    (SweptMap.publish_drop_copy (fun c => c.isOffLine server.world) server.characterMap)

/-- So is a LOGIN. -/
theorem login_alone (s : CharacterRegistry) (session : SessionRef) (cmd : Cmd)
    (h : s.logins = []) :
    after p (after p (after p (after p s (.find session cmd)) (.setAttribute 0)) (.setSession 0))
        (.reply 0) =
      { s with server := endState (WebChatDispatcher.login p session cmd) s.server } := by
  obtain ⟨server, sweep, logins⟩ := s
  cases h
  rw [WebChatDispatcher.login_eq]
  simp only [after]
  cases hfind : WebChatDispatcher.findCharacter p session cmd server with
  | error e server' => rw [endState_bind_error hfind]; rfl
  | ok out server' =>
    rw [endState_bind_ok hfind]
    cases out with
    | none => rfl
    | some out =>
      obtain ⟨userId, isNew, character⟩ := out
      obtain ⟨server'', hset, -, -⟩ := setAttribute_server session character server'
      dsimp only [List.nil_append, List.getElem?_cons_zero, List.set_cons_zero]
      rw [endState_ok hset, endState_bind_ok hset]
      cases isNew with
      | true => rfl
      | false =>
        rw [if_neg Bool.false_ne_true, if_neg Bool.false_ne_true]
        dsimp only
        cases hdisplace : inWorld (character.setSession session) server'' with
        | error e server''' => rw [endState_bind_error hdisplace]; rfl
        | ok _ server''' => rw [endState_bind_ok hdisplace]; rfl

end

end CharacterRegistry

end WebRtcNetty
