import Mathlib.Logic.Function.Basic
import WebRtcNetty.Lib.Java.Exec
import WebRtcNetty.Cmd.Messages

/-!
# Sessions and characters

The objects that all parts of the server share: a session for each channel
(`NettyWebSocketSession`), with the character that logged in on it as the channel's attribute, and
the characters (`Chatter`), each with the session it is reached by. A session is named by its
channel and a character by its identity together with its final field, so that ids do not depend on
the memory.

`World.sent` is a history of the objects that `Session.send` has been given. `World.sendFails` says
which calls of `send` throw; it is arbitrary, and no call changes it.
-/

namespace WebRtcNetty

open Java Proto2

/-! ## Objects -/

/-- A session, by its channel. -/
abbrev SessionRef := Nat

/-- Reference: `User` (`User.java:3`). -/
structure User where
  uid : String
  nickName : Option String
  deriving DecidableEq

/-- A character: its object identity and its final field. The ids come from protobuf strings, and
are not null. Reference: `Chatter` (`Chatter.java:10`). -/
structure Character where
  serial : Nat
  user : User
  deriving DecidableEq

/-- The fields of a character that change. Its session is never null. Reference: `Chatter`
(`Chatter.java:13-17`). -/
structure Chatter where
  session : SessionRef
  isOnLine : Bool
  currentRoomId : BitVec 64

/-- What `Session.send` is given: a frame, a protobuf message, or another object, which here is
always a string. -/
inductive Data
  | frame (bytes : ByteString)
  | message (msg : Command.PackageGroup)
  | object (s : String)

/-- A channel; `character` is its attribute `ICharacter.SESSION_KEY`. Reference:
`NettyWebSocketSession` (`NettyWebSocketSession.java:15`). -/
structure Channel where
  isActive : Bool
  remoteAddress : Option String
  character : Option Character

/-- The channels and the characters. -/
structure World where
  channels : SessionRef → Channel
  chatters : Character → Chatter
  sent : List (SessionRef × Data)
  sends : Nat
  sendFails : Nat → Bool

/-- The world at the start, with the peers' addresses and the calls of `send` that fail. A channel
is one connection: before anything is received on it, it is open and has no character. -/
def World.initial (remoteAddress : SessionRef → Option String) (sendFails : Nat → Bool) :
    World where
  channels := fun s => ⟨true, remoteAddress s, none⟩
  chatters := fun _ => ⟨0, false, 0⟩
  sent := []
  sends := 0
  sendFails := sendFails

/-! ## Session -/

namespace Session

/-- Reference: `getRemoteAddress` (`NettyWebSocketSession.java:34`), which calls `toString` on the
channel's address. -/
def getRemoteAddress (s : SessionRef) : Exec World String := do
  let w ← get
  match (w.channels s).remoteAddress with
  | some address => pure address
  | none => throw ⟨"NullPointerException"⟩

/-- Reference: `getAttribute` (`NettyWebSocketSession.java:39`), of `SESSION_KEY`. -/
def getAttribute (w : World) (s : SessionRef) : Option Character := (w.channels s).character

/-- Reference: `setAttribute` (`NettyWebSocketSession.java:47`), of `SESSION_KEY`. -/
def setAttribute (s : SessionRef) (c : Character) : Exec World Unit :=
  modify fun w => { w with
    channels := Function.update w.channels s { w.channels s with character := some c } }

/-- Reference: `send` (`NettyWebSocketSession.java:54`). -/
def send (s : SessionRef) (data : Data) : Exec World Unit := fun w =>
  let w' := { w with sends := w.sends + 1 }
  if w.sendFails w.sends then
    .error ⟨"RuntimeException"⟩ w'
  else
    .ok () { w' with sent := w.sent ++ [(s, data)] }

/-- The channel closes: `ctx.close()`, or the peer ends the connection. -/
def close (s : SessionRef) : Exec World Unit :=
  modify fun w => { w with
    channels := Function.update w.channels s { w.channels s with isActive := false } }

/-- Reference: `isAlive` (`NettyWebSocketSession.java:78`). -/
def isAlive (w : World) (s : SessionRef) : Bool := (w.channels s).isActive

end Session

/-! ## Characters -/

namespace Character

/-- Reference: `getId` (`Chatter.java:27`). -/
def getId (c : Character) : String := c.user.uid

/-- Reference: `getNickName` (`Chatter.java:47`). -/
def getNickName (c : Character) : Option String := c.user.nickName

/-- Reference: `getRemoteAddress` (`Chatter.java:32`). -/
def getRemoteAddress (c : Character) : Exec World String := do
  let w ← get
  Session.getRemoteAddress (w.chatters c).session

/-- Writes the fields of a character. -/
def setFields (c : Character) (f : Chatter → Chatter) : Exec World Unit :=
  modify fun w => { w with chatters := Function.update w.chatters c (f (w.chatters c)) }

/-- Reference: `setCurrentRoomId` (`Chatter.java:37`). -/
def setCurrentRoomId (c : Character) (roomId : BitVec 64) : Exec World Unit :=
  c.setFields fun f => { f with currentRoomId := roomId }

/-- Reference: `getCurrentRoomId` (`Chatter.java:42`). -/
def getCurrentRoomId (w : World) (c : Character) : BitVec 64 := (w.chatters c).currentRoomId

/-- Reference: `sendMsg` (`Chatter.java:65`). -/
def sendMsg (c : Character) (data : Data) : Exec World Unit := do
  let w ← get
  Session.send (w.chatters c).session data

/-- Reference: `isOffLine` (`Chatter.java:80`). -/
def isOffLine (w : World) (c : Character) : Bool :=
  !(w.chatters c).isOnLine || !Session.isAlive w (w.chatters c).session

end Character

/-! ## What sending changes -/

section
variable {s : SessionRef} {c : Character} {data : Data} {w : World}

theorem Session.send_ok (h : w.sendFails w.sends = false) : Session.send s data w =
    .ok () { w with sends := w.sends + 1, sent := w.sent ++ [(s, data)] } := by
  simp [Session.send, h]

theorem Session.send_error (h : w.sendFails w.sends = true) : Session.send s data w =
    .error ⟨"RuntimeException"⟩ { w with sends := w.sends + 1 } := by
  simp [Session.send, h]

/-- A call of `send` that does not fail returns. -/
theorem Session.send_returns (h : w.sendFails w.sends = false) : Returns (Session.send s data) w :=
  ⟨(), _, Session.send_ok h⟩

theorem Character.sendMsg_returns (h : w.sendFails w.sends = false) : Returns (c.sendMsg data) w :=
  .bind ⟨w, w, run_get w⟩ fun _ _ hw => by
    cases hw
    exact Session.send_returns h

/-- The frame allows sending messages, whether the call fails or not. -/
structure Frame.AllowsSending (F : Frame World) : Prop where
  sent : ∀ w s msg, F.rel w
    { w with sends := w.sends + 1, sent := w.sent ++ [(s, Data.message msg)] }
  failed : ∀ w, F.rel w { w with sends := w.sends + 1 }

/-- Sending writes to the log and to the count only. -/
theorem Session.send_within {F : Frame World} (hF : Frame.AllowsSending F)
    {msg : Command.PackageGroup} : Within F (Session.send s (.message msg)) := by
  intro w
  cases h : w.sendFails w.sends with
  | false => rw [endState_ok (Session.send_ok h)]; exact hF.sent w s msg
  | true => rw [endState_error (Session.send_error h)]; exact hF.failed w

theorem Character.sendMsg_within {F : Frame World} (hF : Frame.AllowsSending F)
    {msg : Command.PackageGroup} : Within F (c.sendMsg (.message msg)) :=
  .bind .read fun _ => Session.send_within hF

end

end WebRtcNetty
