import WebRtcNetty.State.Worker
import WebRtcNetty.Chat.RoomFrames

/-!
# The server

What the server holds: the sessions and characters, the character registry (`ChatterFactory`), the
room registry (`RoomStateGroupFactory`), the rooms themselves, and the workers. The registries'
methods are computations over it.
-/

namespace WebRtcNetty

open Java Proto2 Command

/-! ## State -/

/-- A room, by the order of creation. -/
abbrev RoomRef := Nat

/-- A room without the sessions and characters, which all rooms share. -/
structure RoomObject where
  group : AbstractStateGroup RoomMem Character Cmd
  isFinished : Bool
  initialized : String → Bool
  roomData : RoomData
  handled : List (String × CharacterCmdPair Character Cmd)

/-- The server. `nextSerial` and `roomCount` are the next identities of a character and of a room.
Reference: `ServerConfig` (`ServerConfig.java:20`). -/
structure Server where
  world : World
  characterMap : HashMap String Character
  nextSerial : Nat
  stateGroupMap : HashMap (BitVec 64) RoomRef
  idCounter : BitVec 64
  rooms : RoomRef → RoomObject
  roomCount : Nat
  roomCapacity : Int
  workerManager : WorkerManager RoomRef

namespace RoomObject

/-- The room among the given sessions and characters. -/
def toRoom (o : RoomObject) (w : World) : Room where
  group := o.group
  mem := ⟨o.isFinished, o.initialized, o.roomData, w⟩
  handled := o.handled

/-- The room's own part of it. -/
def ofRoom (r : Room) : RoomObject where
  group := r.group
  isFinished := r.mem.isFinished
  initialized := r.mem.initialized
  roomData := r.mem.roomData
  handled := r.handled

@[simp] theorem toRoom_ofRoom (r : Room) : (ofRoom r).toRoom r.world = r := rfl

/-- A place on the heap where no room has been created. -/
def absent : RoomObject where
  group := ⟨0, ∅, 8, le_refl 8, .empty, none⟩
  isFinished := false
  initialized := fun _ => false
  roomData := .new ⟨0, "", none⟩ ⟨false, false⟩
  handled := []

end RoomObject

namespace Server

/-- The server at its start. -/
def initial (world : World) (roomCapacity : Int) (workerManager : WorkerManager RoomRef) :
    Server where
  world := world
  characterMap := ∅
  nextSerial := 0
  stateGroupMap := ∅
  idCounter := 1
  rooms := fun _ => .absent
  roomCount := 0
  roomCapacity := roomCapacity
  workerManager := workerManager

/-- The sessions and the characters. -/
def theWorld : Lens Server World where
  get s := s.world
  set s w := { s with world := w }
  get_set _ _ := rfl
  set_get _ := rfl
  set_set _ _ _ := rfl

/-- One room, with the sessions and characters. -/
def room (r : RoomRef) : Lens Server Room where
  get s := (s.rooms r).toRoom s.world
  set s room := { s with
    rooms := Function.update s.rooms r (.ofRoom room)
    world := room.world }
  get_set s room := by simp only [Function.update_self, RoomObject.toRoom_ofRoom]
  set_get s := by
    show { s with rooms := Function.update s.rooms r (s.rooms r) } = s
    rw [Function.update_eq_self]
  set_set s room room' := by simp only [Function.update_idem]

/-- Runs a computation over the sessions and the characters. -/
def inWorld {α : Type} (m : Exec World α) : Exec Server α := zoom theWorld m

/-- Runs a computation over a room. -/
def inRoom {α : Type} (r : RoomRef) (m : Exec Room α) : Exec Server α := zoom (room r) m

section
variable {α : Type} {r r' : RoomRef} {m : Exec Room α} {s : Server}

theorem world_inRoom : (endState (inRoom r m) s).world = (endState m ((room r).get s)).world := by
  rw [inRoom, endState_zoom]
  rfl

/-- A computation over a room leaves the room as it does alone. -/
theorem rooms_inRoom_self :
    (endState (inRoom r m) s).rooms r = .ofRoom (endState m ((room r).get s)) := by
  rw [inRoom, endState_zoom]
  exact Function.update_self ..

/-- And the other rooms as they are. -/
theorem rooms_inRoom_of_ne (h : r' ≠ r) : (endState (inRoom r m) s).rooms r' = s.rooms r' := by
  rw [inRoom, endState_zoom]
  exact Function.update_of_ne h ..

@[simp] theorem roomCount_inRoom : (endState (inRoom r m) s).roomCount = s.roomCount := by
  rw [inRoom, endState_zoom]
  rfl

@[simp] theorem nextSerial_inRoom : (endState (inRoom r m) s).nextSerial = s.nextSerial := by
  rw [inRoom, endState_zoom]
  rfl

@[simp] theorem stateGroupMap_inRoom :
    (endState (inRoom r m) s).stateGroupMap = s.stateGroupMap := by
  rw [inRoom, endState_zoom]
  rfl

@[simp] theorem roomCapacity_inRoom : (endState (inRoom r m) s).roomCapacity = s.roomCapacity := by
  rw [inRoom, endState_zoom]
  rfl

end

end Server

/-! ## Chatter -/

/-- Reference: `setSession` (`Chatter.java:52`). The old session and the new one are never null. -/
def Character.setSession (c : Character) (session : SessionRef) : Exec World Unit := do
  let w ← get
  Session.sendResult (w.chatters c).session
    (CmdUtil.kickOffCharacterResult ResultCode.ok "异地登陆")
  c.setFields fun f => { f with session := session }

/-! ## ChatterFactory -/

namespace ChatterFactory

/-- Whether the character is new, and the character. Reference: `findOrCreate`
(`ChatterFactory.java:36`). -/
def findOrCreate (session : SessionRef) (userId : String) : Exec Server (Bool × Character) :=
  fun s =>
    match s.characterMap.get userId with
    | some character => .ok (false, character) s
    | none =>
      let character : Character := ⟨s.nextSerial, userId, none⟩
      .ok (true, character) { s with
        characterMap := s.characterMap.put userId character
        nextSerial := s.nextSerial + 1
        world.chatters := Function.update s.world.chatters character ⟨session, true, 0⟩ }

/-- Reference: `find` (`ChatterFactory.java:49`). -/
def find (s : Server) (userId : String) : Option Character := s.characterMap.get userId

/-- Reference: `removeOffLine` (`ChatterFactory.java:26`). -/
def removeOffLine (s : Server) : Server :=
  { s with characterMap := s.characterMap.removeIf fun _ c => c.isOffLine s.world }

end ChatterFactory

/-! ## RoomStateGroupFactory -/

namespace RoomStateGroupFactory

variable (p : Platform)

/-- Puts a new room on the heap. -/
def alloc (room : Room) (s : Server) : RoomRef × Server :=
  (s.roomCount, { s with
    rooms := Function.update s.rooms s.roomCount (.ofRoom room)
    roomCount := s.roomCount + 1 })

/-- Reference: `create` (`RoomStateGroupFactory.java:23`). -/
def create (creator : Character) (config : RoomStateConfig) : Exec Server RoomRef := fun s =>
  let roomId := s.idCounter
  let s := { s with idCounter := s.idCounter + 1 }
  match s.stateGroupMap.get roomId with
  | some r => .ok r s
  | none =>
    match RoomStateGroup.create p roomId creator config s.roomCapacity s.world with
    | none => .error ⟨"IllegalArgumentException"⟩ s
    | some room =>
      let (r, s) := alloc room s
      .ok r { s with stateGroupMap := s.stateGroupMap.put roomId r }

/-- Reference: `AbstractStateGroupFactory.find` (`AbstractStateGroupFactory.java:43`). -/
def find (s : Server) (roomId : BitVec 64) : Option RoomRef := s.stateGroupMap.get roomId

/-- Whether the room can be deposed. -/
def canDepose (s : Server) (r : RoomRef) : Bool :=
  RoomStateGroup.canDepose p ((Server.room r).get s)

/-- Reference: `AbstractStateGroupFactory.removeDeposedStateGroup`
(`AbstractStateGroupFactory.java:29`). -/
def removeDeposedStateGroup (s : Server) : Server :=
  { s with stateGroupMap := s.stateGroupMap.removeIf fun _ r => canDepose p s r }

end RoomStateGroupFactory

/-- `workerManager.addStateGroup(room)`. -/
def addStateGroup (p : Platform) (r : RoomRef) : Exec Server Unit :=
  modify fun s => { s with
    workerManager := (s.workerManager.addStateGroup (fun r => (s.rooms r).group.id)
      (RoomStateGroupFactory.canDepose p s) r p).2 }

end WebRtcNetty
