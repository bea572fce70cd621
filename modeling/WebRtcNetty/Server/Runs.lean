import WebRtcNetty.Lib.Run
import WebRtcNetty.Server.Frames

/-!
# Runs of the server

The handlers of commands on any sessions, and what happens besides them: the workers' updates of
rooms, the periodic sweeps, and the ends of connections. Each of these is one step. In every state
reached, the rooms that have been created are in a phase, and the room registry has each room under
its own id (`WellFormed.step`).
-/

namespace WebRtcNetty

open Java Proto2 Command Runs

namespace Server

/-- What happens besides the handlers. -/
inductive Background
  | update (r : RoomRef)
  | removeOffLine
  | removeDeposedStateGroup
  | removeWorker
  | removeDeposedGroup (worker : WorkerRef)
  | close (session : SessionRef)

/-- What can happen to the server. -/
inductive Op
  | handle (session : SessionRef) (cmd : Cmd)
  | background (b : Background)

section
variable (p : Platform)

/-- An update is of a room that has been created. -/
def Background.run : Background → Exec Server Unit
  | .update r => do
    let s ← get
    if r < s.roomCount then inRoom r AbstractStateGroup.update else pure ()
  | .removeOffLine => modify ChatterFactory.removeOffLine
  | .removeDeposedStateGroup => modify (RoomStateGroupFactory.removeDeposedStateGroup p)
  | .removeWorker => modify fun s => { s with workerManager := s.workerManager.removeWorker }
  | .removeDeposedGroup worker => modify fun s => { s with
      workerManager :=
        s.workerManager.removeDeposedGroup (RoomStateGroupFactory.canDepose p s) worker }
  | .close session => inWorld (Session.close session)

/-- What an operation does. -/
def Op.run : Op → Exec Server Unit
  | .handle session cmd => WebChatDispatcher.handler p session cmd
  | .background b => b.run p

/-- Every operation is atomic, and may throw. -/
def Step (s : Server) (op : Op) (s' : Server) : Prop := s' = endState (op.run p) s

end

section
variable {p : Platform} {r : RoomRef} {s : Server}

/-- The update of a room that is there. -/
theorem endState_update (hr : r < s.roomCount) : endState (Background.run p (.update r)) s =
    endState (inRoom r AbstractStateGroup.update) s := by
  rw [Background.run, endState_get_bind, if_pos hr]

/-- No other room is updated. -/
theorem endState_update_of_not_lt (hr : ¬ r < s.roomCount) :
    endState (Background.run p (.update r)) s = s := by
  rw [Background.run, endState_get_bind, if_neg hr, endState_pure]

end

/-! ## The rooms that have been created -/

/-- A room that has been created is in a phase, and what the room registry has under an id is a room
with that id. -/
structure WellFormed (p : Platform) (s : Server) : Prop where
  inPhase : ∀ r < s.roomCount, ∃ ph, ((Server.room r).get s).InPhase p ph
  registered : ∀ k r, s.stateGroupMap.get k = some r →
    r < s.roomCount ∧ (s.rooms r).group.id = k

section
variable {p : Platform} {s s' : Server}

/-- A server without rooms is well formed. -/
theorem wellFormed_initial (w : World) (roomCapacity : Int) (m : WorkerManager RoomRef) :
    WellFormed p (.initial w roomCapacity m) where
  inPhase r hr := absurd hr (Nat.not_lt_zero r)
  registered k r hr := by
    simp only [initial, HashMap.get_empty] at hr
    cases hr

/-- What neither makes a room nor writes to one keeps the server well formed, if the registry only
loses entries. -/
theorem WellFormed.of_rooms (h : WellFormed p s) (hcount : s'.roomCount = s.roomCount)
    (hrooms : s'.rooms = s.rooms)
    (hmap : ∀ k r, s'.stateGroupMap.get k = some r → s.stateGroupMap.get k = some r) :
    WellFormed p s' where
  inPhase r hr := by
    obtain ⟨ph, hph⟩ := h.inPhase r (hcount ▸ hr)
    exact ⟨ph, hph.of_group (congrArg (fun rooms => (rooms r).group) hrooms)⟩
  registered k r hr := by
    rw [hcount, hrooms]
    exact h.registered k r (hmap k r hr)

/-- A computation in a room that keeps it in a phase, and its id, keeps the server well formed. -/
theorem WellFormed.inRoom {α : Type} {r : RoomRef} {m : Exec Room α} (h : WellFormed p s)
    (hm : ∀ room ph, room.InPhase p ph → ∃ ph', Room.InPhase p (endState m room) ph')
    (hid : ∀ room, (endState m room).group.id = room.group.id) :
    WellFormed p (endState (Server.inRoom r m) s) := by
  refine ⟨fun r' hr' => ?_, fun k r' hr' => ?_⟩
  · rw [roomCount_inRoom] at hr'
    obtain ⟨ph, hph⟩ := h.inPhase r' hr'
    by_cases hr : r' = r
    · subst hr
      obtain ⟨ph', hph'⟩ := hm _ ph hph
      exact ⟨ph', hph'.of_group (congrArg RoomObject.group rooms_inRoom_self)⟩
    · exact ⟨ph, hph.of_group (congrArg RoomObject.group (rooms_inRoom_of_ne hr))⟩
  · rw [stateGroupMap_inRoom] at hr'
    obtain ⟨hlt, hk⟩ := h.registered k r' hr'
    rw [roomCount_inRoom]
    refine ⟨hlt, ?_⟩
    by_cases hr : r' = r
    · subst hr
      rw [rooms_inRoom_self]
      exact (hid ((Server.room r').get s)).trans hk
    · rw [rooms_inRoom_of_ne hr]
      exact hk

/-- A new room is in its first phase, and the registry has it under its id. -/
theorem WellFormed.create (h : WellFormed p s) (c : Character) (config : RoomStateConfig) :
    WellFormed p (endState (RoomStateGroupFactory.create p c config) s) := by
  unfold endState RoomStateGroupFactory.create
  dsimp only
  cases hget : s.stateGroupMap.get s.idCounter with
  | some r => exact h.of_rooms rfl rfl fun _ _ => id
  | none =>
    dsimp only
    cases hc : RoomStateGroup.create p s.idCounter c config s.roomCapacity s.world with
    | none => exact h.of_rooms rfl rfl fun _ _ => id
    | some room =>
      obtain ⟨hphase, -, hid⟩ := create_spec hc
      have hself := Function.update_self s.roomCount (RoomObject.ofRoom room) s.rooms
      have hne : ∀ {r}, r ≠ s.roomCount →
          Function.update s.rooms s.roomCount (RoomObject.ofRoom room) r = s.rooms r := fun hr =>
        Function.update_of_ne hr _ s.rooms
      refine ⟨fun r (hr : r < s.roomCount + 1) => ?_, fun k r hr => ?_⟩
      · by_cases hnew : r = s.roomCount
        · subst hnew
          exact ⟨.waiting, hphase.of_group (congrArg RoomObject.group hself)⟩
        · obtain ⟨ph, hph⟩ := h.inPhase r (by omega)
          exact ⟨ph, hph.of_group (congrArg RoomObject.group (hne hnew))⟩
      · have hr' : (s.stateGroupMap.put s.idCounter s.roomCount).get k = some r := hr
        rw [HashMap.get_put_eq] at hr'
        split at hr'
        · next hk =>
          cases hr'
          exact ⟨Nat.lt_succ_self _, (congrArg (·.group.id) hself).trans (hid.trans hk.symm)⟩
        · obtain ⟨hlt, hk⟩ := h.registered k r hr'
          exact ⟨Nat.lt_succ_of_lt hlt,
            (congrArg (·.group.id) (hne (Nat.ne_of_lt hlt))).trans hk⟩

/-- What happens among the sessions and characters keeps a server well formed. -/
theorem preserving_inWorld {α : Type} (m : Exec World α) :
    Within (.preserving (WellFormed p)) (inWorld m) := by
  intro s h
  rw [inWorld, endState_zoom]
  exact h.of_rooms rfl rfl fun _ _ => id

/-- Nothing that the handlers do in rooms spoils them. -/
theorem allowsRooms_wellFormed : Frame.AllowsRooms p (.preserving (WellFormed p)) where
  sending _ := ⟨fun _ _ _ h => h.of_rooms rfl rfl fun _ _ => id,
    fun _ h => h.of_rooms rfl rfl fun _ _ => id⟩
  creating c config _ h := h.create c config
  entering r c _ h := h.inRoom
    (fun room ph hph => by
      obtain ⟨hroom, -⟩ := refines_enter hph c
      exact ⟨ph, hroom⟩)
    fun room => by rw [(enter_group c room).1]
  adding _ := .modify fun _ h => h.of_rooms rfl rfl fun _ _ => id
  queueing r c k _ h := h.inRoom
    (fun room ph hph => ⟨ph, (refines_addCharacterCmd hph c k).1⟩)
    fun room => by rw [endState_ok (addCharacterCmd_eq c k room)]

/-- So do characters that are found or created. -/
theorem allowsCharacters_wellFormed : Frame.AllowsCharacters (.preserving (WellFormed p)) where
  finding session userId s h := by
    unfold endState ChatterFactory.findOrCreate
    cases s.characterMap.get userId with
    | some c => exact h
    | none => exact h.of_rooms rfl rfl fun _ _ => id
  attributing _ _ := preserving_inWorld _
  displacing _ _ := preserving_inWorld _

/-- So does everything that happens in the background. -/
theorem wellFormed_background (b : Background) :
    Within (.preserving (WellFormed p)) (b.run p) := by
  cases b with
  | update r =>
    refine .bind .read fun _ => .ite (fun s h => h.inRoom ?_ ?_) (.pure ())
    · intro room ph hph
      obtain ⟨ph', hph', -⟩ := refines_update hph
      exact ⟨ph', hph'⟩
    · intro room
      exact congrArg (·.1) (AbstractStateGroup.update_config room)
  | removeOffLine => exact .modify fun _ h => h.of_rooms rfl rfl fun _ _ => id
  | removeDeposedStateGroup =>
    exact .modify fun _ h =>
      h.of_rooms rfl rfl fun k r hr => ((HashMap.get_removeIf _ _ k r).1 hr).1
  | removeWorker => exact .modify fun _ h => h.of_rooms rfl rfl fun _ _ => id
  | removeDeposedGroup worker => exact .modify fun _ h => h.of_rooms rfl rfl fun _ _ => id
  | close session => exact preserving_inWorld _

/-- So does every step. -/
theorem WellFormed.step {op : Op} (h : WellFormed p s) (hs : Step p s op s') : WellFormed p s' := by
  cases hs
  cases op with
  | handle session cmd =>
    exact handler_within allowsCharacters_wellFormed allowsRooms_wellFormed session cmd s h
  | background b => exact wellFormed_background b s h

end

end Server

/-! ## What the server does to the sessions and characters -/

open Server

/-- The frame allows what the server does to the sessions and characters. -/
structure Frame.AllowsServer (G : Frame World) : Prop extends Frame.AllowsEntering G where
  attributing : ∀ session c, Within G (Session.setAttribute session c)
  displacing : ∀ (c : Character) session, Within G (c.setSession session)
  creating : ∀ w c session, G.rel w { w with
    chatters := Function.update w.chatters c ⟨session, true, 0⟩ }
  closing : ∀ session, Within G (Session.close session)

section
variable {p : Platform} {G : Frame World} {s s' : Server}

/-- What a server is allowed, its characters are. -/
theorem Frame.AllowsServer.allowsCharacters (hG : Frame.AllowsServer G) :
    Frame.AllowsCharacters (G.comap world) where
  finding session userId s := by
    unfold endState ChatterFactory.findOrCreate
    cases s.characterMap.get userId with
    | some c => exact G.refl s.world
    | none => exact hG.creating s.world _ session
  attributing session c := (hG.attributing session c).zoom (L := theWorld)
  displacing c session := (hG.displacing c session).zoom (L := theWorld)

/-- And its rooms are. -/
theorem Frame.AllowsServer.allowsRooms (hG : Frame.AllowsServer G) :
    Frame.AllowsRooms p (G.comap world) :=
  hG.toAllowsEntering.allowsRooms.mono fun _ _ h => h.1

/-- Every step of the server stays within such a frame. -/
theorem Frame.AllowsServer.step (hG : Frame.AllowsServer G) {op : Op} (hwf : s.WellFormed p)
    (hs : Step p s op s') : G.rel s.world s'.world := by
  cases hs
  cases op with
  | handle session cmd => exact handler_within hG.allowsCharacters hG.allowsRooms session cmd s
  | background b =>
    cases b with
    | update r =>
      show G.rel s.world (endState (Background.run p (.update r)) s).world
      by_cases hr : r < s.roomCount
      · obtain ⟨ph, hph⟩ := hwf.inPhase r hr
        rw [endState_update hr, world_inRoom]
        exact update_world hG.toAllowsSending hph
      · rw [endState_update_of_not_lt hr]
        exact G.refl s.world
    | removeOffLine => exact G.refl s.world
    | removeDeposedStateGroup => exact G.refl s.world
    | removeWorker => exact G.refl s.world
    | removeDeposedGroup worker => exact G.refl s.world
    | close session => exact (hG.closing session).zoom (L := theWorld) s

end

/-! ## A server -/

namespace Server

/-- The server with the values that the application starts with (`application.yml`). -/
def start : Server :=
  .initial (.initial (fun _ => some "/127.0.0.1:50000") fun _ => false) 10
    ((WorkerManager.new 50 10).get rfl)

/-- The transitions of a run of operations. -/
def transitions (p : Platform) (s : Server) (ops : List Op) : List (Transition Server Op) :=
  trace (fun s op => endState (op.run p) s) s ops

/-- The transitions of a run are a run. -/
theorem run_transitions (p : Platform) (ops : List Op) (s : Server) :
    Run (Step p) s (transitions p s ops) (ops.foldl (fun s op => endState (op.run p) s) s) := by
  have hstep : ∀ s op, Step p s op (endState (op.run p) s) := fun _ _ => rfl
  exact run_trace hstep ops s

end Server

end WebRtcNetty
