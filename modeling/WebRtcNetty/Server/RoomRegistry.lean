import WebRtcNetty.Lib.Java.SweptMap
import WebRtcNetty.Server.SessionBinding

/-!
# The room registry while it is swept

A room is put in the registry, its creator enters it, and the creator is told that it has been
created: three steps of a CREATE_ROOM, which do not exclude the thread that sweeps the registry. The
sweep copies the registry, drops the rooms without an online member from its copy, and publishes the
copy. `RoomRegistry` has the CREATE_ROOMs that are under way and the sweep, and everything else the
server does may happen between their steps.
-/

namespace WebRtcNetty

open Java Proto2 Command Runs Server

/-! ## A CREATE_ROOM in steps -/

namespace WebChatDispatcher

variable (p : Platform)

/-- The first step of `createRoom`: the creator and the room that the registry has, or nothing when
there is no room to be created. Reference: `createRoom` (`WebChatDispatcher.java:134-149`). -/
def insertRoom (session : SessionRef) (cmd : Cmd) : Exec Server (Option (Character × RoomRef)) :=
  match UserCmd.createRoom.parseFrom cmd.getContent with
  | none => do
    let msg ← inWorld (CmdUtil.createRoomResult p ResultCode.error "参数异常" (-1) none)
    inWorld (Session.send session (.message msg))
    return none
  | some createRoom => do
    let s ← get
    match Session.getAttribute s.world session with
    | none => do
      inWorld (Session.sendResult session
        (CmdUtil.closeRoomResult ResultCode.fail "user has not login"))
      return none
    | some character => do
      let config : RoomStateConfig :=
        ⟨UserCmd.CreateRoom.getHasAudio createRoom, UserCmd.CreateRoom.getHasVideo createRoom⟩
      let room ← RoomStateGroupFactory.create p character config
      return some (character, room)

/-- The last step of `createRoom`. Reference: `createRoom` (`WebChatDispatcher.java:150-152`). -/
def finishCreation (session : SessionRef) (room : RoomRef) : Exec Server Unit := do
  addStateGroup p room
  replyCreated p session room

/-- The three steps one after the other are `createRoom`. -/
theorem createRoom_eq (session : SessionRef) (cmd : Cmd) : createRoom p session cmd = (do
    match ← insertRoom p session cmd with
    | none => pure ()
    | some (character, room) => do
      let _ ← inRoom room (RoomStateGroup.enter p character)
      finishCreation p session room) := by
  unfold createRoom insertRoom finishCreation
  cases UserCmd.createRoom.parseFrom cmd.getContent with
  | none => simp
  | some m =>
    dsimp only
    rw [bind_assoc]
    refine congrArg _ (funext fun s => ?_)
    cases Session.getAttribute s.world session with
    | none => simp
    | some c => simp

end WebChatDispatcher

/-! ## The registry -/

/-- A CREATE_ROOM whose room is in the registry; `hasEntered` tells whether its creator has entered
the room. -/
structure Creation where
  session : SessionRef
  creator : Character
  room : RoomRef
  hasEntered : Bool
  deriving DecidableEq

/-- The server, with the sweep of its room registry and the CREATE_ROOMs that are under way. -/
structure RoomRegistry where
  server : Server
  sweep : Sweep (BitVec 64) RoomRef
  creations : List Creation

namespace RoomRegistry

/-- No sweep and no CREATE_ROOM are under way. -/
def initial (server : Server) : RoomRegistry := ⟨server, .idle, []⟩

/-- The registry's map, with the sweep. -/
def swept (s : RoomRegistry) : SweptMap (BitVec 64) RoomRef := ⟨s.server.stateGroupMap, s.sweep⟩

/-- Replaces the map and the sweep. -/
def setSwept (s : RoomRegistry) (m : SweptMap (BitVec 64) RoomRef) : RoomRegistry :=
  { s with server.stateGroupMap := m.map, sweep := m.sweep }

/-- The next step of a CREATE_ROOM or of a sweep, or an operation of the server that belongs to
neither. -/
inductive Op
  | insert (session : SessionRef) (cmd : Cmd)
  | enter (i : Nat)
  | reply (i : Nat)
  | copy
  | drop
  | publish
  | elsewhere (op : Server.Op)

/-- The operation handles no CREATE_ROOM and does not sweep the registry. -/
def isElsewhere : Server.Op → Bool
  | .handle _ cmd => cmd.getCmdType ≠ CmdType.createRoom
  | .background .removeDeposedStateGroup => false
  | .background _ => true

section
variable (p : Platform)

/-- What an operation does. When the entry throws, the CREATE_ROOM ends there. A step that is not
the next one of its CREATE_ROOM or of the sweep does nothing. -/
def after (s : RoomRegistry) : Op → RoomRegistry
  | .insert session cmd =>
    match WebChatDispatcher.insertRoom p session cmd s.server with
    | .ok (some (creator, room)) server =>
      { s with server, creations := s.creations ++ [⟨session, creator, room, false⟩] }
    | .ok none server => { s with server }
    | .error _ server => { s with server }
  | .enter i =>
    match s.creations[i]? with
    | some ⟨session, creator, room, false⟩ =>
      match inRoom room (RoomStateGroup.enter p creator) s.server with
      | .ok _ server =>
        { s with server, creations := s.creations.set i ⟨session, creator, room, true⟩ }
      | .error _ server => { s with server, creations := s.creations.eraseIdx i }
    | _ => s
  | .reply i =>
    match s.creations[i]? with
    | some ⟨session, _, room, true⟩ => { s with
        server := endState (WebChatDispatcher.finishCreation p session room) s.server
        creations := s.creations.eraseIdx i }
    | _ => s
  | .copy => s.setSwept s.swept.copy
  | .drop => s.setSwept (s.swept.drop fun r => RoomStateGroupFactory.canDepose p s.server r)
  | .publish => s.setSwept s.swept.publish
  | .elsewhere op => if isElsewhere op then { s with server := endState (op.run p) s.server } else s

/-- Every operation is atomic. -/
def Step (s : RoomRegistry) (op : Op) (s' : RoomRegistry) : Prop := s' = after p s op

/-- A sweep that nothing comes in between of is the server's. -/
theorem sweep_alone (s : RoomRegistry) (h : s.sweep = .idle) :
    after p (after p (after p s .copy) .drop) .publish =
      { s with server := RoomStateGroupFactory.removeDeposedStateGroup p s.server } := by
  obtain ⟨server, sweep, creations⟩ := s
  cases h
  exact congrArg (RoomRegistry.setSwept ⟨server, .idle, creations⟩)
    (SweptMap.publish_drop_copy (fun r => RoomStateGroupFactory.canDepose p server r)
      server.stateGroupMap)

/-- So is a CREATE_ROOM. -/
theorem createRoom_alone (s : RoomRegistry) (session : SessionRef) (cmd : Cmd)
    (h : s.creations = []) :
    after p (after p (after p s (.insert session cmd)) (.enter 0)) (.reply 0) =
      { s with server := endState (WebChatDispatcher.createRoom p session cmd) s.server } := by
  obtain ⟨server, sweep, creations⟩ := s
  cases h
  rw [WebChatDispatcher.createRoom_eq]
  simp only [after]
  cases hinsert : WebChatDispatcher.insertRoom p session cmd server with
  | error e server' => rw [endState_bind_error hinsert]; rfl
  | ok out server' =>
    rw [endState_bind_ok hinsert]
    cases out with
    | none => rfl
    | some inserted =>
      obtain ⟨creator, room⟩ := inserted
      dsimp only [List.nil_append, List.getElem?_cons_zero]
      cases henter : inRoom room (RoomStateGroup.enter p creator) server' with
      | error e server'' => rw [endState_bind_error henter]; rfl
      | ok _ server'' => rw [endState_bind_ok henter]; rfl

end

/-! ## What the steps change -/

/-- The registry's map, and the rooms that there are with their ids. -/
structure Listing where
  map : HashMap (BitVec 64) RoomRef
  count : Nat
  capacity : Int
  id : RoomRef → BitVec 64

/-- The listing with a new room under the id. -/
def Listing.add (l : Listing) (k : BitVec 64) : Listing where
  map := l.map.put k l.count
  count := l.count + 1
  capacity := l.capacity
  id := Function.update l.id l.count k

/-- The part of a server that its registry of rooms is made of. -/
def listing (s : Server) : Listing where
  map := s.stateGroupMap
  count := s.roomCount
  capacity := s.roomCapacity
  id r := (s.rooms r).group.id

section
variable {p : Platform}

/-- What happens in a room does not concern the registry, if the room keeps its id. -/
theorem inRoom_listing {α : Type} {r : RoomRef} {m : Exec Room α}
    (h : Within (.keeping fun room => room.group.id) m) :
    Within (.keeping listing) (inRoom r m) := by
  intro s
  have hids : (listing (endState (inRoom r m) s)).id = (listing s).id := by
    funext r'
    by_cases hr : r' = r
    · subst hr
      show ((endState (inRoom r' m) s).rooms r').group.id = (s.rooms r').group.id
      rw [rooms_inRoom_self]
      exact h ((Server.room r').get s)
    · show ((endState (inRoom r m) s).rooms r').group.id = (s.rooms r').group.id
      rw [rooms_inRoom_of_ne hr]
  show listing (endState (inRoom r m) s) = listing s
  simp only [listing] at hids ⊢
  simp only [stateGroupMap_inRoom, roomCount_inRoom, roomCapacity_inRoom, hids]

/-- The sessions and characters are not part of it. -/
theorem inWorld_listing {α : Type} (m : Exec World α) : Within (.keeping listing) (inWorld m) :=
  .zoom_keeping fun _ _ => rfl

/-- An entry leaves it as it is. -/
theorem enter_listing (r : RoomRef) (c : Character) :
    Within (.keeping listing) (inRoom r (RoomStateGroup.enter p c)) :=
  inRoom_listing fun room => congrArg AbstractStateGroup.id (enter_group c room).1

/-- So do all entries. -/
theorem allowsEntries_listing : Frame.AllowsEntries p (.keeping listing) where
  sending _ := ⟨fun _ _ _ => rfl, fun _ => rfl⟩
  entering := enter_listing
  queueing r c k := inRoom_listing fun room => by
    rw [endState_ok (addCharacterCmd_eq c k room)]
    rfl

/-- So do characters that are found or created. -/
theorem allowsCharacters_listing : Frame.AllowsCharacters (.keeping listing) where
  finding session userId s := by
    unfold endState ChatterFactory.findOrCreate
    cases s.characterMap.get userId with
    | some c => rfl
    | none => rfl
  attributing _ _ := inWorld_listing _
  displacing _ _ := inWorld_listing _

/-- What happens elsewhere does not concern the registry. -/
theorem elsewhere_listing {op : Server.Op} (h : isElsewhere op = true) :
    Within (.keeping listing) (op.run p) := by
  cases op with
  | handle session cmd =>
    exact handler_within_of_ne allowsCharacters_listing allowsEntries_listing session cmd
      (of_decide_eq_true h)
  | background b =>
    cases b with
    | update r =>
      refine .bind .read fun _ => .ite (inRoom_listing fun room => ?_) (.pure ())
      exact congrArg (·.1) (AbstractStateGroup.update_config room)
    | removeDeposedStateGroup => cases h
    | removeOffLine => exact .modify fun _ => rfl
    | removeWorker => exact .modify fun _ => rfl
    | removeDeposedGroup worker => exact .modify fun _ => rfl
    | close session => exact inWorld_listing (Session.close session)

/-- So does the end of a CREATE_ROOM: the workers get the room, and the creator is told. -/
theorem finishCreation_listing (session : SessionRef) (r : RoomRef) :
    Within (.keeping listing) (WebChatDispatcher.finishCreation p session r) :=
  .bind (.modify fun _ => rfl) fun _ => .bind .read fun _ =>
    .bind (inWorld_listing _) fun _ => inWorld_listing _

/-- A new room is put in the registry under the next id, unless there is one with that id. -/
theorem create_cases (c : Character) (config : RoomStateConfig) (s : Server) :
    (∃ e s', RoomStateGroupFactory.create p c config s = .error e s' ∧ ¬ 8 ≤ s.roomCapacity ∧
      listing s' = listing s) ∨
    (∃ r s', RoomStateGroupFactory.create p c config s = .ok r s' ∧
      s.stateGroupMap.get s.idCounter = some r ∧ listing s' = listing s) ∨
    ∃ s', RoomStateGroupFactory.create p c config s = .ok s.roomCount s' ∧
      s.stateGroupMap.get s.idCounter = none ∧ 8 ≤ s.roomCapacity ∧
      listing s' = (listing s).add s.idCounter := by
  unfold RoomStateGroupFactory.create
  dsimp only
  cases s.stateGroupMap.get s.idCounter with
  | some r => exact .inr (.inl ⟨r, _, rfl, rfl, rfl⟩)
  | none =>
    cases hc : RoomStateGroup.create p s.idCounter c config s.roomCapacity s.world with
    | none => exact .inl ⟨_, _, rfl, create_eq_none hc, rfl⟩
    | some room =>
      obtain ⟨-, hspec, hid⟩ := create_spec hc
      have hcapacity : room.group.characterCapacity = s.roomCapacity :=
        congrArg RoomSpec.capacity hspec
      refine .inr (.inr ⟨_, rfl, rfl, ?_, ?_⟩)
      · rw [← hcapacity]
        exact room.group.capacity_ge
      · have hids : ∀ r, (Function.update s.rooms s.roomCount (.ofRoom room) r).group.id =
            Function.update (listing s).id s.roomCount s.idCounter r := fun r => by
          rw [Function.apply_update (fun _ (o : RoomObject) => o.group.id)]
          exact congrArg (fun k => Function.update (listing s).id s.roomCount k r) hid
        exact congrArg (Listing.mk _ _ _) (funext hids)

/-- The CREATE_ROOM is well formed, its session is logged in, and rooms may have their capacity. -/
def CreatesRoom (s : Server) (session : SessionRef) (cmd : Cmd) : Prop :=
  UserCmd.createRoom.parseFrom cmd.getContent ≠ none ∧
    Session.getAttribute s.world session ≠ none ∧ 8 ≤ s.roomCapacity

/-- What the first step of a CREATE_ROOM does to the registry. -/
theorem insertRoom_cases (session : SessionRef) (cmd : Cmd) (s : Server) :
    ((∀ inserted s', WebChatDispatcher.insertRoom p session cmd s ≠ .ok (some inserted) s') ∧
      listing (endState (WebChatDispatcher.insertRoom p session cmd) s) = listing s) ∨
    ∃ creator r s', WebChatDispatcher.insertRoom p session cmd s = .ok (some (creator, r)) s' ∧
      (8 ≤ s.roomCapacity → CreatesRoom s session cmd) ∧
      ((s.stateGroupMap.get s.idCounter = some r ∧ listing s' = listing s) ∨
        (s.stateGroupMap.get s.idCounter = none ∧ r = s.roomCount ∧ 8 ≤ s.roomCapacity ∧
          listing s' = (listing s).add s.idCounter)) := by
  unfold WebChatDispatcher.insertRoom
  cases hparse : UserCmd.createRoom.parseFrom cmd.getContent with
  | none =>
    refine .inl ⟨fun inserted s' h => ?_, ?_⟩
    · obtain ⟨msg, s₁, -, h⟩ := bind_eq_ok h
      obtain ⟨_, s₂, -, h⟩ := bind_eq_ok h
      cases h
    · exact Within.bind (inWorld_listing _)
        (fun _ => .bind (inWorld_listing _) fun _ => .pure _) s
  | some m =>
    dsimp only
    rw [run_bind_ok (run_get s), endState_get_bind]
    cases hattr : Session.getAttribute s.world session with
    | none =>
      refine .inl ⟨fun inserted s' h => ?_, ?_⟩
      · obtain ⟨_, s₁, -, h⟩ := bind_eq_ok h
        cases h
      · exact Within.bind (inWorld_listing _) (fun _ => .pure _) s
    | some c =>
      dsimp only
      have hcreates : 8 ≤ s.roomCapacity → CreatesRoom s session cmd := fun hcapacity =>
        ⟨by simp [hparse], by simp [hattr], hcapacity⟩
      rcases create_cases (p := p) c
          ⟨UserCmd.CreateRoom.getHasAudio m, UserCmd.CreateRoom.getHasVideo m⟩ s with
        ⟨e, s', hc, -, hs'⟩ | ⟨r, s', hc, hget, hs'⟩ | ⟨s', hc, hget, hcapacity, hs'⟩
      · rw [run_bind_error hc, endState_bind_error hc]
        refine .inl ⟨fun _ _ h => ?_, hs'⟩
        cases h
      · rw [run_bind_ok hc]
        exact .inr ⟨c, r, s', rfl, hcreates, .inl ⟨hget, hs'⟩⟩
      · rw [run_bind_ok hc]
        exact .inr ⟨c, s.roomCount, s', rfl, hcreates, .inr ⟨hget, rfl, hcapacity, hs'⟩⟩

/-- The registry, the sweep and the CREATE_ROOMs that are under way are as before, but that some of
these may have gone on or ended. -/
structure Undisturbed (s s' : RoomRegistry) : Prop where
  listing : listing s'.server = listing s.server
  sweep : s'.sweep = s.sweep
  creations : ∀ c ∈ s'.creations, ∃ c₀ ∈ s.creations, c.room = c₀.room

/-- A step that does nothing. -/
theorem Undisturbed.refl (s : RoomRegistry) : Undisturbed s s :=
  ⟨rfl, rfl, fun c hc => ⟨c, hc, rfl⟩⟩

/-- The entry of a creator. -/
theorem undisturbed_enter (s : RoomRegistry) (i : Nat) : Undisturbed s (after p s (.enter i)) := by
  simp only [after]
  split
  · next session creator room hi =>
    have hlisting := enter_listing (p := p) room creator s.server
    split
    · next hr =>
      rw [endState_ok hr] at hlisting
      refine ⟨hlisting, rfl, fun c hc => ?_⟩
      rcases List.mem_or_eq_of_mem_set hc with hc | rfl
      · exact ⟨c, hc, rfl⟩
      · exact ⟨_, List.mem_of_getElem? hi, rfl⟩
    · next hr =>
      rw [endState_error hr] at hlisting
      exact ⟨hlisting, rfl, fun c hc => ⟨c, List.mem_of_mem_eraseIdx hc, rfl⟩⟩
  · exact .refl s

/-- The reply to a creator. -/
theorem undisturbed_reply (s : RoomRegistry) (i : Nat) : Undisturbed s (after p s (.reply i)) := by
  simp only [after]
  split
  · next session creator room hi =>
    exact ⟨finishCreation_listing session room s.server, rfl,
      fun c hc => ⟨c, List.mem_of_mem_eraseIdx hc, rfl⟩⟩
  · exact .refl s

/-- What the server does besides creating rooms and sweeping them. -/
theorem undisturbed_elsewhere (s : RoomRegistry) (op : Server.Op) :
    Undisturbed s (after p s (.elsewhere op)) := by
  simp only [after]
  split
  · next h => exact ⟨elsewhere_listing h s.server, rfl, fun c hc => ⟨c, hc, rfl⟩⟩
  · exact .refl s

/-- What the first step of a CREATE_ROOM does. -/
theorem after_insert_cases (s : RoomRegistry) (session : SessionRef) (cmd : Cmd) :
    Undisturbed s (after p s (.insert session cmd)) ∨
    ∃ creator r, (after p s (.insert session cmd)).creations =
        s.creations ++ [⟨session, creator, r, false⟩] ∧
      (after p s (.insert session cmd)).sweep = s.sweep ∧
      (8 ≤ s.server.roomCapacity → CreatesRoom s.server session cmd) ∧
      ((s.server.stateGroupMap.get s.server.idCounter = some r ∧
          listing (after p s (.insert session cmd)).server = listing s.server) ∨
        (s.server.stateGroupMap.get s.server.idCounter = none ∧ r = s.server.roomCount ∧
          8 ≤ s.server.roomCapacity ∧ listing (after p s (.insert session cmd)).server =
            (listing s.server).add s.server.idCounter)) := by
  simp only [after]
  rcases insertRoom_cases (p := p) session cmd s.server with
    ⟨hne, hlisting⟩ | ⟨creator, r, server, hinsert, hcreates, hlisting⟩
  · refine .inl ?_
    split
    · next hi => exact absurd hi (hne _ _)
    · next hi =>
      rw [endState_ok hi] at hlisting
      exact ⟨hlisting, rfl, fun c hc => ⟨c, hc, rfl⟩⟩
    · next hi =>
      rw [endState_error hi] at hlisting
      exact ⟨hlisting, rfl, fun c hc => ⟨c, hc, rfl⟩⟩
  · rw [hinsert]
    exact .inr ⟨creator, r, rfl, rfl, hcreates, hlisting⟩

end

/-! ## Runs -/

/-- The transitions of a run of operations. -/
def transitions (p : Platform) (s : RoomRegistry) (ops : List Op) :
    List (Transition RoomRegistry Op) :=
  trace (after p) s ops

/-- The transitions of a run are a run. -/
theorem run_transitions (p : Platform) (ops : List Op) (s : RoomRegistry) :
    Run (Step p) s (transitions p s ops) (ops.foldl (after p) s) := by
  have hstep : ∀ s op, Step p s op (after p s op) := fun _ _ => rfl
  exact run_trace hstep ops s

/-- Alice's CREATE_ROOM. -/
def createAlice : Cmd := .of CmdType.createRoom [10, 5, 97, 108, 105, 99, 101]

end RoomRegistry

end WebRtcNetty
