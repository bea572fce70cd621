import WebRtcNetty.Chat.Waiting
import WebRtcNetty.Server.Acceptance
import WebRtcNetty.Server.Routing

/-!
# Each room of the server runs as a room alone

The rooms share the sessions and characters, the registry and the handlers. Still what a run of the
server does to one of its rooms is a run of that room alone: the room is created as
`RoomStateGroup.create` builds it, the operations on it are those that the handlers and the workers
call on it, in that order, and everything else is its environment (`run_room`). So what holds in
every run of a room holds of every room of the server.

The runs are those of `Routing`, whose steps do one thing in one room at most (`Op.onRoom`).
-/

namespace WebRtcNetty

open Java Proto2 Command Runs Server

namespace Routing

/-- The operation that the step calls on the room, if it calls one on it. -/
def Op.onRoom (r : RoomRef) (s : Server) : Op → Option RoomStateGroup.Op
  | .enter c r' => if r' = r ∧ r < s.roomCount then some (.enter c) else none
  | .other session cmd =>
    match WebChatDispatcher.route s session with
    | some (c, r') => if r' = r then some (.addCharacterCmd c cmd) else none
    | none => none
  | .background (.update r') => if r' = r ∧ r < s.roomCount then some .update else none
  | .create .. | .identify .. | .finish .. | .send .. | .login .. | .invite .. | .background _ =>
    none

/-- The operations that a run calls on the room, in order. -/
def onRoom (r : RoomRef) (ts : List (Transition Server Op)) : List RoomStateGroup.Op :=
  ts.filterMap fun t => t.label.onRoom r t.before

/-- The step makes the room, as `r₀`, for the character of the session that asks for it. -/
def Creates (p : Platform) (creator : Character) (r : RoomRef) (r₀ : Room)
    (t : Transition Server Op) : Prop :=
  ∃ session cmd m, t.label = .create session cmd ∧
    UserCmd.createRoom.parseFrom cmd.getContent = some m ∧
    Session.getAttribute t.before.world session = some creator ∧
    RoomStateGroup.create p t.before.idCounter creator
      ⟨UserCmd.CreateRoom.getHasAudio m, UserCmd.CreateRoom.getHasVideo m⟩
      t.before.roomCapacity t.before.world = some r₀ ∧
    ¬ r < t.before.roomCount ∧ r < t.after.roomCount ∧ (Server.room r).get t.after = r₀

/-- A room that is created has not been there before, and is what the factory has built. -/
theorem Creates.built {p : Platform} {creator : Character} {r : RoomRef} {r₀ : Room}
    {t : Transition Server Op} (h : Creates p creator r r₀ t) :
    ¬ r < t.before.roomCount ∧ r < t.after.roomCount ∧ (Server.room r).get t.after = r₀ := by
  obtain ⟨-, -, -, -, -, -, -, hbuilt⟩ := h
  exact hbuilt

/-! ## Steps that leave the rooms alone -/

section
variable {p : Platform} {s s' : Server} {r : RoomRef}

/-- The sessions and characters are in no room. -/
theorem inWorld_rooms {α : Type} (m : Exec World α) : Within (.keeping Server.rooms) (inWorld m) :=
  .zoom_keeping fun _ _ => rfl

/-- Characters that are found or created leave the rooms as they are. -/
theorem allowsCharacters_rooms : Frame.AllowsCharacters (.keeping Server.rooms) where
  finding session userId s := by
    unfold endState ChatterFactory.findOrCreate
    cases s.characterMap.get userId with
    | some c => rfl
    | none => rfl
  attributing _ _ := inWorld_rooms _
  displacing _ _ := inWorld_rooms _

/-- A LOGIN leaves the rooms as they are. -/
theorem login_rooms (session : SessionRef) (cmd : Cmd) :
    Within (.keeping Server.rooms) (WebChatDispatcher.login p session cmd) := by
  unfold WebChatDispatcher.login
  cases UserCmd.login.parseFrom cmd.getContent with
  | none => exact inWorld_rooms _
  | some m =>
    exact .bind (allowsCharacters_rooms.finding _ _) fun _ => .bind (inWorld_rooms _) fun _ =>
      .ite (inWorld_rooms _) (.bind (inWorld_rooms _) fun _ => inWorld_rooms _)

/-- So does an INVITE. -/
theorem invite_rooms (session : SessionRef) (cmd : Cmd) :
    Within (.keeping Server.rooms) (WebChatDispatcher.invite p session cmd) := by
  refine .bind .read fun s => ?_
  cases Session.getAttribute s.world session with
  | none => exact inWorld_rooms _
  | some c =>
    dsimp only
    cases UserCmd.inviteCharacter.parseFrom cmd.getContent with
    | none => exact inWorld_rooms _
    | some invitation =>
      dsimp only
      cases RoomStateGroupFactory.find s (UserCmd.InviteCharacter.getRoomId invitation) with
      | none => exact inWorld_rooms _
      | some r =>
        dsimp only
        cases ChatterFactory.find s (UserCmd.InviteCharacter.getCharacterId p invitation) with
        | none => exact inWorld_rooms _
        | some invited => exact .bind (inWorld_rooms _) fun _ => inWorld_rooms _

/-- So does the end of a CREATE_ROOM: the workers get the room, and the creator is told. -/
theorem finishCreation_rooms (session : SessionRef) (r : RoomRef) :
    Within (.keeping Server.rooms) (WebChatDispatcher.finishCreation p session r) :=
  .bind (.modify fun _ => rfl) fun _ => .bind .read fun _ => .bind (inWorld_rooms _) fun _ =>
    inWorld_rooms _

end

/-! ## The step that makes a room -/

section
variable {p : Platform} {s : Server}

/-- From `s` to `s'` the rooms are the same, or there is one more, as it has been built. -/
def Grows (p : Platform) (creator : Character) (config : RoomStateConfig) (s s' : Server) : Prop :=
  s'.rooms = s.rooms ∧ s'.roomCount = s.roomCount ∨
  ∃ r₀, RoomStateGroup.create p s.idCounter creator config s.roomCapacity s.world = some r₀ ∧
    s'.rooms = Function.update s.rooms s.roomCount (.ofRoom r₀) ∧
    s'.roomCount = s.roomCount + 1 ∧ s'.world = s.world

/-- The factory builds one room, if it builds one. -/
theorem create_grows (c : Character) (config : RoomStateConfig) :
    Grows p c config s (endState (RoomStateGroupFactory.create p c config) s) := by
  unfold endState RoomStateGroupFactory.create
  dsimp only
  cases s.stateGroupMap.get s.idCounter with
  | some r => exact .inl ⟨rfl, rfl⟩
  | none =>
    dsimp only
    cases hc : RoomStateGroup.create p s.idCounter c config s.roomCapacity s.world with
    | none => exact .inl ⟨rfl, rfl⟩
    | some room => exact .inr ⟨room, hc, rfl, rfl, rfl⟩

/-- The first part of a CREATE_ROOM builds one room, if it builds one. -/
theorem insertRoom_grows (session : SessionRef) (cmd : Cmd) :
    let s' := endState (WebChatDispatcher.insertRoom p session cmd) s
    s'.rooms = s.rooms ∧ s'.roomCount = s.roomCount ∨
    ∃ m creator, UserCmd.createRoom.parseFrom cmd.getContent = some m ∧
      Session.getAttribute s.world session = some creator ∧
      Grows p creator
        ⟨UserCmd.CreateRoom.getHasAudio m, UserCmd.CreateRoom.getHasVideo m⟩ s s' := by
  let F : Frame Server := .keeping fun s => (s.rooms, s.roomCount)
  have hworld : ∀ {α : Type} (m : Exec World α), Within F (inWorld m) := fun _ =>
    .zoom_keeping fun _ _ => rfl
  have hkept : ∀ {α : Type} {m : Exec Server α}, Within F m →
      (endState m s).rooms = s.rooms ∧ (endState m s).roomCount = s.roomCount := fun h =>
    Prod.ext_iff.1 (h s)
  unfold WebChatDispatcher.insertRoom
  cases hparse : UserCmd.createRoom.parseFrom cmd.getContent with
  | none => exact .inl (hkept (.bind (hworld _) fun _ => .bind (hworld _) fun _ => .pure _))
  | some m =>
    dsimp only
    rw [endState_get_bind]
    cases hattr : Session.getAttribute s.world session with
    | none => exact .inl (hkept (.bind (hworld _) fun _ => .pure _))
    | some c =>
      let m' := RoomStateGroupFactory.create p c
        ⟨UserCmd.CreateRoom.getHasAudio m, UserCmd.CreateRoom.getHasVideo m⟩
      have hsame : endState (m' >>= fun r => pure (some (c, r))) s = endState m' s :=
        keeping_bind (f := id) (fun _ => .pure _) s
      refine .inr ⟨m, c, rfl, rfl, ?_⟩
      exact hsame.symm ▸ create_grows c _

end

/-! ## Steps -/

/-- From `s` to `s'` the operation is called on the room, or nothing happens in it. -/
def Does (p : Platform) (r : RoomRef) (s s' : Server) : Option RoomStateGroup.Op → Prop
  | some op => RoomStateGroup.Step p ((Server.room r).get s) op ((Server.room r).get s')
  | none => s'.rooms r = s.rooms r

section
variable {p : Platform} {s s' : Server} {r : RoomRef}

/-- What a handler does in a room is a call of that room. -/
theorem does_call {α : Type} {m : Exec Room α} {op : RoomStateGroup.Op}
    (hrun : endState (op.run p) ((Server.room r).get s) = endState m ((Server.room r).get s)) :
    Does p r s (endState (inRoom r m) s) (some op) := by
  show (Server.room r).get (endState (inRoom r m) s) = endState (op.run p) ((Server.room r).get s)
  rw [hrun, inRoom, endState_zoom, Lens.get_set]

/-- A step does in a room that there is what `Op.onRoom` says. -/
theorem does_step {op : Op} (hs : Step p s op s') (hr : r < s.roomCount) :
    Does p r s s' (op.onRoom r s) := by
  cases hs
  cases op with
  | create session cmd =>
    show (endState _ s).rooms r = s.rooms r
    rw [Op.run, endState_ignore]
    rcases insertRoom_grows (p := p) (s := s) session cmd with
      ⟨hrooms, -⟩ | ⟨m, creator, -, -, ⟨hrooms, -⟩ | ⟨r₀, -, hrooms, -⟩⟩
    · rw [hrooms]
    · rw [hrooms]
    · rw [hrooms, Function.update_of_ne (Nat.ne_of_lt hr)]
  | identify session userId =>
    show (endState _ s).rooms r = s.rooms r
    rw [Op.run, endState_ignore]
    exact congrFun (characterOf_within allowsCharacters_rooms session userId s) r
  | finish session r' => exact congrFun (finishCreation_rooms session r' s) r
  | send session msg => exact congrFun (inWorld_rooms _ s) r
  | login session cmd => exact congrFun (login_rooms session cmd s) r
  | invite session cmd => exact congrFun (invite_rooms session cmd s) r
  | enter c r' =>
    by_cases hsame : r' = r
    · subst hsame
      rw [Op.onRoom, if_pos ⟨rfl, hr⟩, endState_enter hr]
      exact does_call (endState_run_enter c _)
    · rw [Op.onRoom, if_neg fun h => hsame h.1]
      show (endState _ s).rooms r = s.rooms r
      by_cases hr' : r' < s.roomCount
      · rw [endState_enter hr', rooms_inRoom_of_ne (Ne.symm hsame)]
      · rw [Op.run, endState_get_bind, if_neg hr', endState_pure]
  | other session cmd =>
    rw [Op.onRoom, Op.run]
    cases hroute : WebChatDispatcher.route s session with
    | none =>
      obtain ⟨g, -, hrun⟩ := WebChatDispatcher.handleOtherCmd_of_route_none cmd hroute
      show (endState _ s).rooms r = s.rooms r
      rw [endState, hrun]
      exact congrFun (inWorld_rooms (Session.send session (.message g)) s) r
    | some x =>
      obtain ⟨c, r'⟩ := x
      rw [WebChatDispatcher.handleOtherCmd_of_route hroute]
      dsimp only
      split
      · next hsame =>
        subst hsame
        exact does_call (endState_run_addCharacterCmd c cmd _)
      · next hsame => exact rooms_inRoom_of_ne (Ne.symm hsame)
  | background b =>
    cases b with
    | update r' =>
      rw [Op.onRoom, Op.run]
      split
      · next h =>
        obtain ⟨rfl, -⟩ := h
        rw [endState_update hr]
        exact does_call rfl
      · next h =>
        show (endState _ s).rooms r = s.rooms r
        by_cases hr' : r' < s.roomCount
        · rw [endState_update hr', rooms_inRoom_of_ne fun hsame => h ⟨hsame.symm, hr⟩]
        · rw [endState_update_of_not_lt hr']
    | removeOffLine => exact rfl
    | removeDeposedStateGroup => exact rfl
    | removeWorker => exact rfl
    | removeDeposedGroup worker => exact rfl
    | close session => exact rfl

/-- A room that there is not yet is called by nobody. -/
theorem onRoom_of_not_lt (hwf : s.WellFormed p) (hr : ¬ r < s.roomCount) (op : Op) :
    op.onRoom r s = none := by
  cases op with
  | enter c r' => exact if_neg fun h => hr h.2
  | other session cmd =>
    rw [Op.onRoom]
    cases hroute : WebChatDispatcher.route s session with
    | none => rfl
    | some x =>
      obtain ⟨c', -, hroom⟩ := Option.bind_eq_some_iff.1 hroute
      obtain ⟨r', hfind, rfl⟩ := Option.map_eq_some_iff.1 hroom
      have hr' : r' < s.roomCount := (hwf.registered _ r' hfind).1
      refine if_neg ?_
      rintro rfl
      exact hr hr'
  | background b =>
    cases b with
    | update r' => exact if_neg fun h => hr h.2
    | _ => rfl
  | _ => rfl

/-! ## New rooms -/

/-- Commands for a room build no room. -/
theorem allowsCommands_roomCount : Frame.AllowsCommands (.keeping Server.roomCount) where
  sending _ := ⟨fun _ _ _ => rfl, fun _ => rfl⟩
  queueing _ _ _ _ := roomCount_inRoom

/-- Characters that are found or created build no room. -/
theorem allowsCharacters_roomCount : Frame.AllowsCharacters (.keeping Server.roomCount) where
  finding session userId s := by
    unfold endState ChatterFactory.findOrCreate
    cases s.characterMap.get userId with
    | some c => rfl
    | none => rfl
  attributing _ _ := .zoom_keeping fun _ _ => rfl
  displacing _ _ := .zoom_keeping fun _ _ => rfl

/-- A step that makes no room makes no room. -/
theorem roomCount_step {op : Op} (hs : Step p s op s')
    (hop : ∀ session cmd, op ≠ .create session cmd) :
    s'.roomCount = s.roomCount := by
  cases hs
  have hF := allowsCommands_roomCount
  have hC := allowsCharacters_roomCount
  cases op with
  | create session cmd => exact absurd rfl (hop session cmd)
  | identify session userId =>
    rw [Op.run, endState_ignore]
    exact characterOf_within hC session userId s
  | enter c r' =>
    by_cases hr : r' < s.roomCount
    · rw [endState_enter hr]
      exact roomCount_inRoom
    · rw [Op.run, endState_get_bind, if_neg hr, endState_pure]
  | finish session r' =>
    have hadd : Within (.keeping Server.roomCount) (addStateGroup p r') := .modify fun _ => rfl
    exact hadd.bind (fun _ => replyCreated_within hF session r') s
  | send session msg => exact hF.send session msg s
  | login session cmd => exact login_within hC hF session cmd s
  | invite session cmd => exact invite_within hF session cmd s
  | other session cmd => exact handleOtherCmd_within hF session cmd s
  | background b =>
    cases b with
    | update r' =>
      by_cases hr : r' < s.roomCount
      · rw [Op.run, endState_update hr]
        exact roomCount_inRoom
      · rw [Op.run, endState_update_of_not_lt hr]
    | _ => rfl

/-- A room that has just been built has changed nothing among the sessions and characters. -/
theorem create_world {id : BitVec 64} {creator : Character} {config : RoomStateConfig}
    {roomCapacity : Int} {w : World} {r₀ : Room}
    (h : RoomStateGroup.create p id creator config roomCapacity w = some r₀) : r₀.world = w := by
  obtain ⟨g, -, h⟩ := Option.bind_eq_some_iff.1 h
  obtain ⟨g', -, h⟩ := Option.bind_eq_some_iff.1 h
  cases h
  rfl

/-- A step after which there is another room has made it. -/
theorem creates_step {op : Op} (hs : Step p s op s') (hr : ¬ r < s.roomCount)
    (hr' : r < s'.roomCount) :
    ∃ creator r₀, Creates p creator r r₀ ⟨s, op, s'⟩ := by
  have hgrew : s'.roomCount ≠ s.roomCount := fun h => hr (h ▸ hr')
  cases op with
  | create session cmd =>
    cases hs
    rw [Op.run, endState_ignore] at hr' hgrew ⊢
    rcases insertRoom_grows (p := p) (s := s) session cmd with
      ⟨-, hcount⟩ | ⟨m, creator, hparse, hattr, ⟨-, hcount⟩ | ⟨r₀, hc, hrooms, hcount, hworld⟩⟩
    · exact absurd hcount hgrew
    · exact absurd hcount hgrew
    · have hnew : r = s.roomCount := Nat.eq_of_lt_succ_of_not_lt (hcount ▸ hr') hr
      refine ⟨creator, r₀, session, cmd, m, rfl, hparse, hattr, hc, hr, hr', ?_⟩
      show RoomObject.toRoom _ _ = r₀
      rw [hrooms, hworld, hnew, Function.update_self, ← create_world hc, RoomObject.toRoom_ofRoom]
  | _ => exact absurd (roomCount_step hs fun _ _ h => by cases h) hgrew

end

/-! ## Runs -/

section
variable {p : Platform} {remoteAddress : SessionRef → Option String} {sendFails : Nat → Bool}
variable {roomCapacity : Int} {m : WorkerManager RoomRef} {ts : List (Transition Server Op)}
variable {s s' : Server}

/-- What a step calls on a room is a call. -/
theorem isCall_of_onRoom {r : RoomRef} {op : Op} {op' : RoomStateGroup.Op}
    (h : op.onRoom r s = some op') : op'.isCall = true := by
  unfold Op.onRoom at h
  split at h
  · split at h
    · cases h; rfl
    · cases h
  · split at h
    · split at h
      · cases h; rfl
      · cases h
    · cases h
  · split at h
    · cases h; rfl
    · cases h
  all_goals cases h

/-- What happens in a room in one step is a run of it. -/
theorem Does.run {r : RoomRef} {op? : Option RoomStateGroup.Op} (h : Does p r s s' op?)
    (hcall : ∀ op, op? = some op → op.isCall = true) :
    ∃ ws, Run (RoomStateGroup.Step p) ((Server.room r).get s) ws ((Server.room r).get s') ∧
      RoomStateGroup.calls ws = op?.toList := by
  cases op? with
  | none =>
    have hroom : (Server.room r).get s' = ((Server.room r).get s).setWorld s'.world :=
      congrArg (·.toRoom s'.world) h
    rw [hroom]
    exact ⟨_, .single (.of p _ (.environment s'.world)), rfl⟩
  | some op => exact ⟨_, .single h, List.filter_cons_of_pos (hcall op rfl)⟩

/-- A room that there is not yet has been called by nobody. -/
theorem onRoom_of_run
    (hr : Run (Step p) (initial (.initial remoteAddress sendFails) roomCapacity m) ts s)
    {r : RoomRef} (hnot : ¬ r < s.roomCount) : onRoom r ts = [] := by
  refine List.filterMap_eq_nil_iff.2 fun t ht => ?_
  obtain ⟨us, vs, rfl⟩ := List.append_of_mem ht
  obtain ⟨hbefore, hs, hafter⟩ := hr.split
  have hle : t.before.roomCount ≤ s.roomCount := roomCount_le (.cons hs hafter)
  exact onRoom_of_not_lt (run_wellFormed hbefore) (fun h => hnot (h.trans_le hle)) t.label

/-- The calls of a room in two runs. -/
theorem onRoom_append (r : RoomRef) (us vs : List (Transition Server Op)) :
    onRoom r (us ++ vs) = onRoom r us ++ onRoom r vs :=
  List.filterMap_append

/-- The call of a room in one transition, if there is one. -/
theorem onRoom_singleton (r : RoomRef) (t : Transition Server Op) :
    onRoom r [t] = (t.label.onRoom r t.before).toList := by
  rw [onRoom, List.filterMap_cons]
  cases t.label.onRoom r t.before with
  | none => rfl
  | some op => rfl

/-- A room that there is runs alone from then on. -/
theorem run_onRoom (hr : Run (Step p) s ts s') {r : RoomRef} (hlt : r < s.roomCount) :
    ∃ ws, Run (RoomStateGroup.Step p) ((Server.room r).get s) ws ((Server.room r).get s') ∧
      RoomStateGroup.calls ws = onRoom r ts := by
  induction hr with
  | nil => exact ⟨[], .nil, rfl⟩
  | @snoc ts s₁ s₂ op hrun hs ih =>
    obtain ⟨ws, hws, hcalls⟩ := ih
    obtain ⟨ws', hws', hcalls'⟩ :=
      (does_step hs (hlt.trans_le (roomCount_le hrun))).run fun _ => isCall_of_onRoom
    refine ⟨ws ++ ws', hws.append hws', ?_⟩
    rw [RoomStateGroup.calls_append, hcalls, hcalls', onRoom_append, onRoom_singleton]

/-- Every room has been made in the run. -/
theorem exists_creation
    (hr : Run (Step p) (initial (.initial remoteAddress sendFails) roomCapacity m) ts s)
    {r : RoomRef} (hlt : r < s.roomCount) :
    ∃ us t vs creator r₀, ts = us ++ t :: vs ∧ Creates p creator r r₀ t := by
  induction hr with
  | nil => exact absurd hlt (Nat.not_lt_zero r)
  | @snoc ts s₁ s₂ op hrun hs ih =>
    by_cases hold : r < s₁.roomCount
    · obtain ⟨us, t, vs, creator, r₀, rfl, hcreates⟩ := ih hold
      exact ⟨us, t, vs ++ [⟨s₁, op, s₂⟩], creator, r₀, by simp, hcreates⟩
    · obtain ⟨creator, r₀, hcreates⟩ := creates_step hs hold hlt
      exact ⟨ts, _, [], creator, r₀, rfl, hcreates⟩

/-- The transition that makes a room is the only one that does. -/
theorem not_creates_of_creates {us vs : List (Transition Server Op)} {t : Transition Server Op}
    (hr : Run (Step p) s (us ++ t :: vs) s') {creator : Character} {r : RoomRef} {r₀ : Room}
    (h : Creates p creator r r₀ t) :
    ∀ u ∈ us ++ vs, ∀ creator' r₀', ¬ Creates p creator' r r₀' u := by
  obtain ⟨hbefore, -, hafter⟩ := hr.split
  obtain ⟨hnot, hmade, -⟩ := h.built
  intro u hu creator' r₀' h'
  obtain ⟨hnot', hmade', -⟩ := h'.built
  rcases List.mem_append.1 hu with hu | hu
  · obtain ⟨us₁, us₂, rfl⟩ := List.append_of_mem hu
    exact hnot (hmade'.trans_le (roomCount_le hbefore.split.2.2))
  · obtain ⟨vs₁, vs₂, rfl⟩ := List.append_of_mem hu
    exact hnot' (hmade.trans_le (roomCount_le hafter.split.1))

/-- The room was made in the run, by one transition, and has been running alone since: the calls on
it were those of the run, in their order, and the rest of the server was its environment. -/
def RunsAlone (p : Platform) (r : RoomRef) (ts : List (Transition Server Op)) (s : Server) : Prop :=
  ∃ us t vs creator r₀ ws, ts = us ++ t :: vs ∧ Creates p creator r r₀ t ∧
    (∀ u ∈ us ++ vs, ∀ creator' r₀', ¬ Creates p creator' r r₀' u) ∧
    Run (RoomStateGroup.Step p) r₀ ws ((Server.room r).get s) ∧
    RoomStateGroup.calls ws = onRoom r ts

/-- In every run of the server, every room runs alone from how it was built for its creator. -/
theorem run_room
    (hr : Run (Step p) (initial (.initial remoteAddress sendFails) roomCapacity m) ts s)
    {r : RoomRef} (hlt : r < s.roomCount) : RunsAlone p r ts s := by
  obtain ⟨us, t, vs, creator, r₀, rfl, hcreates⟩ := exists_creation hr hlt
  obtain ⟨hbefore, -, hafter⟩ := hr.split
  obtain ⟨hnot, hmade, hroom⟩ := hcreates.built
  obtain ⟨ws, hws, hcalls⟩ := run_onRoom hafter hmade
  refine ⟨us, t, vs, creator, r₀, ws, rfl, hcreates, not_creates_of_creates hr hcreates,
    hroom ▸ hws, ?_⟩
  rw [List.append_cons, onRoom_append, onRoom_append, onRoom_singleton, onRoom_of_run hbefore hnot,
    onRoom_of_not_lt (run_wellFormed hbefore) hnot, hcalls]
  rfl

end

/-- Alice's room has run alone: she has entered it. -/
theorem run_room_alice : ∃ s, Run (Step .standard) start (transitions .standard start entersOwn) s ∧
    onRoom 0 (transitions .standard start entersOwn) = [.enter ⟨0, "alice", none⟩] ∧
    RunsAlone .standard 0 (transitions .standard start entersOwn) s := by
  have hr := run_transitions .standard entersOwn start
  exact ⟨_, hr, by rfl, run_room hr (by decide +kernel)⟩

end Routing

end WebRtcNetty
