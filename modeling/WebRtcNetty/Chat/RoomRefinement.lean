import WebRtcNetty.Chat.RoomSpec

/-!
# Rooms refine their specification

Every step of a room is a step of its specification (`refines`), so that what holds over the runs of
`RoomSpec` holds over the runs of a room. `update_handles` says what an update does to the data and
which phase it ends in. No exception changes what it does to the data, since each handler writes the
data before it sends anything; the phase depends on whether the stages of the update return.
-/

namespace WebRtcNetty

open Java Proto2 Command Runs

namespace Phase

variable {p : Platform}

/-- The state object of a phase. -/
def state (p : Platform) : Phase → IState RoomMem Character Cmd
  | waiting => waitingState p
  | chatting => chattingState p
  | finish => finishState p
  | error => defaultErrorState

/-- The code of a phase's state. -/
@[simp] theorem getCode_state (ph : Phase) : (ph.state p).getCode = ph.code := by
  cases ph <;> rfl

/-- Whether a state still has to be initialized. -/
theorem hasInit_state (ph : Phase) : (ph.state p).hasInit = StateAdapter.hasInit ph.code := by
  cases ph <;> rfl

/-- The states are initialized alike. -/
theorem init_state (ph : Phase) : (ph.state p).init = StateAdapter.init ph.code := by
  cases ph <;> rfl

/-- They answer errors alike. -/
theorem handleCmdOnError_state (ph : Phase) :
    (ph.state p).handleCmdOnError = StateAdapter.handleCmdOnError := by
  cases ph <;> rfl

/-- So they do when an update of theirs throws. -/
theorem updateOnError_state (ph : Phase) :
    (ph.state p).updateOnError = StateAdapter.updateOnError := by
  cases ph <;> rfl

/-- `finish` returns the code of the next phase, if there is one. -/
theorem finish_state (ph : Phase) : (ph.state p).finish = pure (ph.next.map code) := by
  cases ph <;> rfl

/-- And errors of it are treated alike. -/
theorem finishOnError_state (ph : Phase) :
    (ph.state p).finishOnError = StateAdapter.finishOnError := by
  cases ph <;> rfl

end Phase

/-- The states that a room is built with, by their codes. -/
def chatStates (p : Platform) : HashMap String (IState RoomMem Character Cmd) :=
  HashMap.put (HashMap.put (HashMap.put (HashMap.put ∅ "waiting" (waitingState p))
    "chatting" (chattingState p)) "finish" (finishState p)) "ERROR" defaultErrorState

/-- Every phase has its state registered. -/
theorem get_chatStates (p : Platform) (ph : Phase) :
    (chatStates p).get ph.code = some (ph.state p) := by
  cases ph <;> simp [chatStates, HashMap.get_put_eq, Phase.code, Phase.state]

namespace Room

/-- The room has the states it was built with and is in the given phase. -/
structure InPhase (p : Platform) (r : Room) (ph : Phase) : Prop where
  stateMap : r.group.stateMap = chatStates p
  currentState : r.group.currentState = some (ph.state p)

/-- The room in a phase as its users see it. -/
def toSpec (r : Room) (ph : Phase) : RoomSpec where
  phase := ph
  data := r.roomData
  capacity := r.group.characterCapacity
  handled := r.handled
  pending := r.pending

/-- The code of the current state is that of the phase. -/
theorem InPhase.currentCode {p : Platform} {r : Room} {ph : Phase} (h : r.InPhase p ph) :
    r.currentCode = some ph.code := by
  rw [Room.currentCode, h.currentState, Option.map_some, Phase.getCode_state]

/-- The phase is a matter of the group alone. -/
theorem InPhase.of_group {p : Platform} {r r' : Room} {ph : Phase} (h : r.InPhase p ph)
    (hg : r'.group = r.group) : r'.InPhase p ph :=
  ⟨by rw [hg]; exact h.stateMap, by rw [hg]; exact h.currentState⟩

/-- A room is in one phase. -/
theorem InPhase.unique {p : Platform} {r : Room} {a b : Phase} (ha : r.InPhase p a)
    (hb : r.InPhase p b) : a = b :=
  Phase.code_injective (Option.some.inj (ha.currentCode.symm.trans hb.currentCode))

end Room

/-! ## The data -/

section
variable {p : Platform}

/-- What is sent does not change the data. -/
theorem inWorld_roomData {α : Type} (m : Exec World α) :
    Within (.keeping RoomMem.roomData) (RoomMem.inWorld m) :=
  .zoom_keeping fun _ _ => rfl

/-- The flag of a state is not one of the room's data. -/
theorem setFinished_roomData : Within (.keeping RoomMem.roomData) RoomMem.setFinished :=
  .modify fun _ => rfl

/-- After a write to the data, the rest of a handler keeps them. -/
theorem roomData_setRoomData {α : Type} {d : RoomData} {f : Unit → Exec RoomMem α}
    (h : ∀ u, Within (.keeping RoomMem.roomData) (f u)) (m : RoomMem) :
    (endState (RoomMem.setRoomData d >>= f) m).roomData = d :=
  keeping_bind h m

/-- A broadcast leaves the room's data as they are. -/
theorem broadCastData_roomData (exclude : Option Character) (msg : PackageGroup) :
    Within (.keeping RoomMem.roomData) (RoomStateAdapter.broadCastData p exclude msg) :=
  .bind .read fun _ => .forEach (fun _ => .ite (.pure ()) (inWorld_roomData _)) _

/-- And so does one of a result. -/
theorem broadCastResult_roomData (exclude : Option Character)
    (result : Except Throwable PackageGroup) :
    Within (.keeping RoomMem.roomData) (RoomStateAdapter.broadCastResult p exclude result) :=
  .bind (.orThrow _) fun _ => broadCastData_roomData _ _

/-- A room is closed by its master alone. -/
theorem roomData_closeRoomCmd (c : Character) (k : Cmd) (m : RoomMem) :
    (endState (RoomStateAdapter.closeRoomCmd p c k) m).roomData =
      if c.getId = m.roomData.master.getId then m.roomData.close else m.roomData := by
  rw [RoomStateAdapter.closeRoomCmd, endState_get_bind]
  by_cases hc : c.getId = m.roomData.master.getId
  · rw [if_neg (not_not.2 hc), if_pos hc]
    exact roomData_setRoomData
      (fun _ => .bind (inWorld_roomData _) fun _ => broadCastResult_roomData _ _) m
  · rw [if_pos hc, if_neg hc]
    exact inWorld_roomData _ m

/-- Kicking a member out removes it. -/
theorem roomData_kickOut (id : String) (m : RoomMem) :
    (endState (RoomStateAdapter.kickOut id) m).roomData = (m.roomData.removeCharacter id).2 := by
  refine roomData_setRoomData (fun _ => .ite ?_ (.pure none)) m
  cases (m.roomData.removeCharacter id).2.getCharacter id with
  | none => exact .pure none
  | some kickOff => exact .bind (inWorld_roomData _) fun _ => .pure _

/-- A member is removed by a command of the master that names it. -/
theorem roomData_clickOutCharacter (c : Character) (k : Cmd) (m : RoomMem) :
    (endState (RoomStateAdapter.clickOutCharacter p c k) m).roomData =
      match m.roomData.kicks p c k with
      | some id => (m.roomData.removeCharacter id).2
      | none => m.roomData := by
  rw [RoomStateAdapter.clickOutCharacter, endState_get_bind, RoomData.kicks]
  by_cases hc : c.getId = m.roomData.master.getId
  · rw [if_neg (not_not.2 hc), if_pos hc]
    cases UserCmd.kickOffCharacter.parseFrom k.getContent with
    | none => exact inWorld_roomData _ m
    | some kick =>
      dsimp only
      by_cases hid : m.roomData.master.getId = UserCmd.KickOffCharacter.getCharacterId p kick
      · rw [if_pos hid, if_pos hid]
        exact inWorld_roomData _ m
      · rw [if_neg hid, if_neg hid]
        exact (keeping_bind (fun _ => broadCastResult_roomData _ _) m).trans (roomData_kickOut _ m)
  · rw [if_pos hc, if_neg hc]
    exact inWorld_roomData _ m

/-- A logout result lacks the required id of the user. -/
theorem logoutResult_error (code : BitVec 32) (msg : Option String) :
    CmdUtil.logoutResult code msg = .error ⟨"UninitializedMessageException"⟩ := rfl

/-- A logout throws at its first reply. -/
theorem logout_error (c : Character) (k : Cmd) (m : RoomMem) :
    RoomStateAdapter.logout p c k m = .error ⟨"UninitializedMessageException"⟩ m := by
  refine run_bind_error ?_
  rw [logoutResult_error]
  rfl

/-- What a command does to the room's data. -/
theorem roomData_handleCmd (c : Character) (k : Cmd) (m : RoomMem) :
    (endState (RoomStateAdapter.handleCmd p c k) m).roomData = m.roomData.afterCmd p c k := by
  unfold RoomStateAdapter.handleCmd RoomData.afterCmd
  split
  · exact roomData_closeRoomCmd c k m
  split
  · exact roomData_clickOutCharacter c k m
  split
  · rw [endState_error (logout_error c k m)]
  · exact inWorld_roomData _ m

/-- What each phase's state does to the data when it is handed a command. -/
theorem roomData_handleCmd_state (ph : Phase) (c : Character) (k : Cmd) (m : RoomMem) :
    (endState ((ph.state p).handleCmd c k) m).roomData = m.roomData.after p ph c k := by
  cases ph with
  | waiting =>
    show (endState (WaitingState.handleCmd p c k) m).roomData = _
    unfold WaitingState.handleCmd
    split
    · next hk =>
      have hafter : m.roomData.after p .waiting c k = m.roomData := by
        simp only [RoomData.after, RoomData.afterCmd, hk]
        rfl
      rw [hafter]
      exact Within.bind .read (fun _ => .ite (inWorld_roomData _) setFinished_roomData) m
    · exact roomData_handleCmd c k m
  | chatting => exact roomData_handleCmd c k m
  | finish => exact roomData_handleCmd c k m
  | error => exact inWorld_roomData _ m

/-! ## An update -/

/-- Init on first use returns, and writes to the state's flag only. -/
theorem initStage_state (ph : Phase) (m : RoomMem) : ∃ f,
    AbstractStateGroup.initStage (ph.state p) m = .ok () { m with initialized := f } := by
  have hinit : AbstractStateGroup.initStage (ph.state p) m =
      if m.initialized ph.code then .ok () m else StateAdapter.init ph.code m := by
    unfold AbstractStateGroup.initStage
    rw [Phase.hasInit_state, Phase.init_state]
    show (if m.initialized ph.code = true then pure () else catching _ _ : Exec RoomMem Unit) m = _
    split
    · rfl
    · exact catching_ok (run_modify _ m)
  rw [hinit]
  split
  · exact ⟨m.initialized, rfl⟩
  · exact ⟨_, rfl⟩

/-- The initialization of a state does not throw. -/
theorem initStage_returns (ph : Phase) (m : RoomMem) :
    Returns (AbstractStateGroup.initStage (ph.state p)) m := by
  obtain ⟨f, hf⟩ := initStage_state (p := p) ph m
  exact ⟨(), _, hf⟩

/-- The data after the stage that handles the command. -/
theorem roomData_handleStage (ph : Phase) (pair : CharacterCmdPair Character Cmd) (m : RoomMem) :
    (endState (AbstractStateGroup.handleStage (ph.state p) pair) m).roomData =
      m.roomData.after p ph pair.character pair.cmd := by
  have herror : ∀ e, Within (.keeping RoomMem.roomData)
      ((ph.state p).handleCmdOnError pair.character pair.cmd e) := fun e => by
    rw [Phase.handleCmdOnError_state]
    exact inWorld_roomData _
  exact (keeping_catching herror m).trans (roomData_handleCmd_state ph _ _ m)

/-- Init on first use writes to the state's flag only. -/
theorem initStage_within {F : Frame RoomMem} (hF : ∀ m f, F.rel m { m with initialized := f })
    (ph : Phase) : Within F (AbstractStateGroup.initStage (ph.state p)) := fun m => by
  obtain ⟨f, hf⟩ := initStage_state (p := p) ph m
  rw [endState_ok hf]
  exact hF m f

/-- A state's own update writes to the status only. -/
theorem updateStage_within {F : Frame RoomMem} (hF : ∀ m, F.rel m { m with isFinished := true })
    (ph : Phase) : Within F (AbstractStateGroup.updateStage (ph.state p)) := by
  refine .catching ?_ fun e => by rw [Phase.updateOnError_state]; exact .pure ()
  have hclosed : Within F RoomStateAdapter.finishWhenClosed :=
    .bind .read fun _ => .ite (.modify hF) (.pure ())
  cases ph with
  | waiting => exact hclosed
  | chatting => exact hclosed
  | finish => exact .pure ()
  | error => exact .pure ()

/-- Processing a pair does what handling its command does, but for the state's flag and the
status. -/
theorem process_state {β : Type} {f : RoomMem → β}
    (hinit : ∀ m g, f { m with initialized := g } = f m)
    (hfinished : ∀ m, f { m with isFinished := true } = f m) (ph : Phase)
    (pair : CharacterCmdPair Character Cmd) (r : Room) : ∃ m, f m = f r.mem ∧
      f (endState (AbstractStateGroup.process (ph.state p) pair) r).mem =
        f (endState (AbstractStateGroup.handleStage (ph.state p) pair) m) :=
  AbstractStateGroup.process_handle (initStage_returns ph r.mem)
    (initStage_within hinit ph) (updateStage_within hfinished ph)
    (by rw [Phase.finish_state]; exact .pure _)
    fun e => by rw [Phase.finishOnError_state]; exact .pure _

/-- An update sends what the stage that handles the oldest pair sends. -/
theorem world_update {r : Room} {ph : Phase} (h : r.InPhase p ph)
    {pair : CharacterCmdPair Character Cmd} {rest : List (CharacterCmdPair Character Cmd)}
    (hq : r.pending = pair :: rest) : ∃ m, m.roomData = r.roomData ∧ m.world = r.world ∧
      Room.world (endState AbstractStateGroup.update r) =
        (endState (AbstractStateGroup.handleStage (ph.state p) pair) m).world := by
  obtain ⟨hp, -⟩ := LinkedBlockingQueue.poll_of_cons hq
  obtain ⟨m, hm, hprocess⟩ := process_state (p := p) (f := fun m => (m.roomData, m.world))
    (fun _ _ => rfl) (fun _ => rfl) ph pair { r with group.cmdQueue := r.group.cmdQueue.poll.2 }
  refine ⟨m, congrArg Prod.fst hm, congrArg Prod.snd hm, ?_⟩
  rw [AbstractStateGroup.endState_update_busy h.currentState hp]
  exact congrArg Prod.snd hprocess

/-- Before the last phase, a room's states handle all commands alike but START_CHATTING. -/
theorem handleCmd_state {ph : Phase} (hne : ph ≠ .error) {k : Cmd}
    (hk : k.getCmdType ≠ CmdType.startChatting) (c : Character) :
    (ph.state p).handleCmd c k = RoomStateAdapter.handleCmd p c k := by
  cases ph with
  | waiting => exact if_neg hk
  | chatting => rfl
  | finish => rfl
  | error => exact absurd rfl hne

/-- Processing a pair changes the data as its command does, whatever is thrown on the way. -/
theorem roomData_process (ph : Phase) (pair : CharacterCmdPair Character Cmd) (r : Room) :
    Room.roomData (endState (AbstractStateGroup.process (ph.state p) pair) r) =
      r.roomData.after p ph pair.character pair.cmd := by
  obtain ⟨m, hm, hp⟩ := process_state (p := p) (f := RoomMem.roomData) (fun _ _ => rfl)
    (fun _ => rfl) ph pair r
  rw [Room.roomData, hp, roomData_handleStage, hm]
  rfl

/-- When the stages return, the room moves on to the next phase. -/
theorem inPhase_process_ok {r : Room} {ph : Phase} (h : r.InPhase p ph)
    {pair : CharacterCmdPair Character Cmd}
    (hret : Returns (AbstractStateGroup.stages (ph.state p) pair) r.mem) :
    Room.InPhase p (endState (AbstractStateGroup.process (ph.state p) pair) r)
      (ph.next.getD ph) := by
  obtain ⟨_, m, hm⟩ := hret
  have hfinish : (ph.state p).finish m = .ok (ph.next.map Phase.code) m := by
    rw [Phase.finish_state, run_pure]
  rw [endState, AbstractStateGroup.process_of_stages_ok hm,
    AbstractStateGroup.finishStage_ok hfinish]
  cases hn : ph.next with
  | none => exact ⟨h.stateMap, h.currentState⟩
  | some next =>
    have hget : r.group.stateMap.get next.code = some (next.state p) := by
      rw [h.stateMap, get_chatStates]
    simp only [AbstractStateGroup.setNextState, run_modify, Option.map_some, Option.bind_some, hget]
    exact ⟨h.stateMap, rfl⟩

/-- When a stage throws out of the update, the room stays in its phase. -/
theorem inPhase_process_error {r : Room} {ph : Phase} (h : r.InPhase p ph)
    {pair : CharacterCmdPair Character Cmd}
    (hret : ¬ Returns (AbstractStateGroup.stages (ph.state p) pair) r.mem) :
    Room.InPhase p (endState (AbstractStateGroup.process (ph.state p) pair) r) ph := by
  cases hst : AbstractStateGroup.stages (ph.state p) pair r.mem with
  | ok u m => exact absurd ⟨u, m, hst⟩ hret
  | error e m =>
    obtain ⟨handled, hp⟩ := AbstractStateGroup.process_of_stages_error hst
    rw [endState_error hp]
    exact ⟨h.stateMap, h.currentState⟩

/-- What an update of a room in phase `ph` does with the oldest pair. -/
structure Handles (p : Platform) (r : Room) (ph : Phase) (pair : CharacterCmdPair Character Cmd)
    (r' : Room) : Prop where
  config : r'.config = r.config
  pending : r.pending = pair :: r'.pending
  handled : r'.handled = r.handled ++ [(ph.code, pair)]
  roomData : r'.roomData = r.roomData.after p ph pair.character pair.cmd
  moves : Returns (AbstractStateGroup.stages (ph.state p) pair) r.mem →
    r'.InPhase p (ph.next.getD ph)
  stays : ¬ Returns (AbstractStateGroup.stages (ph.state p) pair) r.mem → r'.InPhase p ph

/-- An update of a room with a pending pair handles exactly the oldest one. -/
theorem update_handles {r : Room} {ph : Phase} (h : r.InPhase p ph)
    {pair : CharacterCmdPair Character Cmd} {rest : List (CharacterCmdPair Character Cmd)}
    (hq : r.pending = pair :: rest) :
    Handles p r ph pair (endState AbstractStateGroup.update r) := by
  obtain ⟨hp, hrest⟩ := LinkedBlockingQueue.poll_of_cons hq
  obtain ⟨hqueue, hhandled⟩ :=
    AbstractStateGroup.update_ledger h.currentState hp (initStage_returns ph r.mem)
  have hu := AbstractStateGroup.endState_update_busy h.currentState hp
  have hphase : Room.InPhase p { r with group.cmdQueue := r.group.cmdQueue.poll.2 } ph :=
    ⟨h.stateMap, h.currentState⟩
  exact {
    config := AbstractStateGroup.update_config r
    pending := hq.trans (by rw [Room.pending, hqueue, hrest])
    handled := by rw [hhandled, Phase.getCode_state]
    roomData := by rw [hu, roomData_process]; rfl
    moves := fun hret => by rw [hu]; exact inPhase_process_ok hphase hret
    stays := fun hret => by rw [hu]; exact inPhase_process_error hphase hret }

/-- An update of a room with an empty queue does nothing. -/
theorem update_of_pending_nil {r : Room} (hq : r.pending = []) :
    endState AbstractStateGroup.update r = r := by
  rw [endState, AbstractStateGroup.update_idle (.inr hq)]

/-! ## Entering and queueing -/

/-- What an entry sends and writes among the characters concerns no other part of the room. -/
theorem inWorld_keeping {α β : Type} {f : Room → β} (hf : ∀ r w, f (r.setWorld w) = f r)
    (m : Exec World α) : Within (.keeping f) (RoomStateGroup.inWorld m) :=
  fun r => by
    rw [RoomStateGroup.inWorld, endState_zoom, RoomMem.inWorld, endState_zoom]
    exact hf r _

/-- An entry keeps whatever `AbstractStateGroup.enter` keeps and depends on the room alone. -/
theorem enter_keeping {β : Type} {f : Room → β} (hf : ∀ r w, f (r.setWorld w) = f r)
    (c : Character) (r : Room) : f (endState (RoomStateGroup.enter p c) r) =
      f (endState (RoomStateGroup.superEnter c) r) :=
  keeping_bind (fun entered => by
    refine .ite ?_ (.pure _)
    exact .bind .read fun _ => .bind (inWorld_keeping hf _) fun _ =>
      .bind (inWorld_keeping hf _) fun _ => .pure _) r

/-- A room that is not full lets the character in. -/
theorem superEnter_ok {c : Character} {r : Room}
    (hfull : r.group.isFullCharacter r.roomData.characterSize = false) :
    RoomStateGroup.superEnter c r =
      .ok true { r with mem.roomData := r.roomData.addCharacter c } := by
  rw [RoomStateGroup.superEnter, run_bind_ok (run_get r), if_neg (by simp [hfull])]
  rfl

/-- A room that is full does not. -/
theorem superEnter_full {c : Character} {r : Room}
    (hfull : r.group.isFullCharacter r.roomData.characterSize = true) :
    RoomStateGroup.superEnter c r = .ok false r := by
  rw [RoomStateGroup.superEnter, run_bind_ok (run_get r), if_pos hfull]
  rfl

/-- An entry adds the character, unless the room is full. -/
theorem endState_superEnter (c : Character) (r : Room) :
    endState (RoomStateGroup.superEnter c) r =
      if r.group.isFullCharacter r.roomData.characterSize then r
      else { r with mem.roomData := r.roomData.addCharacter c } := by
  rw [RoomStateGroup.superEnter, endState_get_bind]
  split
  · rfl
  · rfl

/-- It does nothing else to the room's data. -/
theorem roomData_enter (c : Character) (r : Room) :
    Room.roomData (endState (RoomStateGroup.enter p c) r) =
      if r.group.isFullCharacter r.roomData.characterSize then r.roomData
      else r.roomData.addCharacter c := by
  rw [enter_keeping (f := Room.roomData) (fun _ _ => rfl), endState_superEnter]
  split
  · rfl
  · rfl

/-- An entry changes neither the group nor the history. -/
theorem enter_group (c : Character) (r : Room) :
    (endState (RoomStateGroup.enter p c) r).group = r.group ∧
      (endState (RoomStateGroup.enter p c) r).handled = r.handled := by
  rw [enter_keeping (f := GroupMem.group) (fun _ _ => rfl),
    enter_keeping (f := GroupMem.handled) (fun _ _ => rfl), endState_superEnter]
  split
  · exact ⟨rfl, rfl⟩
  · exact ⟨rfl, rfl⟩

/-- A command that is put in the queue is put at its end, and it is refused when 1000 are
pending. -/
theorem addCharacterCmd_eq (c : Character) (k : Cmd) (r : Room) :
    AbstractStateGroup.addCharacterCmd c k r = .ok (decide (r.pending.length < 1000))
      { r with group.cmdQueue := (r.group.cmdQueue.offer ⟨c, k⟩).2 } := by
  have h : (r.group.cmdQueue.offer ⟨c, k⟩).1 = decide (r.pending.length < 1000) := by
    simp only [LinkedBlockingQueue.offer, Room.pending]
    split
    · next h => exact (decide_eq_true h).symm
    · next h => exact (decide_eq_false h).symm
  rw [AbstractStateGroup.addCharacterCmd, h]

/-- A command comes to the end of the queue, unless that is full. -/
theorem pending_addCharacterCmd (c : Character) (k : Cmd) (r : Room) :
    Room.pending (endState (AbstractStateGroup.addCharacterCmd c k) r) =
      r.pending ++ if r.pending.length < 1000 then [⟨c, k⟩] else [] := by
  rw [endState_ok (addCharacterCmd_eq c k r)]
  show (r.group.cmdQueue.offer ⟨c, k⟩).2.items = _
  rw [Room.pending, LinkedBlockingQueue.offer]
  split
  · rfl
  · exact (List.append_nil _).symm

/-! ## The refinement -/

/-- An entry as a step. -/
theorem endState_run_enter (c : Character) (r : Room) :
    endState (RoomStateGroup.Op.run p (.enter c)) r = endState (RoomStateGroup.enter p c) r :=
  keeping_bind (fun _ => .pure ()) r (f := id)

/-- A command that is queued as a step. -/
theorem endState_run_addCharacterCmd (c : Character) (k : Cmd) (r : Room) :
    endState (RoomStateGroup.Op.run p (.addCharacterCmd c k)) r =
      endState (AbstractStateGroup.addCharacterCmd c k) r :=
  keeping_bind (fun _ => .pure ()) r (f := id)

/-- An entry is one of the abstract room. -/
theorem refines_enter {r : Room} {ph : Phase} (h : r.InPhase p ph) (c : Character) :
    Room.InPhase p (endState (RoomStateGroup.enter p c) r) ph ∧
      RoomSpec.Step p (r.toSpec ph) (.enter c)
        (Room.toSpec (endState (RoomStateGroup.enter p c) r) ph) := by
  obtain ⟨hgroup, hhandled⟩ := enter_group (p := p) c r
  have hspec : Room.toSpec (endState (RoomStateGroup.enter p c) r) ph =
      { r.toSpec ph with data := if (r.toSpec ph).isFull then (r.toSpec ph).data
        else (r.toSpec ph).data.addCharacter c } := by
    simp only [Room.toSpec, Room.pending, hgroup, hhandled, roomData_enter]
    rfl
  rw [hspec]
  exact ⟨⟨by rw [hgroup]; exact h.stateMap, by rw [hgroup]; exact h.currentState⟩, .enter _ c⟩

/-- A command that is queued is queued in the abstract room. -/
theorem refines_addCharacterCmd {r : Room} {ph : Phase} (h : r.InPhase p ph) (c : Character)
    (k : Cmd) : Room.InPhase p (endState (AbstractStateGroup.addCharacterCmd c k) r) ph ∧
      RoomSpec.Step p (r.toSpec ph) (.addCharacterCmd c k)
        (Room.toSpec (endState (AbstractStateGroup.addCharacterCmd c k) r) ph) := by
  have heq := endState_ok (addCharacterCmd_eq c k r)
  have hspec : Room.toSpec (endState (AbstractStateGroup.addCharacterCmd c k) r) ph =
      { r.toSpec ph with pending := (r.toSpec ph).pending ++
        if (r.toSpec ph).pending.length < 1000 then [⟨c, k⟩] else [] } := by
    simp only [Room.toSpec, pending_addCharacterCmd]
    rw [heq]
    rfl
  rw [hspec]
  exact ⟨⟨by rw [heq]; exact h.stateMap, by rw [heq]; exact h.currentState⟩,
    .addCharacterCmd _ c k⟩

/-- An update that handles a pair changes the abstract room as the specification says. -/
theorem Handles.toSpec {r r' : Room} {ph : Phase} {pair : CharacterCmdPair Character Cmd}
    (h : Handles p r ph pair r') (ph' : Phase) : r'.toSpec ph' = { r.toSpec ph with
      phase := ph'
      data := (r.toSpec ph).data.after p ph pair.character pair.cmd
      handled := (r.toSpec ph).handled ++ [(ph.code, pair)]
      pending := r'.pending } := by
  have hcapacity : r'.group.characterCapacity = r.group.characterCapacity :=
    congrArg (fun x => x.2.2) h.config
  simp only [Room.toSpec, h.roomData, h.handled, hcapacity]

/-- An update is one of the abstract room. -/
theorem refines_update {r : Room} {ph : Phase} (h : r.InPhase p ph) :
    ∃ ph', Room.InPhase p (endState AbstractStateGroup.update r) ph' ∧
      RoomSpec.Step p (r.toSpec ph) .update
        (Room.toSpec (endState AbstractStateGroup.update r) ph') := by
  cases hq : r.pending with
  | nil =>
    rw [update_of_pending_nil hq]
    exact ⟨ph, h, .idle hq⟩
  | cons pair rest =>
    have hh := update_handles h hq
    by_cases hret : Returns (AbstractStateGroup.stages (ph.state p) pair) r.mem
    · refine ⟨ph.next.getD ph, hh.moves hret, ?_⟩
      rw [hh.toSpec]
      refine .handle hh.pending ?_
      cases hn : ph.next with
      | none => exact .inl rfl
      | some next => exact .inr hn
    · refine ⟨ph, hh.stays hret, ?_⟩
      rw [hh.toSpec]
      exact .handle hh.pending (.inl rfl)

/-- A step of a room is a step of its specification. -/
theorem refines {r r' : Room} {ph : Phase} {op : RoomStateGroup.Op} (h : r.InPhase p ph)
    (hs : RoomStateGroup.Step p r op r') :
    ∃ ph', r'.InPhase p ph' ∧ RoomSpec.Step p (r.toSpec ph) op (r'.toSpec ph') := by
  cases hs
  cases op with
  | enter c => rw [endState_run_enter]; exact ⟨ph, refines_enter h c⟩
  | addCharacterCmd c k =>
    rw [endState_run_addCharacterCmd]; exact ⟨ph, refines_addCharacterCmd h c k⟩
  | update => exact refines_update h
  | environment w => exact ⟨ph, ⟨h.stateMap, h.currentState⟩, .environment _ w⟩

/-- The states a room is built with are those of the phases, the first one being current. -/
theorem addChatStates_eq {g : AbstractStateGroup RoomMem Character Cmd} (hg : g.stateMap = ∅) :
    RoomStateGroup.addChatStates p g = some { g with
      stateMap := chatStates p
      currentState := some (waitingState p) } := by
  have hmap : ((((g.addState (waitingState p)).addState (chattingState p)).addState
      (finishState p)).addState defaultErrorState).stateMap = chatStates p := by
    simp only [AbstractStateGroup.addState, hg]
    rfl
  have hget : HashMap.get (chatStates p) "waiting" = some (waitingState p) :=
    get_chatStates p .waiting
  rw [RoomStateGroup.addChatStates, AbstractStateGroup.setCurrentState]
  simp only [hmap, hget]
  rfl

/-- A room that has been created is in its first phase, with no member and no command. -/
theorem create_spec {id : BitVec 64} {creator : Character} {config : RoomStateConfig}
    {roomCapacity : Int} {w : World} {r : Room}
    (h : RoomStateGroup.create p id creator config roomCapacity w = some r) :
    r.InPhase p .waiting ∧ r.toSpec .waiting = {
      phase := .waiting
      data := .new creator config
      capacity := roomCapacity
      handled := []
      pending := [] } ∧ r.group.id = id := by
  unfold RoomStateGroup.create AbstractStateGroup.new at h
  split at h
  · next hcap =>
    simp only [Option.bind_eq_bind, Option.bind_some] at h
    rw [addChatStates_eq (g := ⟨id, ∅, roomCapacity, hcap, .empty, none⟩) rfl] at h
    cases h
    exact ⟨⟨rfl, rfl⟩, rfl, rfl⟩
  · cases h

/-- Creating a room fails for a capacity below 8 only. -/
theorem create_eq_none {id : BitVec 64} {creator : Character} {config : RoomStateConfig}
    {roomCapacity : Int} {w : World}
    (h : RoomStateGroup.create p id creator config roomCapacity w = none) : ¬ 8 ≤ roomCapacity := by
  intro hcap
  unfold RoomStateGroup.create AbstractStateGroup.new at h
  rw [dif_pos hcap] at h
  simp only [Option.bind_eq_bind, Option.bind_some] at h
  rw [addChatStates_eq (g := ⟨id, ∅, roomCapacity, hcap, .empty, none⟩) rfl] at h
  cases h

end

/-! ## Runs -/

namespace RoomStateGroup

variable {p : Platform} {id : BitVec 64} {creator : Character} {config : RoomStateConfig}
variable {roomCapacity : Int} {w : World} {r₀ r : Room} {ts : List (Transition Room Op)}

/-- A room that was created is in one of its phases all along. -/
theorem run_inPhase (hc : create p id creator config roomCapacity w = some r₀)
    (hr : Run (Step p) r₀ ts r) : ∃ ph, r.InPhase p ph :=
  hr.invariant (I := fun r => ∃ ph, r.InPhase p ph) ⟨_, (create_spec hc).1⟩
    fun _ _ _ ⟨_, h⟩ hs => by
      obtain ⟨ph', h', -⟩ := refines h hs
      exact ⟨ph', h'⟩

/-- Every transition of a room that was created is a step of the specification. -/
theorem run_refines (hc : create p id creator config roomCapacity w = some r₀)
    (hr : Run (Step p) r₀ ts r) : ∀ t ∈ ts, ∃ ph ph', t.before.InPhase p ph ∧
      t.after.InPhase p ph' ∧ t.after = endState (t.label.run p) t.before ∧
      RoomSpec.Step p (t.before.toSpec ph) t.label (t.after.toSpec ph') :=
  hr.forall_mem (I := fun r => ∃ ph, r.InPhase p ph) ⟨_, (create_spec hc).1⟩
    (fun _ _ _ ⟨_, h⟩ hs => by
      obtain ⟨ph', h', -⟩ := refines h hs
      exact ⟨ph', h'⟩)
    fun _ _ _ ⟨ph, h⟩ hs => by
      obtain ⟨ph', h', hspec⟩ := refines h hs
      exact ⟨ph, ph', h, h', hs, hspec⟩

end RoomStateGroup

end WebRtcNetty
