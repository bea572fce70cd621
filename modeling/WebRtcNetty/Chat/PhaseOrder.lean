import WebRtcNetty.Chat.RoomRefinement

/-!
# The order of the phases

A room goes through its phases in their order, one after another, and stays in the last one, where
nothing it handles changes its data (`phases_forward`). This holds whatever the methods of the
states throw: `FaultyStep` has the steps of a room in which any call of any method of a state may
throw, and leave the room's data as they were before the call or as the call would have left them.
-/

namespace WebRtcNetty

open Java Proto2 Command Runs

/-! ## States that may throw -/

/-- The computation does what the other one does, or throws. -/
def MayThrow {α : Type} (x' x : Exec RoomMem α) : Prop :=
  ∀ m, x' m = x m ∨ ∃ e m', x' m = .error e m' ∧
    (m'.roomData = m.roomData ∨ m'.roomData = (endState x m).roomData)

/-- The state does what the other one does, but that any call of a method may throw. -/
structure IState.MayThrow (state' state : IState RoomMem Character Cmd) : Prop where
  getCode : state'.getCode = state.getCode
  hasInit : WebRtcNetty.MayThrow state'.hasInit state.hasInit
  init : WebRtcNetty.MayThrow state'.init state.init
  initOnError : ∀ e, WebRtcNetty.MayThrow (state'.initOnError e) (state.initOnError e)
  handleCmd : ∀ c k, WebRtcNetty.MayThrow (state'.handleCmd c k) (state.handleCmd c k)
  handleCmdOnError : ∀ c k e,
    WebRtcNetty.MayThrow (state'.handleCmdOnError c k e) (state.handleCmdOnError c k e)
  update : WebRtcNetty.MayThrow state'.update state.update
  updateOnError : ∀ e, WebRtcNetty.MayThrow (state'.updateOnError e) (state.updateOnError e)
  finish : WebRtcNetty.MayThrow state'.finish state.finish
  finishOnError : ∀ e, WebRtcNetty.MayThrow (state'.finishOnError e) (state.finishOnError e)

section
variable {α : Type} {x' x : Exec RoomMem α}

theorem MayThrow.self (x : Exec RoomMem α) : MayThrow x x := fun _ => .inl rfl

/-- What returns does so as the other one does. -/
theorem MayThrow.eq_of_ok (h : MayThrow x' x) {m m' : RoomMem} {a : α} (hx : x' m = .ok a m') :
    x m = .ok a m' := by
  rcases h m with he | ⟨e, m'', he, -⟩
  · rw [← he, hx]
  · rw [hx] at he
    cases he

/-- What does not write to the room's data does not do so when it throws. -/
theorem MayThrow.within (h : MayThrow x' x) (hx : Within (.keeping RoomMem.roomData) x) :
    Within (.keeping RoomMem.roomData) x' := by
  intro m
  have hm : (endState x m).roomData = m.roomData := hx m
  rcases h m with he | ⟨e, m', he, hdata⟩
  · show (endState x' m).roomData = m.roomData
    rw [endState, he]
    exact hm
  · show (endState x' m).roomData = m.roomData
    rw [endState_error he]
    rcases hdata with hdata | hdata
    · exact hdata
    · exact hdata.trans hm

end

/-- States by the codes of their phases. -/
def registered (states : Phase → IState RoomMem Character Cmd) :
    HashMap String (IState RoomMem Character Cmd) :=
  HashMap.put (HashMap.put (HashMap.put (HashMap.put ∅ "waiting" (states .waiting))
    "chatting" (states .chatting)) "finish" (states .finish)) "ERROR" (states .error)

theorem get_registered (states : Phase → IState RoomMem Character Cmd) (ph : Phase) :
    (registered states).get ph.code = some (states ph) := by
  cases ph <;> rfl

/-- The room with other states, in a phase. -/
def Room.setStates (r : Room) (states : Phase → IState RoomMem Character Cmd) (ph : Phase) : Room :=
  { r with
    group.stateMap := registered states
    group.currentState := some (states ph) }

section
variable {p : Platform} {r r' : Room} {ph : Phase} {op : RoomStateGroup.Op}
variable {states : Phase → IState RoomMem Character Cmd}

theorem Room.InPhase.setStates (h : r.InPhase p ph) : r.setStates (Phase.state p) ph = r := by
  have hmap : registered (Phase.state p) = r.group.stateMap := h.stateMap.symm
  rw [Room.setStates, hmap, ← h.currentState]

theorem Room.inPhase_setStates (r : Room) (ph : Phase) :
    (r.setStates (Phase.state p) ph).InPhase p ph := ⟨rfl, rfl⟩

end

/-! ## Steps -/

/-- The steps of a room, and the updates in which its states' methods may throw. -/
inductive FaultyStep (p : Platform) : Room → RoomStateGroup.Op → Room → Prop
  | step {r r' : Room} {op : RoomStateGroup.Op} :
      RoomStateGroup.Step p r op r' → FaultyStep p r op r'
  | update {r : Room} {ph ph' : Phase} {states : Phase → IState RoomMem Character Cmd}
      (h : r.InPhase p ph) (hstates : ∀ ph, (states ph).MayThrow (ph.state p))
      (hafter : (endState AbstractStateGroup.update (r.setStates states ph)).group.currentState =
        some (states ph')) :
      FaultyStep p r .update (Room.setStates
        (endState AbstractStateGroup.update (r.setStates states ph)) (Phase.state p) ph')

section
variable {p : Platform} {r r' : Room} {ph : Phase} {op : RoomStateGroup.Op}
variable {states : Phase → IState RoomMem Character Cmd}

/-- An update among states that may throw stays in its phase or goes to the next one. -/
theorem update_phase (hstates : ∀ ph, (states ph).MayThrow (ph.state p)) (r : Room) (ph : Phase) :
    ∃ ph', (ph' = ph ∨ ph.next = some ph') ∧
      (endState AbstractStateGroup.update (r.setStates states ph)).group.currentState =
        some (states ph') := by
  cases hq : r.group.cmdQueue.items with
  | nil =>
    refine ⟨ph, .inl rfl, ?_⟩
    rw [endState_ok (AbstractStateGroup.update_idle (s := r.setStates states ph) (.inr hq))]
    rfl
  | cons pair rest =>
    have hp := (LinkedBlockingQueue.poll_of_cons hq).1
    rw [AbstractStateGroup.endState_update_busy (s := r.setStates states ph) rfl hp]
    rcases AbstractStateGroup.process_currentState (states ph) pair
      { r.setStates states ph with group.cmdQueue := r.group.cmdQueue.poll.2 } with
      h | ⟨m, m', code, next, -, hfinish, hget, h, -⟩
    · exact ⟨ph, .inl rfl, h⟩
    · have hcode := (hstates ph).finish.eq_of_ok hfinish
      rw [Phase.finish_state] at hcode
      cases hnext : ph.next with
      | none => rw [hnext] at hcode; cases hcode
      | some ph' =>
        rw [hnext] at hcode
        cases hcode
        refine ⟨ph', .inr rfl, h.trans ?_⟩
        exact hget.symm.trans (get_registered states ph')

/-- Nothing that the last state does writes to the room's data, whatever it throws. -/
theorem process_error_roomData (hstate : (states .error).MayThrow (Phase.error.state p))
    (pair : CharacterCmdPair Character Cmd) :
    Within (.keeping Room.roomData) (AbstractStateGroup.process (states .error) pair) := by
  refine AbstractStateGroup.process_within (F := .keeping RoomMem.roomData) ?_ ?_ ?_ ?_ ?_
  · refine .bind (hstate.hasInit.within (.bind .read fun _ => .pure _)) fun _ => .ite (.pure _) ?_
    exact .catching (hstate.init.within (.modify fun _ => rfl))
      fun e => (hstate.initOnError e).within setFinished_roomData
  · exact .catching ((hstate.handleCmd _ _).within (inWorld_roomData _))
      fun e => (hstate.handleCmdOnError _ _ e).within (inWorld_roomData _)
  · exact .catching (hstate.update.within (.pure ()))
      fun e => (hstate.updateOnError e).within (.pure ())
  · exact hstate.finish.within (.pure none)
  · exact fun e => (hstate.finishOnError e).within (.pure _)

/-- A step stays in its phase, or is an update and goes to the next one. An update of an empty queue
stays in its phase and keeps the room's data, and so does every update of the last phase. -/
structure Advances (p : Platform) (r : Room) (op : RoomStateGroup.Op) (r' : Room) (ph ph' : Phase) :
    Prop where
  inPhase : r'.InPhase p ph'
  phase : ph' = ph ∨ op = .update ∧ ph.next = some ph'
  idle : op = .update → r.pending = [] → ph' = ph ∧ r'.roomData = r.roomData
  error : op = .update → ph = .error → r'.roomData = r.roomData

/-- The updates among states that may throw. -/
theorem advances_update (hstates : ∀ ph, (states ph).MayThrow (ph.state p)) {ph' : Phase}
    (hafter : (endState AbstractStateGroup.update (r.setStates states ph)).group.currentState =
      some (states ph')) :
    Advances p r .update (Room.setStates
      (endState AbstractStateGroup.update (r.setStates states ph)) (Phase.state p) ph') ph ph' := by
  have hinj : ∀ {a b : Phase}, states a = states b → a = b := fun {a b} h => by
    have hcode := congrArg IState.getCode h
    rw [(hstates a).getCode, (hstates b).getCode, Phase.getCode_state, Phase.getCode_state] at hcode
    exact Phase.code_injective hcode
  refine ⟨Room.inPhase_setStates _ ph', ?_, fun _ hq => ?_, ?_⟩
  · obtain ⟨ph'', hph, h⟩ := update_phase hstates r ph
    have heq : ph' = ph'' := hinj (Option.some.inj (hafter.symm.trans h))
    subst heq
    exact hph.imp_right fun h => ⟨rfl, h⟩
  · have hidle := endState_ok
      (AbstractStateGroup.update_idle (s := r.setStates states ph) (.inr hq))
    rw [hidle] at hafter ⊢
    exact ⟨(hinj (Option.some.inj hafter)).symm, rfl⟩
  · rintro - rfl
    show Room.roomData (endState AbstractStateGroup.update (r.setStates states .error)) = r.roomData
    cases hq : r.group.cmdQueue.items with
    | nil =>
      rw [endState_ok (AbstractStateGroup.update_idle (s := r.setStates states .error) (.inr hq))]
      rfl
    | cons pair rest =>
      have hp := (LinkedBlockingQueue.poll_of_cons hq).1
      rw [AbstractStateGroup.endState_update_busy (s := r.setStates states .error) rfl hp]
      exact process_error_roomData (hstates .error) pair _

theorem FaultyStep.advances (h : r.InPhase p ph) (hs : FaultyStep p r op r') :
    ∃ ph', Advances p r op r' ph ph' := by
  cases hs with
  | @update ph₀ ph' states h₀ hstates hafter =>
    cases h.unique h₀
    exact ⟨ph', advances_update hstates hafter⟩
  | step hs =>
    obtain ⟨ph', h', hspec⟩ := refines h hs
    by_cases hop : op = .update
    · -- The states themselves are states that may throw.
      subst hop
      have hself : ∀ ph, IState.MayThrow (Phase.state p ph) (Phase.state p ph) := fun ph =>
        ⟨rfl, .self _, .self _, fun _ => .self _, fun _ _ => .self _, fun _ _ _ => .self _,
          .self _, fun _ => .self _, .self _, fun _ => .self _⟩
      have hafter : r' = endState AbstractStateGroup.update r := hs
      rw [hafter] at h' ⊢
      have hcurrent : (endState AbstractStateGroup.update
          (r.setStates (Phase.state p) ph)).group.currentState = some (Phase.state p ph') := by
        rw [h.setStates]
        exact h'.currentState
      have hadv := advances_update hself hcurrent
      rw [h.setStates, h'.setStates] at hadv
      exact ⟨ph', hadv⟩
    · exact ⟨ph', h', .inl (hspec.of_ne_update hop).1, fun h => absurd h hop,
        fun h => absurd h hop⟩

end

/-! ## Runs -/

/-- The place of a phase in the order. -/
def Phase.index : Phase → Nat
  | waiting => 0
  | chatting => 1
  | finish => 2
  | error => 3

theorem Phase.eq_error {ph : Phase} (h : Phase.error.index ≤ ph.index) : ph = .error := by
  revert h
  cases ph <;> decide

theorem Phase.index_next {ph ph' : Phase} (h : ph.next = some ph') : ph'.index = ph.index + 1 := by
  cases ph <;> cases h <;> rfl

/-- The phases of a run only go forward. -/
structure PhasesForward (p : Platform) (ts : List (Transition Room RoomStateGroup.Op)) : Prop where
  registered : ∀ t ∈ ts, ∃ ph, t.after.InPhase p ph
  step : ∀ t ∈ ts, ∀ ph ph', t.before.InPhase p ph → t.after.InPhase p ph' →
    ph' = ph ∨ t.label = .update ∧ ph.next = some ph'
  forward : ∀ us t vs, ts = us ++ t :: vs → ∀ u ∈ vs, ∀ ph ph', t.after.InPhase p ph →
    u.after.InPhase p ph' → ph.index ≤ ph'.index
  idle : ∀ t ∈ ts, t.label = .update → t.before.pending = [] →
    t.after.currentCode = t.before.currentCode ∧ t.after.roomData = t.before.roomData
  error : ∀ us t vs, ts = us ++ t :: vs → t.after.InPhase p .error → ∀ u ∈ vs,
    u.after.InPhase p .error ∧ (u.label = .update → u.after.roomData = u.before.roomData)

section
variable {p : Platform} {r r' : Room} {ts : List (Transition Room RoomStateGroup.Op)}

theorem faulty_inPhase (h : ∃ ph, r.InPhase p ph) (hr : Run (FaultyStep p) r ts r') :
    ∃ ph, r'.InPhase p ph :=
  hr.invariant (I := fun r => ∃ ph, r.InPhase p ph) h fun _ _ _ ⟨_, h⟩ hs => by
    obtain ⟨ph', hadv⟩ := hs.advances h
    exact ⟨ph', hadv.inPhase⟩

/-- From a phase on, a run is in that phase or a later one. -/
theorem faulty_index {ph : Phase} (h : r.InPhase p ph) (hr : Run (FaultyStep p) r ts r') :
    ∃ ph', r'.InPhase p ph' ∧ ph.index ≤ ph'.index :=
  hr.invariant (I := fun r => ∃ ph', r.InPhase p ph' ∧ ph.index ≤ ph'.index) ⟨ph, h, le_rfl⟩
    fun _ _ _ ⟨_, h, hle⟩ hs => by
      obtain ⟨ph', hadv⟩ := hs.advances h
      refine ⟨ph', hadv.inPhase, hle.trans ?_⟩
      rcases hadv.phase with rfl | ⟨-, hnext⟩
      · exact le_rfl
      · rw [Phase.index_next hnext]
        exact Nat.le_succ _

end

/-- In every run of a room that was created, whatever the methods of its states throw, the phases
only go forward. -/
theorem phases_forward {p : Platform} {id : BitVec 64} {creator : Character}
    {config : RoomStateConfig} {roomCapacity : Int} {w : World} {r₀ r : Room}
    {ts : List (Transition Room RoomStateGroup.Op)}
    (hc : RoomStateGroup.create p id creator config roomCapacity w = some r₀)
    (hr : Run (FaultyStep p) r₀ ts r) : PhasesForward p ts := by
  have h₀ : ∃ ph, r₀.InPhase p ph := ⟨_, (create_spec hc).1⟩
  have hstep : ∀ t ∈ ts, ∃ ph ph', t.before.InPhase p ph ∧
      Advances p t.before t.label t.after ph ph' := by
    intro t ht
    obtain ⟨us, vs, -, hus, hs⟩ := hr.mem ht
    obtain ⟨ph, hph⟩ := faulty_inPhase h₀ hus
    obtain ⟨ph', hadv⟩ := hs.advances hph
    exact ⟨ph, ph', hph, hadv⟩
  refine ⟨fun t ht => ?_, fun t ht ph ph' h h' => ?_, ?_, fun t ht hl hq => ?_, ?_⟩
  · obtain ⟨ph, ph', -, hadv⟩ := hstep t ht
    exact ⟨ph', hadv.inPhase⟩
  · obtain ⟨ph₁, ph₂, h₁, hadv⟩ := hstep t ht
    cases h.unique h₁
    cases h'.unique hadv.inPhase
    exact hadv.phase
  · rintro us t vs rfl u hu ph ph' h h'
    obtain ⟨us', vs', -, hus, hs⟩ := hr.split.2.2.mem hu
    obtain ⟨ph₁, h₁, hle⟩ := faulty_index h (.snoc hus hs)
    cases h'.unique h₁
    exact hle
  · obtain ⟨ph, ph', hph, hadv⟩ := hstep t ht
    obtain ⟨rfl, hdata⟩ := hadv.idle hl hq
    exact ⟨hadv.inPhase.currentCode.trans hph.currentCode.symm, hdata⟩
  · rintro us t vs rfl h u hu
    obtain ⟨us', vs', -, hus, hs⟩ := hr.split.2.2.mem hu
    obtain ⟨ph, hph, hle⟩ := faulty_index h hus
    cases Phase.eq_error hle
    obtain ⟨ph', hadv⟩ := hs.advances hph
    refine ⟨?_, fun hl => hadv.error hl rfl⟩
    rcases hadv.phase with rfl | ⟨-, hnext⟩
    · exact hadv.inPhase
    · cases hnext

/-- Alice's room handles a command that no state knows, and is chatting. -/
theorem phases_forward_aliceRoom :
    ∃ ts r, Run (FaultyStep .standard) RoomStateGroup.aliceRoom ts r ∧
      r.currentCode = some "chatting" ∧ PhasesForward .standard ts := by
  have hr : Run (FaultyStep .standard) RoomStateGroup.aliceRoom _ _ :=
    .cons (.step (RoomStateGroup.Step.of .standard _
        (RoomStateGroup.Op.addCharacterCmd RoomStateGroup.bob (Cmd.of 99 []))))
      (.single (.step (RoomStateGroup.Step.of .standard _ .update)))
  exact ⟨_, _, hr, by decide, phases_forward RoomStateGroup.create_aliceRoom hr⟩

end WebRtcNetty
