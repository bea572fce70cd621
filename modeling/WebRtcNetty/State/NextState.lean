import WebRtcNetty.State.StateGroup

/-!
# The next state

The last stage of an update asks the state's `finish` for the code of the next state, and its
`finishOnError` where `finish` throws. The group follows the first code and drops the second one:
`update_currentState` says which state is the current one after an update, and
`update_follows_iff` when it is the one the code names.
-/

namespace WebRtcNetty

open Java

/-- The methods of a state that a stage calls outside its `try`, or in its `catch`, return. -/
structure IState.HandlersReturn {σ C K : Type} (state : IState σ C K) : Prop where
  hasInit : ∀ m, Returns state.hasInit m
  initOnError : ∀ e m, Returns (state.initOnError e) m
  handleCmdOnError : ∀ c k e m, Returns (state.handleCmdOnError c k e) m
  updateOnError : ∀ e m, Returns (state.updateOnError e) m
  finishOnError : ∀ e m, Returns (state.finishOnError e) m

namespace AbstractStateGroup

variable {σ C K : Type} {state : IState σ C K} {pair : CharacterCmdPair C K}

/-- The stages before the last one return, whatever `init`, `handleCmd` and `update` throw. -/
theorem stages_returns (h : state.HandlersReturn) (m : σ) : Returns (stages state pair) m := by
  have hinit : Returns (initStage state) m := by
    refine (h.hasInit m).bind fun initialized m' _ => ?_
    cases initialized with
    | true => exact ⟨(), m', rfl⟩
    | false => exact .catching fun e m'' _ => h.initOnError e m''
  refine hinit.bind fun _ m₁ _ => ?_
  refine (Returns.catching fun e m' _ => h.handleCmdOnError _ _ e m').bind fun _ m₂ _ => ?_
  exact .catching fun e m' _ => h.updateOnError e m'

/-- The code for the next state that the last stage gets on the memory `m`: that of `finish`, or
that of `finishOnError` where `finish` throws. -/
def nextCode (state : IState σ C K) (m : σ) : Option String :=
  match catching state.finish state.finishOnError m with
  | .ok code _ => code
  | .error _ _ => none

/-- The state registered under the code, and the current one where there is none. -/
def follow (g : AbstractStateGroup σ C K) (code : Option String) : Option (IState σ C K) :=
  (code.bind g.stateMap.get).or g.currentState

theorem follow_eq_currentState {g : AbstractStateGroup σ C K} {code : Option String} :
    g.follow code = g.currentState ↔
      ∀ next, code.bind g.stateMap.get = some next → g.currentState = some next := by
  rw [follow]
  cases code.bind g.stateMap.get with
  | none => simp
  | some next => simp [eq_comm]

/-- The last stage follows the code of `finish`, and stays in its state where `finish` throws. -/
theorem process_follows {s : GroupMem σ C K} {m : σ} (hst : stages state pair s.mem = .ok () m) :
    (endState (process state pair) s).group.currentState =
      match state.finish m with
      | .ok code _ => s.group.follow code
      | .error _ _ => s.group.currentState := by
  rw [endState, process_of_stages_ok hst]
  cases hf : state.finish m with
  | ok code m' =>
    rw [finishStage_ok hf, setNextState, run_modify]
    show _ = (code.bind s.group.stateMap.get).or s.group.currentState
    cases hn : code.bind s.group.stateMap.get with
    | none => rfl
    | some next => rfl
  | error e m' =>
    have hgroup := finishStage_error (C := C) (K := K) (s := { s with
      mem := m, handled := s.handled ++ [(state.getCode, pair)] }) hf
    exact congrArg (·.currentState) hgroup

/-- An update with a pending pair, whatever `init`, `handleCmd`, `update` and `finish` throw: the
state that the code of the last stage names is the current one afterwards, and the state before
where it names none, exactly if the code is that of `finish`, or makes no difference. -/
theorem update_follows_iff {s : GroupMem σ C K} (hc : s.group.currentState = some state)
    (hp : s.group.cmdQueue.poll.1 = some pair) (hret : state.HandlersReturn) :
    ∃ m, stages state pair s.mem = .ok () m ∧
      ((endState update s).group.currentState = s.group.follow (nextCode state m) ↔
        Returns state.finish m ∨
          ∀ next, (nextCode state m).bind s.group.stateMap.get = some next →
            s.group.currentState = some next) := by
  have hstages : Returns (stages state pair) s.mem := stages_returns hret s.mem
  obtain ⟨_, m, hst⟩ := hstages
  refine ⟨m, hst, ?_⟩
  have hnext : (endState (process state pair)
      { s with group.cmdQueue := s.group.cmdQueue.poll.2 }).group.currentState = _ :=
    process_follows hst
  rw [endState_update_busy hc hp, hnext]
  cases hf : state.finish m with
  | ok code m' =>
    have hcode : nextCode state m = code := by rw [nextCode, catching_ok hf]
    rw [hcode]
    exact iff_of_true rfl (.inl ⟨code, m', hf⟩)
  | error e m' =>
    have hthrows : ¬ Returns state.finish m := by
      rintro ⟨_, _, h⟩
      rw [hf] at h
      cases h
    rw [or_iff_right hthrows, ← follow_eq_currentState]
    exact eq_comm

/-! ## A state whose `finish` throws -/

/-- A state that extends `StateAdapter`: its errors lead to the error state. -/
def adapter (code : String) (finish : Exec Unit (Option String)) : IState Unit Unit Unit where
  getCode := code
  hasInit := pure true
  init := pure ()
  initOnError _ := pure ()
  handleCmd _ _ := pure ()
  handleCmdOnError _ _ _ := pure ()
  update := pure ()
  updateOnError _ := pure ()
  finish := finish
  finishOnError _ := pure (some "ERROR")

theorem adapter_handlersReturn (code : String) (finish : Exec Unit (Option String)) :
    (adapter code finish).HandlersReturn where
  hasInit m := ⟨_, m, rfl⟩
  initOnError _ m := ⟨_, m, rfl⟩
  handleCmdOnError _ _ _ m := ⟨_, m, rfl⟩
  updateOnError _ m := ⟨_, m, rfl⟩
  finishOnError _ m := ⟨_, m, rfl⟩

/-- A group in a state with this `finish`, with the error state and a pending command. -/
def pendingGroup (finish : Exec Unit (Option String)) : GroupMem Unit Unit Unit :=
  let g := ((new 1 10).get rfl).addState (adapter "waiting" finish) |>.addState
    (adapter "ERROR" (pure none))
  endState (addCharacterCmd () ()) {
    group := { g with currentState := some (adapter "waiting" finish) }
    mem := ()
    handled := [] }

/-- The update of a group whose `finish` returns the code of the error state follows it. -/
theorem update_follows_iff_pending :
    ∃ m, (endState update (pendingGroup (pure (some "ERROR")))).group.currentState =
      (pendingGroup (pure (some "ERROR"))).group.follow
        (nextCode (adapter "waiting" (pure (some "ERROR"))) m) := by
  have hp : (pendingGroup (pure (some "ERROR"))).group.cmdQueue.poll.1 = some ⟨(), ()⟩ := rfl
  obtain ⟨m, -, h⟩ := update_follows_iff rfl hp (adapter_handlersReturn _ _)
  exact ⟨m, h.2 (.inl ⟨_, m, rfl⟩)⟩

/-- A state whose `finish` throws stays the current one, though its `finishOnError` names the error
state. -/
theorem update_follows_counterexample :
    ∃ (s : GroupMem Unit Unit Unit) (state : IState Unit Unit Unit) (next : IState Unit Unit Unit)
      (m : Unit), s.group.currentState = some state ∧ s.group.cmdQueue.poll.1 = some ⟨(), ()⟩ ∧
      state.HandlersReturn ∧ stages state ⟨(), ()⟩ s.mem = .ok () m ∧
      nextCode state m = some next.getCode ∧ s.group.stateMap.get next.getCode = some next ∧
      (endState update s).group.currentState ≠ some next := by
  refine ⟨pendingGroup (throw ⟨"java.lang.IllegalStateException"⟩), _,
    adapter "ERROR" (pure none), (), rfl, rfl, adapter_handlersReturn _ _, rfl, rfl, rfl, ?_⟩
  intro h
  have hcode : some "waiting" = some "ERROR" := congrArg (Option.map IState.getCode) h
  revert hcode
  decide

end AbstractStateGroup

end WebRtcNetty
