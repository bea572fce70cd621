import WebRtcNetty.Lib.Java.Exec
import WebRtcNetty.Lib.Java.Collections

/-!
# State groups

`AbstractStateGroup` (`state-machine/.../state/AbstractStateGroup.java`): a bounded queue of
commands and a current state that handles one of them in each `update`. The states are arbitrary
implementations of `IState`: computations over the memory `σ` they share (the state data, the
`Status`, their own fields and whatever else they reach), each of which may throw.

`update_idle` and `update_busy` say once what an update does. From there on:

* `process_within` carries a frame of the stages over to the update;
* `process_currentState` says when an update changes the state: every stage has returned, and the
  state's `finish` has named a registered one;
* `handled_process` says that a polled pair is handed over exactly once, whatever the stages throw.
-/

namespace WebRtcNetty

open Java

/-- A state of a group, with characters `C` and commands `K`. `Status` and the clock are part of the
memory. Reference: `IState` (`IState.java:5`). -/
structure IState (σ C K : Type) where
  getCode : String
  hasInit : Exec σ Bool
  init : Exec σ Unit
  initOnError : Throwable → Exec σ Unit
  handleCmd : C → K → Exec σ Unit
  handleCmdOnError : C → K → Throwable → Exec σ Unit
  update : Exec σ Unit
  updateOnError : Throwable → Exec σ Unit
  finish : Exec σ (Option String)
  finishOnError : Throwable → Exec σ (Option String)

/-- Reference: `CharacterCmdPair` (`IStateGroup.java:8`). -/
structure CharacterCmdPair (C K : Type) where
  character : C
  cmd : K

/-- The fields of a group. The state data and the status are in the memory, and the check of the
capacity is a field. Reference: `AbstractStateGroup` (`AbstractStateGroup.java:18-32`). -/
structure AbstractStateGroup (σ C K : Type) where
  id : BitVec 64
  stateMap : HashMap String (IState σ C K)
  characterCapacity : Int
  capacity_ge : 8 ≤ characterCapacity
  cmdQueue : LinkedBlockingQueue (CharacterCmdPair C K) 1000
  currentState : Option (IState σ C K)

/-- A group together with the memory its states share. `handled` is a history variable that nothing
reads: the pairs handed to `handleCmd`, oldest first, each with the code of the state it was called
on. -/
structure GroupMem (σ C K : Type) where
  group : AbstractStateGroup σ C K
  mem : σ
  handled : List (String × CharacterCmdPair C K)

/-- What no update changes: the id, the states, the capacity. -/
def GroupMem.config {σ C K : Type} (s : GroupMem σ C K) :
    BitVec 64 × HashMap String (IState σ C K) × Int :=
  (s.group.id, s.group.stateMap, s.group.characterCapacity)

namespace AbstractStateGroup

variable {σ C K : Type}

/-- The part of the memory that the states share. -/
def states : Lens (GroupMem σ C K) σ where
  get s := s.mem
  set s m := { s with mem := m }
  get_set _ _ := rfl
  set_get _ := rfl
  set_set _ _ _ := rfl

/-- A new group without states. Reference: the constructor (`AbstractStateGroup.java:34`); `none`
where its check of the capacity throws. -/
def new (id : BitVec 64) (characterCapacity : Int) : Option (AbstractStateGroup σ C K) :=
  if h : 8 ≤ characterCapacity then
    some ⟨id, ∅, characterCapacity, h, .empty, none⟩
  else
    none

/-- Reference: `addState` (`AbstractStateGroup.java:59`). -/
def addState (g : AbstractStateGroup σ C K) (state : IState σ C K) : AbstractStateGroup σ C K :=
  { g with stateMap := g.stateMap.put state.getCode state }

/-- Reference: `setCurrentState` (`AbstractStateGroup.java:65`); `none` where it throws. -/
def setCurrentState (g : AbstractStateGroup σ C K) (stateCode : String) :
    Option (AbstractStateGroup σ C K) :=
  match g.stateMap.get stateCode with
  | some state => some { g with currentState := some state }
  | none => none

/-- `characterSize() >= characterCapacity * 0.75`, exact in double precision for every `int`.
Reference: `isFullCharacter` (`AbstractStateGroup.java:79`). -/
def isFullCharacter (g : AbstractStateGroup σ C K) (characterSize : Nat) : Bool :=
  3 * g.characterCapacity ≤ 4 * (characterSize : Int)

/-- Reference: `addCharacterCmd` (`AbstractStateGroup.java:84`). -/
def addCharacterCmd (character : C) (cmd : K) : Exec (GroupMem σ C K) Bool := fun s =>
  let r := s.group.cmdQueue.offer ⟨character, cmd⟩
  .ok r.1 { s with group.cmdQueue := r.2 }

/-! ## The stages of an update -/

/-- `cmdQueue.poll()`. Reference: `update` (`AbstractStateGroup.java:95`). -/
def poll : Exec (GroupMem σ C K) (Option (CharacterCmdPair C K)) := fun s =>
  let r := s.group.cmdQueue.poll
  .ok r.1 { s with group.cmdQueue := r.2 }

/-- Reference: `update` (`AbstractStateGroup.java:100-106`). -/
def initStage (state : IState σ C K) : Exec σ Unit := do
  if ← state.hasInit then pure ()
  else catching state.init state.initOnError

/-- Reference: `update` (`AbstractStateGroup.java:108-115`). -/
def handleStage (state : IState σ C K) (pair : CharacterCmdPair C K) : Exec σ Unit :=
  catching (state.handleCmd pair.character pair.cmd)
    (state.handleCmdOnError pair.character pair.cmd)

/-- Reference: `update` (`AbstractStateGroup.java:117-121`). -/
def updateStage (state : IState σ C K) : Exec σ Unit :=
  catching state.update state.updateOnError

/-- Reference: `update` (`AbstractStateGroup.java:125-131`): the state registered under the next
code becomes the current one, and an unregistered code is logged. -/
def setNextState (nextCode : Option String) : Exec (GroupMem σ C K) Unit :=
  modify fun s =>
    match nextCode.bind s.group.stateMap.get with
    | some next => { s with group.currentState := some next }
    | none => s

/-- The code that `finishOnError` returns is dropped. Reference: `update`
(`AbstractStateGroup.java:123-134`). -/
def finishStage (state : IState σ C K) : Exec (GroupMem σ C K) Unit :=
  catching
    (do
      let nextCode ← zoom states state.finish
      setNextState nextCode)
    (fun error => do
      let _ ← zoom states (state.finishOnError error)
      pure ())

/-- The pair is handed to `handleCmd`, and goes into the history. -/
def handOver (state : IState σ C K) (pair : CharacterCmdPair C K) : Exec (GroupMem σ C K) Unit :=
  fun s => zoom states (handleStage state pair)
    { s with handled := s.handled ++ [(state.getCode, pair)] }

/-- What an update does with a pair it has polled. -/
def process (state : IState σ C K) (pair : CharacterCmdPair C K) : Exec (GroupMem σ C K) Unit := do
  zoom states (initStage state)
  handOver state pair
  zoom states (updateStage state)
  finishStage state

/-- Reference: `update` (`AbstractStateGroup.java:89`). -/
def update : Exec (GroupMem σ C K) Unit := do
  let s ← get
  match s.group.currentState with
  | none => pure ()
  | some currentState =>
    match ← poll with
    | none => pure ()
    | some pair => process currentState pair

/-! ## What an update does -/

/-- Without a current state or a pending pair an update does nothing. -/
theorem update_idle {s : GroupMem σ C K}
    (h : s.group.currentState = none ∨ s.group.cmdQueue.items = []) : update s = .ok () s := by
  rw [update, run_bind_ok (run_get s)]
  cases hc : s.group.currentState with
  | none => rfl
  | some state =>
    have hq : s.group.cmdQueue.items = [] := by
      rcases h with h | h
      · rw [h] at hc; cases hc
      · exact h
    have hp := LinkedBlockingQueue.poll_of_nil hq
    simp only [run_bind, poll, hp]
    rfl

/-- Otherwise it takes the oldest pair off the queue and has the current state process it. -/
theorem update_busy {s : GroupMem σ C K} {state : IState σ C K} {pair : CharacterCmdPair C K}
    (hc : s.group.currentState = some state) (hp : s.group.cmdQueue.poll.1 = some pair) :
    update s = process state pair { s with group.cmdQueue := s.group.cmdQueue.poll.2 } := by
  rw [update, run_bind_ok (run_get s), hc]
  simp only [run_bind, poll, hp]

/-- What an update with a pending pair leaves. -/
theorem endState_update_busy {s : GroupMem σ C K} {state : IState σ C K}
    {pair : CharacterCmdPair C K} (hc : s.group.currentState = some state)
    (hp : s.group.cmdQueue.poll.1 = some pair) : endState update s =
      endState (process state pair) { s with group.cmdQueue := s.group.cmdQueue.poll.2 } := by
  rw [endState, update_busy hc hp]
  rfl

/-! ## What a processed pair leaves unchanged -/

section
variable {state : IState σ C K} {pair : CharacterCmdPair C K}

/-- What the states do leaves the group as it is. -/
theorem zoom_within {α β : Type} {m : Exec σ α} {f : GroupMem σ C K → β}
    (hf : ∀ s m, f { s with mem := m } = f s) : Within (.keeping f) (zoom states m) :=
  .zoom_keeping hf

/-- Handing a pair over keeps whatever the handling keeps, but for the history. -/
theorem handOver_within {F : Frame (GroupMem σ C K)} {state : IState σ C K}
    {pair : CharacterCmdPair C K} (hh : ∀ s h, F.rel s { s with handled := h })
    (h : Within F (zoom states (handleStage state pair))) : Within F (handOver state pair) :=
  fun s => F.trans (hh s _) (h _)

/-- The next state is only written as the current one. -/
theorem setNextState_within {β : Type} {f : GroupMem σ C K → β}
    (hf : ∀ s next, f { s with group.currentState := some next } = f s) (nextCode : Option String) :
    Within (.keeping f) (setNextState nextCode : Exec (GroupMem σ C K) Unit) := by
  refine .modify fun s => ?_
  show f _ = f s
  cases nextCode.bind s.group.stateMap.get with
  | none => rfl
  | some next => exact hf s next

/-- The last stage writes to the memory and to the current state only. -/
theorem finishStage_within {β : Type} {f : GroupMem σ C K → β}
    (hm : ∀ s m, f { s with mem := m } = f s)
    (hc : ∀ s next, f { s with group.currentState := some next } = f s) :
    Within (.keeping f) (finishStage state) :=
  .catching (.bind (zoom_within hm) fun _ => setNextState_within hc _)
    fun _ => .bind (zoom_within hm) fun _ => .pure _

/-- Processing a pair keeps whatever depends neither on the memory, nor on the current state, nor on
the history. -/
theorem process_keeping {β : Type} {f : GroupMem σ C K → β}
    (hm : ∀ s m, f { s with mem := m } = f s)
    (hc : ∀ s next, f { s with group.currentState := some next } = f s)
    (hh : ∀ s h, f { s with handled := h } = f s) : Within (.keeping f) (process state pair) :=
  .bind (zoom_within hm) fun _ =>
  .bind (handOver_within hh (zoom_within hm)) fun _ =>
  .bind (zoom_within hm) fun _ => finishStage_within hm hc

/-- The frame of the stages is the frame of the pair's whole processing. -/
theorem process_within {F : Frame σ} (hinit : Within F (initStage state))
    (hhandle : Within F (handleStage state pair)) (hupdate : Within F (updateStage state))
    (hfinish : Within F state.finish) (herror : ∀ e, Within F (state.finishOnError e)) :
    Within (F.comap GroupMem.mem) (process state pair) := by
  have hz : ∀ {α : Type} {m : Exec σ α}, Within F m →
      Within (F.comap GroupMem.mem) (zoom (states (C := C) (K := K)) m) := fun h =>
    h.zoom (L := states)
  have hnext : ∀ code, Within (F.comap GroupMem.mem)
      (setNextState code : Exec (GroupMem σ C K) Unit) := fun code =>
    (setNextState_within (f := GroupMem.mem) (fun _ _ => rfl) code).mono fun s s' h => by
      show F.rel s.mem s'.mem
      rw [show s'.mem = s.mem from h]
      exact F.refl _
  exact .bind (hz hinit) fun _ =>
    .bind (handOver_within (fun s _ => F.refl s.mem) (hz hhandle)) fun _ =>
    .bind (hz hupdate) fun _ =>
    .catching (.bind (hz hfinish) fun code => hnext code)
      fun e => .bind (hz (herror e)) fun _ => .pure _

/-- A pair that is handled goes into the history. -/
theorem handOver_ok {s : GroupMem σ C K} {m : σ} (h : handleStage state pair s.mem = .ok () m) :
    handOver state pair s =
      .ok () { s with mem := m, handled := s.handled ++ [(state.getCode, pair)] } :=
  zoom_ok (L := states) (s := { s with handled := s.handled ++ [(state.getCode, pair)] }) h

/-- So does one whose handling throws. -/
theorem handOver_error {s : GroupMem σ C K} {m : σ} {e : Throwable}
    (h : handleStage state pair s.mem = .error e m) : handOver state pair s =
      .error e { s with mem := m, handled := s.handled ++ [(state.getCode, pair)] } :=
  zoom_error (L := states) (s := { s with handled := s.handled ++ [(state.getCode, pair)] }) h

/-- After init on first use, the pair goes into the history and the other stages run. -/
theorem process_of_init_ok {s : GroupMem σ C K} {m : σ} (h : initStage state s.mem = .ok () m) :
    process state pair s = (do
      zoom states (handleStage state pair)
      zoom states (updateStage state)
      finishStage state : Exec (GroupMem σ C K) Unit)
        { s with mem := m, handled := s.handled ++ [(state.getCode, pair)] } := by
  have hz : zoom states (initStage state) s = .ok () { s with mem := m } := zoom_ok h
  rw [process, run_bind_ok hz]
  rfl

/-- What the other stages keep is as the command leaves it. -/
theorem process_handle {β : Type} {f : σ → β} {s : GroupMem σ C K}
    (hret : Returns (initStage state) s.mem) (hinit : Within (.keeping f) (initStage state))
    (hupdate : Within (.keeping f) (updateStage state)) (hfinish : Within (.keeping f) state.finish)
    (herror : ∀ e, Within (.keeping f) (state.finishOnError e)) :
    ∃ m, f m = f s.mem ∧
      f (endState (process state pair) s).mem = f (endState (handleStage state pair) m) := by
  obtain ⟨_, m, hm⟩ := hret
  have hz : ∀ {α : Type} {x : Exec σ α}, Within (.keeping f) x →
      Within (.keeping fun s : GroupMem σ C K => f s.mem) (zoom states x) := fun h =>
    h.zoom (L := states)
  have hrest : Within (.keeping fun s : GroupMem σ C K => f s.mem) (do
      zoom states (updateStage state)
      finishStage state : Exec (GroupMem σ C K) Unit) :=
    .bind (hz hupdate) fun _ => .catching
      (.bind (hz hfinish) fun _ => setNextState_within (fun _ _ => rfl) _)
      fun e => .bind (hz (herror e)) fun _ => .pure _
  refine ⟨m, by have := hinit s.mem; rwa [endState_ok hm] at this, ?_⟩
  have hkeep := keeping_bind (fun _ => hrest)
    { s with mem := m, handled := s.handled ++ [(state.getCode, pair)] }
    (m := zoom states (handleStage state pair))
  rw [endState_zoom] at hkeep
  rw [endState, process_of_init_ok hm]
  exact hkeep

/-! ## When an update changes the state -/

/-- The stages before the last one: init on first use, the command, the state's own update. -/
def stages (state : IState σ C K) (pair : CharacterCmdPair C K) : Exec σ Unit := do
  initStage state
  handleStage state pair
  updateStage state

/-- A pair is processed by the stages and then the last one, but for the history. -/
theorem process_of_stages_ok {s : GroupMem σ C K} {m : σ}
    (h : stages state pair s.mem = .ok () m) : process state pair s =
      finishStage state { s with mem := m, handled := s.handled ++ [(state.getCode, pair)] } := by
  obtain ⟨_, m₁, h₁, h⟩ := bind_eq_ok h
  obtain ⟨_, m₂, h₂, h₃⟩ := bind_eq_ok h
  calc process state pair s = _ := run_bind_ok (zoom_ok h₁)
    _ = _ := run_bind_ok (handOver_ok h₂)
    _ = _ := run_bind_ok (zoom_ok h₃)

/-- A stage that throws ends the update before its last stage. -/
theorem process_of_stages_error {s : GroupMem σ C K} {m : σ} {e : Throwable}
    (h : stages state pair s.mem = .error e m) :
    ∃ handled, process state pair s = .error e { s with mem := m, handled := handled } := by
  rcases bind_eq_error h with h₁ | ⟨_, m₁, h₁, h⟩
  · exact ⟨_, run_bind_error (zoom_error h₁)⟩
  refine ⟨s.handled ++ [(state.getCode, pair)], ?_⟩
  calc process state pair s = _ := run_bind_ok (zoom_ok h₁)
    _ = _ := ?_
  rcases bind_eq_error h with h₂ | ⟨_, m₂, h₂, h₃⟩
  · exact run_bind_error (handOver_error h₂)
  · exact (run_bind_ok (handOver_ok h₂)).trans (run_bind_error (zoom_error h₃))

/-- The last stage where `finish` returns a code. -/
theorem finishStage_ok {s : GroupMem σ C K} {m : σ} {code : Option String}
    (h : state.finish s.mem = .ok code m) :
    finishStage state s = setNextState code { s with mem := m } :=
  catching_ok (run_bind_ok (zoom_ok h))

/-- The last stage keeps the current state where `finish` throws. -/
theorem finishStage_error {s : GroupMem σ C K} {m : σ} {e : Throwable}
    (h : state.finish s.mem = .error e m) :
    (endState (finishStage state) s).group = s.group := by
  have ht : finishStage state s = _ := catching_error (run_bind_error (zoom_error h))
  rw [endState, ht, run_bind, zoom]
  cases state.finishOnError e _ with
  | ok code m' => rfl
  | error e' m' => rfl

/-- An update changes the current state only when its stages have all returned and `finish` has
named a registered state, which is then the current one. -/
theorem process_currentState (state : IState σ C K) (pair : CharacterCmdPair C K)
    (s : GroupMem σ C K) :
    (endState (process state pair) s).group.currentState = s.group.currentState ∨
      ∃ m m' code next, stages state pair s.mem = .ok () m ∧ state.finish m = .ok (some code) m' ∧
        s.group.stateMap.get code = some next ∧
        (endState (process state pair) s).group.currentState = some next ∧
        (endState (process state pair) s).mem = m' := by
  cases hst : stages state pair s.mem with
  | error e m =>
    obtain ⟨handled, hp⟩ := process_of_stages_error hst
    exact .inl (by rw [endState_error hp])
  | ok _ m =>
    rw [endState, process_of_stages_ok hst]
    cases hf : state.finish m with
    | error e m' =>
      have hgroup : (endState (finishStage state) { s with
          mem := m, handled := s.handled ++ [(state.getCode, pair)] }).group = s.group :=
        finishStage_error hf
      exact .inl (congrArg (·.currentState) hgroup)
    | ok code m' =>
      rw [finishStage_ok hf, setNextState, run_modify]
      cases hn : code.bind s.group.stateMap.get with
      | none => exact .inl rfl
      | some next =>
        obtain ⟨c, rfl, hc⟩ := Option.bind_eq_some_iff.1 hn
        exact .inr ⟨m, m', c, next, rfl, hf, hc, rfl, rfl⟩

/-! ## The pairs handed over -/

/-- When init on first use returns, the pair is handed over exactly once, whatever the later stages
throw. -/
theorem handled_process {s : GroupMem σ C K} (h : Returns (initStage state) s.mem) :
    (endState (process state pair) s).handled = s.handled ++ [(state.getCode, pair)] := by
  obtain ⟨_, m, hm⟩ := h
  have hrest : Within (.keeping GroupMem.handled) (do
      zoom states (handleStage state pair)
      zoom states (updateStage state)
      finishStage state : Exec (GroupMem σ C K) Unit) :=
    .bind (zoom_within fun _ _ => rfl) fun _ =>
    .bind (zoom_within fun _ _ => rfl) fun _ => finishStage_within (fun _ _ => rfl) fun _ _ => rfl
  rw [endState, process_of_init_ok hm]
  exact hrest _

end

/-! ## The ledger of the queue -/

section
variable {s : GroupMem σ C K}

/-- An update with a pending pair takes exactly the oldest one, and hands it over, once, to the
state that is current at that moment. -/
theorem update_ledger {state : IState σ C K} {pair : CharacterCmdPair C K}
    (hc : s.group.currentState = some state) (hp : s.group.cmdQueue.poll.1 = some pair)
    (hinit : Returns (initStage state) s.mem) :
    (endState update s).group.cmdQueue = s.group.cmdQueue.poll.2 ∧
      (endState update s).handled = s.handled ++ [(state.getCode, pair)] := by
  rw [endState_update_busy hc hp]
  have hq : Within (.keeping fun s : GroupMem σ C K => s.group.cmdQueue) (process state pair) :=
    process_keeping (fun _ _ => rfl) (fun _ _ => rfl) fun _ _ => rfl
  exact ⟨hq _, handled_process hinit⟩

/-- No update changes a group's id, its states or its capacity. -/
theorem update_config :
    Within (.keeping GroupMem.config) (update : Exec (GroupMem σ C K) Unit) := by
  refine .read_bind fun s => ?_
  cases s.group.currentState with
  | none => rfl
  | some state =>
    have hpoll : Within (.keeping GroupMem.config) (poll : Exec (GroupMem σ C K) _) :=
      fun _ => rfl
    refine hpoll.bind (fun pair => ?_) s
    cases pair with
    | none => exact .pure ()
    | some pair => exact process_keeping (fun _ _ => rfl) (fun _ _ => rfl) fun _ _ => rfl

end

end AbstractStateGroup

end WebRtcNetty
