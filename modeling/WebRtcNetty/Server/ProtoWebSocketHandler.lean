import WebRtcNetty.Server.Sessions

/-!
# Frames and tasks

What the network sees of the server: a frame that arrives on a channel is parsed and filtered on the
channel's own thread (`ProtoWebSocketHandler`), and what passes is submitted as a task, which
another thread executes later. `Net` is the server with the tasks that have not been executed yet. A
step receives a frame, executes any one of these tasks, or is a background step.
-/

namespace WebRtcNetty

open Java Proto2 Command Runs

/-! ## Filters -/

/-- A filter is given the session and the command, and says whether the command is dispatched. It
may send, but does not change who acts for whom. Reference: `Filter` (`Filter.java:5`). -/
structure Filter where
  filter : SessionRef → Cmd → Exec World Bool
  keeps : ∀ session cmd, Within (.keeping World.bindings) (filter session cmd)

/-- Reference: `filter` (`LoginFilter.java:19`). -/
def LoginFilter.filter (session : SessionRef) (cmd : Cmd) : Exec World Bool :=
  if cmd.getCmdType = CmdType.login then
    return true
  else do
    let w ← get
    match Session.getAttribute w session with
    | none => do
      Session.sendResult session (CmdUtil.loginResult ResultCode.fail "not login")
      return false
    | some _ => return true

/-- The login filter reaches the sessions and characters by sending. -/
theorem LoginFilter.filter_within {F : Frame World} (hF : Frame.AllowsSending F)
    (session : SessionRef) (cmd : Cmd) : Within F (LoginFilter.filter session cmd) := by
  refine .ite (.pure true) (.bind .read fun w => ?_)
  cases Session.getAttribute w session with
  | none => exact .bind (Session.sendResult_within hF _ _) fun _ => .pure false
  | some c => exact .pure true

/-- Reference: `LoginFilter` (`LoginFilter.java:14`), which `ServerConfig.java:53` installs. -/
def loginFilter : Filter where
  filter := LoginFilter.filter
  keeps := LoginFilter.filter_within allowsEntering_bindings.toAllowsSending

/-! ## Receiving a frame -/

/-- A task that `dispatch` has submitted. -/
structure Task where
  session : SessionRef
  cmd : Cmd

/-- The server and the tasks that have not been executed. -/
structure Net where
  server : Server
  tasks : List Task

namespace Net

/-- The server. -/
def theServer : Lens Net Server where
  get n := n.server
  set n s := { n with server := s }
  get_set _ _ := rfl
  set_get _ := rfl
  set_set _ _ _ := rfl

/-- Runs a computation over the server. -/
def inServer {α : Type} (m : Exec Server α) : Exec Net α := zoom theServer m

/-- The server at its start, before anything has been received. -/
def initial (s : Server) : Net := ⟨s, []⟩

end Net

namespace ProtoWebSocketHandler

variable (filters : List Filter)

/-- The loop over the filters, each of which is asked. Reference: `channelRead0`
(`ProtoWebSocketHandler.java:66-70`). -/
def runFilters (session : SessionRef) (cmd : Cmd) : List Filter → Bool → Exec World Bool
  | [], needDispatch => return needDispatch
  | f :: fs, needDispatch => do
    if ← f.filter session cmd then
      runFilters session cmd fs needDispatch
    else
      runFilters session cmd fs false

/-- Reference: `WebChatDispatcher.dispatch` (`WebChatDispatcher.java:58`). -/
def dispatch (session : SessionRef) (cmd : Cmd) : Exec Net Unit :=
  modify fun n => { n with tasks := n.tasks ++ [⟨session, cmd⟩] }

/-- Reference: `channelRead0` (`ProtoWebSocketHandler.java:50`). -/
def channelRead0 (session : SessionRef) (bytes : ByteString) : Exec Net Unit :=
  match Cmd.parseFrom bytes with
  | none => Net.inServer (Server.inWorld (Session.send session (.object "error")))
  | some cmd => do
    let needDispatch ← Net.inServer (Server.inWorld (runFilters session cmd filters true))
    if needDispatch then dispatch session cmd else pure ()

/-- Reference: `exceptionCaught` (`ProtoWebSocketHandler.java:81`). -/
def exceptionCaught (session : SessionRef) (_cause : Throwable) : Exec Net Unit :=
  Net.inServer (Server.inWorld (Session.close session))

/-- Receiving a frame: what `channelRead0` throws, the channel's pipeline hands to
`exceptionCaught`. -/
def read (session : SessionRef) (bytes : ByteString) : Exec Net Unit :=
  catching (channelRead0 filters session bytes) (exceptionCaught session)

end ProtoWebSocketHandler

/-! ## Runs -/

namespace Net

/-- What can happen. -/
inductive Op
  | receive (session : SessionRef) (bytes : ByteString)
  | execute (i : Nat)
  | background (b : Server.Background)

section
variable (p : Platform) (filters : List Filter)

/-- Executes one of the tasks. -/
def execute (i : Nat) : Exec Net Unit := do
  let n ← get
  match n.tasks[i]? with
  | none => pure ()
  | some task => do
    set { n with tasks := n.tasks.eraseIdx i }
    inServer (WebChatDispatcher.handler p task.session task.cmd)

def Op.run : Op → Exec Net Unit
  | .receive session bytes => ProtoWebSocketHandler.read filters session bytes
  | .execute i => Net.execute p i
  | .background b => inServer (b.run p)

/-- Every operation is atomic, and may throw. -/
def Step (n : Net) (op : Op) (n' : Net) : Prop := n' = endState (op.run p filters) n

end

/-- The transitions of a run of operations. -/
def transitions (p : Platform) (filters : List Filter) (n : Net) (ops : List Op) :
    List (Transition Net Op) :=
  trace (fun n op => endState (op.run p filters) n) n ops

theorem run_transitions (p : Platform) (filters : List Filter) (ops : List Op) (n : Net) :
    Run (Step p filters) n (transitions p filters n ops)
      (ops.foldl (fun n op => endState (op.run p filters) n) n) := by
  have hstep : ∀ n op, Step p filters n op (endState (op.run p filters) n) := fun _ _ => rfl
  exact run_trace hstep ops n

/-- The transition executes the task. -/
def Executes (t : Transition Net Op) (task : Task) : Prop :=
  ∃ i, t.label = .execute i ∧ t.before.tasks[i]? = some task

/-! ## What a step does -/

section
variable {p : Platform} {filters : List Filter} {n n' : Net}

/-- Executing a task takes it off the list and is one operation of the server. -/
theorem endState_execute {i : Nat} {task : Task} (h : n.tasks[i]? = some task) :
    (endState (execute p i) n).tasks = n.tasks.eraseIdx i ∧
      Server.Step p n.server (.handle task.session task.cmd) (endState (execute p i) n).server := by
  have he : endState (execute p i) n =
      endState (inServer (WebChatDispatcher.handler p task.session task.cmd))
        { n with tasks := n.tasks.eraseIdx i } := by
    rw [execute, endState_get_bind, h]
    rfl
  rw [he, inServer, endState_zoom]
  exact ⟨rfl, rfl⟩

/-- There is no task at this place. -/
theorem endState_execute_none {i : Nat} (h : n.tasks[i]? = none) :
    endState (execute p i) n = n := by
  rw [execute, endState_get_bind, h]
  rfl

theorem endState_background (b : Server.Background) :
    (endState (inServer (b.run p)) n).tasks = n.tasks ∧
      Server.Step p n.server (.background b) (endState (inServer (b.run p)) n).server := by
  rw [inServer, endState_zoom]
  exact ⟨rfl, rfl⟩

section
variable {session : SessionRef} {bytes : ByteString} {cmd : Cmd} {w : World} {e : Throwable}

/-- A malformed frame is answered. -/
theorem read_malformed (h : Cmd.parseFrom bytes = none)
    (hsend : n.server.world.sendFails n.server.world.sends = false) :
    endState (ProtoWebSocketHandler.read filters session bytes) n = { n with
      server.world.sends := n.server.world.sends + 1
      server.world.sent := n.server.world.sent ++ [(session, Data.object "error")] } := by
  refine endState_ok (a := ()) (catching_ok ?_)
  rw [ProtoWebSocketHandler.channelRead0, h]
  exact zoom_ok (zoom_ok (Session.send_ok hsend))

/-- A malformed frame that cannot be answered closes the channel. -/
theorem read_malformed_error (h : Cmd.parseFrom bytes = none)
    (hsend : n.server.world.sendFails n.server.world.sends = true) :
    endState (ProtoWebSocketHandler.read filters session bytes) n = { n with
      server.world := endState (Session.close session)
        { n.server.world with sends := n.server.world.sends + 1 } } := by
  have hread : ProtoWebSocketHandler.channelRead0 filters session bytes n =
      .error ⟨"RuntimeException"⟩ { n with server.world.sends := n.server.world.sends + 1 } := by
    rw [ProtoWebSocketHandler.channelRead0, h]
    exact zoom_error (zoom_error (Session.send_error hsend))
  exact (endState_catching_error hread).trans rfl

/-- A command that the filters let pass is dispatched. -/
theorem read_passed (h : Cmd.parseFrom bytes = some cmd)
    (hf : ProtoWebSocketHandler.runFilters session cmd filters true n.server.world = .ok true w) :
    endState (ProtoWebSocketHandler.read filters session bytes) n =
      ⟨{ n.server with world := w }, n.tasks ++ [⟨session, cmd⟩]⟩ := by
  refine endState_ok (a := ()) (catching_ok ?_)
  rw [ProtoWebSocketHandler.channelRead0, h]
  have hrun : inServer (Server.inWorld (ProtoWebSocketHandler.runFilters session cmd filters true))
      n = .ok true { n with server.world := w } := zoom_ok (zoom_ok hf)
  exact run_bind_ok hrun

/-- A command that some filter stops is not dispatched. -/
theorem read_stopped (h : Cmd.parseFrom bytes = some cmd)
    (hf : ProtoWebSocketHandler.runFilters session cmd filters true n.server.world =
      .ok false w) :
    endState (ProtoWebSocketHandler.read filters session bytes) n =
      ⟨{ n.server with world := w }, n.tasks⟩ := by
  refine endState_ok (a := ()) (catching_ok ?_)
  rw [ProtoWebSocketHandler.channelRead0, h]
  have hrun : inServer (Server.inWorld (ProtoWebSocketHandler.runFilters session cmd filters true))
      n = .ok false { n with server.world := w } := zoom_ok (zoom_ok hf)
  exact run_bind_ok hrun

/-- A filter that throws closes the channel. -/
theorem read_thrown (h : Cmd.parseFrom bytes = some cmd)
    (hf : ProtoWebSocketHandler.runFilters session cmd filters true n.server.world = .error e w) :
    endState (ProtoWebSocketHandler.read filters session bytes) n =
      ⟨{ n.server with world := endState (Session.close session) w }, n.tasks⟩ := by
  have hread : ProtoWebSocketHandler.channelRead0 filters session bytes n =
      .error e ⟨{ n.server with world := w }, n.tasks⟩ := by
    rw [ProtoWebSocketHandler.channelRead0, h]
    exact run_bind_error (zoom_error (zoom_error hf))
  exact (endState_catching_error hread).trans rfl

end

/-! ## What the filters do -/

section
variable {session : SessionRef} {cmd : Cmd}

/-- Once a filter has stopped a command, the others do not let it pass. -/
theorem runFilters_false : ∀ {fs : List Filter} {w w' : World} {b : Bool},
    ProtoWebSocketHandler.runFilters session cmd fs false w = .ok b w' → b = false
  | [], _, _, _, h => by cases h; rfl
  | f :: fs, _, _, _, h => by
    obtain ⟨passes, w₁, -, h⟩ := bind_eq_ok h
    cases passes with
    | true => exact runFilters_false h
    | false => exact runFilters_false h

/-- The login filter lets nothing but a LOGIN pass on a session without a character. -/
theorem loginFilter_passes {w w' : World} (h : loginFilter.filter session cmd w = .ok true w') :
    cmd.getCmdType = CmdType.login ∨ w.bindings.character session ≠ none := by
  by_cases hlogin : cmd.getCmdType = CmdType.login
  · exact .inl hlogin
  refine .inr fun hnone => ?_
  have hattr : Session.getAttribute w session = none := hnone
  change LoginFilter.filter session cmd w = _ at h
  rw [LoginFilter.filter, if_neg hlogin, run_bind_ok (run_get w), hattr] at h
  obtain ⟨_, _, -, h⟩ := bind_eq_ok h
  cases h

/-- With the login filter among the filters, nothing but a LOGIN passes on a session without a
character. -/
theorem runFilters_passes : ∀ {fs : List Filter} {w w' : World} {b : Bool}, loginFilter ∈ fs →
    ProtoWebSocketHandler.runFilters session cmd fs b w = .ok true w' →
      cmd.getCmdType = CmdType.login ∨ w.bindings.character session ≠ none
  | f :: fs, w, w', b, hmem, h => by
    obtain ⟨passes, w₁, hf, h⟩ := bind_eq_ok h
    have hsame : w₁.bindings = w.bindings := by
      have := f.keeps session cmd w
      rwa [endState_ok hf] at this
    cases passes with
    | false => cases runFilters_false h
    | true =>
      rcases List.mem_cons.1 hmem with rfl | hmem
      · exact loginFilter_passes hf
      · rw [← hsame]
        exact runFilters_passes hmem h

theorem runFilters_keeps (session : SessionRef) (cmd : Cmd) : ∀ (fs : List Filter) (b : Bool),
    Within (.keeping World.bindings) (ProtoWebSocketHandler.runFilters session cmd fs b)
  | [], b => .pure b
  | f :: fs, b => .bind (f.keeps session cmd) fun _ =>
    .ite (runFilters_keeps session cmd fs b) (runFilters_keeps session cmd fs false)

end

end

end Net

end WebRtcNetty
