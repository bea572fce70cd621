import WebRtcNetty.Lib.EventLoops
import WebRtcNetty.Server.ProtoWebSocketHandler
import WebRtcNetty.Server.SessionBinding

/-!
# The order of a session's commands

`dispatch` submits a task for each command to a group of event loops, under a lock that it gives up
before the task is executed. So the commands of one session are spread over the loops, and the
handler of a command may be started while an earlier command's has not even been
(`handlersInOrder_counterexample`). `handlersInOrder_iff` says exactly which arrivals leave the
loops no such choice.
-/

namespace WebRtcNetty

open Java Proto2 Command Runs EventLoops

namespace WebChatDispatcher

/-! ## The dispatcher's event loops -/

/-- The event loops with the server that the handlers run on. Reference: `eventLoopGroup`
(`WebChatDispatcher.java:36`). -/
abbrev Loops := Group Server Task

/-- A command arrives, a loop starts or finishes a handler, or something happens elsewhere. -/
abbrev LoopsOp := EventLoops.Op Task Server.Background

section
variable (p : Platform) (n : Nat)

/-- The loops after an operation: `dispatch` submits the handler that the command's type selects.
Reference: `dispatch` (`WebChatDispatcher.java:58`). -/
def Loops.after (g : Loops) (op : LoopsOp) : Loops :=
  Group.after n (fun task => handler p task.session task.cmd) (fun b => b.run p) g op

/-- A step of `n` loops. -/
def Loops.Step (g : Loops) (op : LoopsOp) (g' : Loops) : Prop := g' = Loops.after p n g op

end

/-- When a command's handler is started, those of the commands that arrived before it on its session
have finished. -/
def HandlersInOrder (t : Transition Loops LoopsOp) : Prop := InOrder Task.session t

/-- If a command arrives, then the commands that arrived before it on its session have been handled,
but for those on the loop that it is handed to. -/
def ArrivesOnLoop (n : Nat) (t : Transition Loops LoopsOp) : Prop := Handed n Task.session t

/-- Whatever order the loops execute their tasks in, the handlers of each session's commands are
started in order exactly when no command arrives while an earlier one of its session is unfinished
on another loop. -/
theorem handlersInOrder_iff {p : Platform} {n : Nat} {s : Server}
    {ts : List (Transition Loops LoopsOp)} {g : Loops}
    (hr : Run (Loops.Step p n) (.initial s) ts g) :
    (∀ us vs ws g', ts = us ++ vs → Run (Loops.Step p n) (.initial s) (us ++ ws) g' →
      (∀ t ∈ ws, SubmitsNothing t) → ∀ t ∈ us ++ ws, HandlersInOrder t) ↔
        ∀ t ∈ ts, ArrivesOnLoop n t :=
  inOrder_iff hr

/-! ## Two loops -/

/-- The transitions of a run of operations. -/
def Loops.transitions (p : Platform) (n : Nat) (g : Loops) (ops : List LoopsOp) :
    List (Transition Loops LoopsOp) :=
  trace (Loops.after p n) g ops

/-- The loops after a run of operations. -/
def Loops.final (p : Platform) (n : Nat) (g : Loops) (ops : List LoopsOp) : Loops :=
  ops.foldl (Loops.after p n) g

theorem Loops.run_transitions (p : Platform) (n : Nat) (ops : List LoopsOp) (g : Loops) :
    Run (Loops.Step p n) g (Loops.transitions p n g ops) (Loops.final p n g ops) := by
  have hstep : ∀ g op, Loops.Step p n g op (Loops.after p n g op) := fun _ _ => rfl
  exact run_trace hstep ops g

/-- Alice on session 0 and bob on session 1 have each created a room; then alice sends an ENTER_ROOM
of bob's room and a CLOSE_ROOM. The second loop is ahead of the first one. -/
def enterAndClose : List LoopsOp :=
  [.submit ⟨0, Server.loginAlice⟩, .submit ⟨1, .of CmdType.login [10, 3, 98, 111, 98, 18, 0]⟩,
    .start 0, .finish 0, .start 1, .finish 1,
    .submit ⟨0, .of CmdType.createRoom [10, 5, 97, 108, 105, 99, 101]⟩,
    .submit ⟨1, .of CmdType.createRoom [10, 3, 98, 111, 98]⟩,
    .start 0, .finish 0, .start 1, .finish 1,
    .submit ⟨0, .of CmdType.enterRoom [10, 5, 97, 108, 105, 99, 101, 16, 2]⟩,
    .submit ⟨0, .of CmdType.closeRoom []⟩,
    .start 1, .finish 1, .start 0, .finish 0]

/-- With two loops the CLOSE_ROOM is handled before the ENTER_ROOM, and goes to the queue of alice's
own room. -/
theorem handlersInOrder_counterexample :
    ∃ ts g, Run (Loops.Step .standard 2) (.initial .start) ts g ∧ (∃ t ∈ ts, ¬ HandlersInOrder t) ∧
      ((g.mem.rooms 0).group.cmdQueue.items.map (·.cmd.getCmdType),
        (g.mem.rooms 1).group.cmdQueue.items.map (·.cmd.getCmdType),
        Character.getCurrentRoomId g.mem.world ⟨0, "alice", none⟩) =
          ([CmdType.closeRoom], [], 2) := by
  refine ⟨_, _, Loops.run_transitions .standard 2 enterAndClose (.initial .start), ?_,
    by decide +kernel⟩
  refine ⟨(Loops.transitions .standard 2 (.initial .start) enterAndClose).get ⟨14, by decide⟩,
    List.get_mem _ _, fun h => ?_⟩
  exact absurd (h 1 5 [] rfl rfl rfl 4 (by decide) ⟨_, _, rfl, rfl, rfl⟩) (by decide)

/-- Alice's CREATE_ROOM arrives when her LOGIN has been handled. -/
def loginThenCreate : List LoopsOp :=
  [.submit ⟨0, Server.loginAlice⟩, .start 0, .finish 0,
    .submit ⟨0, .of CmdType.createRoom [10, 5, 97, 108, 105, 99, 101]⟩, .start 1]

/-- The two are handled in order whatever the loops do. -/
theorem handlersInOrder_iff_alice : ∃ g, Run (Loops.Step .standard 2) (.initial .start)
    (Loops.transitions .standard 2 (.initial .start) loginThenCreate) g ∧
      ∀ t ∈ Loops.transitions .standard 2 (.initial .start) loginThenCreate, HandlersInOrder t := by
  have hr := Loops.run_transitions .standard 2 loginThenCreate (.initial .start)
  refine ⟨_, hr, ?_⟩
  have hinOrder := (handlersInOrder_iff hr).2 (fun t ht => ?_) _ [] [] _ (List.append_nil _).symm
    (by rw [List.append_nil]; exact hr) (fun t ht => by cases ht)
  · rwa [List.append_nil] at hinOrder
  · intro task hl j a ha hkey
    rcases List.mem_cons.1 ht with rfl | ht
    · cases ha
    rcases List.mem_cons.1 ht with rfl | ht
    · cases hl
    rcases List.mem_cons.1 ht with rfl | ht
    · cases hl
    rcases List.mem_cons.1 ht with rfl | ht
    · cases j with
      | zero => exact .inl (.head _)
      | succ j => cases ha
    · rw [List.mem_singleton.1 ht] at hl
      cases hl

end WebChatDispatcher

end WebRtcNetty
