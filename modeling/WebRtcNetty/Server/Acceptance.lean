import WebRtcNetty.Server.Membership

/-!
# Commands that disappear

A command that no other handler takes is put in the queue of its sender's current room, or refused
with a package to its session. But a queue takes no more than 1000 commands, and `addCharacterCmd`
says whether it took one by what it returns, which `handleOtherCmd` does not look at. So a command
to a room with a full queue is gone, and nobody is told (`run_answered_iff`).
-/

namespace WebRtcNetty

open Java Proto2 Command Runs Server

namespace WebChatDispatcher

/-- The command is one that `handleOtherCmd` handles. -/
structure IsOther (cmd : Cmd) : Prop where
  login : cmd.getCmdType ≠ CmdType.login
  createRoom : cmd.getCmdType ≠ CmdType.createRoom
  enterRoom : cmd.getCmdType ≠ CmdType.enterRoom
  invite : cmd.getCmdType ≠ CmdType.invite

/-- A group of one package with another code than `OK`, which has the type of its command unless
that is not positive. -/
def Fails (cmdType : BitVec 32) (g : PackageGroup) : Prop :=
  ∃ code msg, code ≠ ResultCode.ok ∧ g.val.1 = [(some (some code, msg, ()),
    if (0#32).slt cmdType then some cmdType else none, none, ())]

/-- The session's character, and its current room. -/
def route (s : Server) (session : SessionRef) : Option (Character × RoomRef) :=
  (Session.getAttribute s.world session).bind fun c =>
    (RoomStateGroupFactory.find s (c.getCurrentRoomId s.world)).map fun r => (c, r)

/-- From `s` to `s'` the command has been put in the queue of its sender's current room, or the
session has been sent one package for it, which says that it failed. -/
def Answered (s : Server) (session : SessionRef) (cmd : Cmd) (s' : Server) : Prop :=
  (∃ c r, route s session = some (c, r) ∧
    ((room r).get s').pending = ((room r).get s).pending ++ [⟨c, cmd⟩]) ∨
  ∃ g, Fails cmd.getCmdType g ∧ s'.world.sent = s.world.sent ++ [(session, .message g)]

/-- The queue of the sender's current room is not full, or there is no such room, and the call of
`send` does not fail. -/
def Answerable (s : Server) (session : SessionRef) : Prop :=
  match route s session with
  | some (_, r) => ((room r).get s).pending.length < 1000
  | none => s.world.sendFails s.world.sends = false

section
variable {p : Platform} {s : Server} {session : SessionRef} {cmd : Cmd} {c : Character}
variable {r : RoomRef}

theorem handler_other (h : IsOther cmd) : handler p session cmd = handleOtherCmd session cmd := by
  rw [handler, if_neg h.login, if_neg h.createRoom, if_neg h.enterRoom, if_neg h.invite]

/-- A command with a room to go to is offered to the room's queue. -/
theorem handleOtherCmd_of_route (h : route s session = some (c, r)) :
    endState (handleOtherCmd session cmd) s =
      endState (inRoom r (AbstractStateGroup.addCharacterCmd c cmd)) s := by
  obtain ⟨c', hc, hr⟩ := Option.bind_eq_some_iff.1 h
  obtain ⟨r', hfind, heq⟩ := Option.map_eq_some_iff.1 hr
  cases heq
  rw [handleOtherCmd, endState_get_bind, hc]
  dsimp only
  rw [hfind]
  exact keeping_bind (f := id) (fun _ => .pure _) s

/-- Any other command is refused. -/
theorem handleOtherCmd_of_route_none (cmd : Cmd) (h : route s session = none) :
    ∃ g, Fails cmd.getCmdType g ∧
      handleOtherCmd session cmd s = inWorld (Session.send session (.message g)) s := by
  refine ⟨CmdUtil.unsupportedCmdType ResultCode.fail none cmd.getCmdType,
    ⟨ResultCode.error, some (utf8Bytes "无效的命令"), by decide, rfl⟩, ?_⟩
  rw [handleOtherCmd, run_bind_ok (run_get s)]
  cases hc : Session.getAttribute s.world session with
  | none => rfl
  | some c =>
    have hfind : RoomStateGroupFactory.find s (c.getCurrentRoomId s.world) = none := by
      rw [route, hc, Option.bind_some, Option.map_eq_none_iff] at h
      exact h
    dsimp only
    rw [hfind]
    rfl

/-- What the offer does to the queue, and that it sends nothing. -/
theorem pending_of_route (cmd : Cmd) (h : route s session = some (c, r)) :
    ((room r).get (endState (handleOtherCmd session cmd) s)).pending = ((room r).get s).pending ++
        (if ((room r).get s).pending.length < 1000 then [⟨c, cmd⟩] else []) ∧
      (endState (handleOtherCmd session cmd) s).world = s.world ∧
      (endState (handleOtherCmd session cmd) s).stateGroupMap = s.stateGroupMap := by
  rw [handleOtherCmd_of_route h]
  refine ⟨?_, ?_, stateGroupMap_inRoom⟩
  · rw [← pending_addCharacterCmd]
    exact congrArg (fun o : RoomObject => o.group.cmdQueue.items) rooms_inRoom_self
  · rw [world_inRoom, endState_ok (addCharacterCmd_eq c cmd _)]
    rfl

/-- Sending a message is not sending nothing. -/
theorem append_singleton_ne_self {α : Type} (xs : List α) (x : α) : xs ++ [x] ≠ xs := fun h =>
  List.cons_ne_nil x [] (List.append_right_eq_self.1 h)

/-- A command is answered exactly when it is answerable. -/
theorem answered_iff (s : Server) (session : SessionRef) (cmd : Cmd) :
    Answered s session cmd (endState (handleOtherCmd session cmd) s) ↔ Answerable s session := by
  rw [Answerable]
  cases h : route s session with
  | some x =>
    obtain ⟨c, r⟩ := x
    obtain ⟨hpending, hworld, -⟩ := pending_of_route cmd h
    constructor
    · rintro (⟨c', r', hroute, hput⟩ | ⟨g, -, hsent⟩)
      · cases h.symm.trans hroute
        by_contra hfull
        rw [hpending, if_neg hfull, List.append_nil] at hput
        exact append_singleton_ne_self _ _ hput.symm
      · rw [hworld] at hsent
        exact absurd hsent.symm (append_singleton_ne_self _ _)
    · intro hroom
      refine .inl ⟨c, r, h, ?_⟩
      rw [hpending, if_pos hroom]
  | none =>
    obtain ⟨g, hg, hrun⟩ := handleOtherCmd_of_route_none cmd h
    constructor
    · rintro (⟨c', r', hroute, -⟩ | ⟨g', -, hsent⟩)
      · cases h.symm.trans hroute
      · by_contra hfails
        rw [endState, hrun, inWorld, zoom_error (Session.send_error (Bool.not_eq_false _ ▸ hfails))]
          at hsent
        exact append_singleton_ne_self _ _ hsent.symm
    · intro hsend
      refine .inr ⟨g, hg, ?_⟩
      rw [endState, hrun, inWorld, zoom_ok (Session.send_ok hsend)]
      rfl

/-! ## Runs -/

/-- In every run of the server, a command that no other handler takes is put in the queue of its
sender's current room, or refused with one package, exactly when the queue is not full, or there is
no such room and the call of `send` does not fail. -/
theorem run_answered_iff {remoteAddress : SessionRef → Option String} {sendFails : Nat → Bool}
    {roomCapacity : Int} {m : WorkerManager RoomRef} {ts : List (Transition Server Op)}
    (hr : Run (Step p) (initial (.initial remoteAddress sendFails) roomCapacity m) ts s) :
    ∀ t ∈ ts, ∀ session cmd, t.label = .handle session cmd → IsOther cmd →
      (Answered t.before session cmd t.after ↔ Answerable t.before session) := by
  intro t ht session cmd hl hcmd
  obtain ⟨-, -, -, -, hs⟩ := hr.mem ht
  rw [hl] at hs
  have hafter : t.after = endState (handleOtherCmd session cmd) t.before := by
    rw [← handler_other (p := p) hcmd]
    exact hs
  rw [hafter]
  exact answered_iff t.before session cmd

end

/-! ## A queue that is not drained -/

/-- Commands that go to a room, one after another without an update, fill its queue. -/
theorem pending_replicate {p : Platform} {session : SessionRef} {cmd : Cmd} {c : Character}
    {r : RoomRef} (hcmd : IsOther cmd) (n : Nat) : ∀ s : Server, route s session = some (c, r) →
      ((room r).get s).pending.length + n ≤ 1000 →
      route ((List.replicate n (.handle session cmd)).foldl
          (fun s op => endState (Op.run p op) s) s) session = some (c, r) ∧
        ((room r).get ((List.replicate n (.handle session cmd)).foldl
          (fun s op => endState (Op.run p op) s) s)).pending.length =
            ((room r).get s).pending.length + n := by
  induction n with
  | zero => exact fun s h _ => ⟨h, rfl⟩
  | succ n ih =>
    intro s h hle
    obtain ⟨hpending, hworld, hmap⟩ := pending_of_route cmd h
    have hstep : endState (Op.run p (.handle session cmd)) s =
        endState (handleOtherCmd session cmd) s := by
      rw [Op.run, handler_other hcmd]
    have hroute : route (endState (handleOtherCmd session cmd) s) session = some (c, r) := by
      unfold route RoomStateGroupFactory.find
      rw [hworld, hmap]
      exact h
    rw [if_pos (by omega)] at hpending
    have hlength := congrArg List.length hpending
    rw [List.length_append, List.length_singleton] at hlength
    obtain ⟨hroute', hlength'⟩ := ih _ hroute (by omega)
    rw [List.replicate_succ, List.foldl_cons, hstep]
    exact ⟨hroute', by omega⟩

/-- A CLOSE_ROOM. -/
def closeRoom : Cmd := .of CmdType.closeRoom []

theorem isOther_closeRoom : IsOther closeRoom := ⟨by decide, by decide, by decide, by decide⟩

/-- The server after alice has created a room. -/
def created : Server := createOnce.foldl (fun s op => endState (Op.run .standard op) s) start

/-- The server after she has sent that many commands to it. -/
def filled (n : Nat) : Server :=
  (List.replicate n (.handle 0 closeRoom)).foldl (fun s op => endState (Op.run .standard op) s)
    created

theorem filled_spec {n : Nat} (h : n ≤ 1000) : route (filled n) 0 = some (⟨0, "alice", none⟩, 0) ∧
    ((room 0).get (filled n)).pending.length = n := by
  have hempty : ((room 0).get created).pending.length = 0 := by decide +kernel
  have hroute : route created 0 = some (⟨0, "alice", none⟩, 0) := by decide +kernel
  obtain ⟨hroute, hlength⟩ := pending_replicate (p := .standard) isOther_closeRoom n created hroute
    (by rw [hempty, Nat.zero_add]; exact h)
  rw [hempty, Nat.zero_add] at hlength
  exact ⟨hroute, hlength⟩

/-- The handling of one more command. -/
def oneMore (n : Nat) : Transition Server Op :=
  ⟨filled n, .handle 0 closeRoom, endState (Op.run .standard (.handle 0 closeRoom)) (filled n)⟩

theorem before_oneMore (n : Nat) : (oneMore n).before = filled n := rfl

theorem after_oneMore (n : Nat) :
    (oneMore n).after = endState (handleOtherCmd 0 closeRoom) (filled n) := by
  rw [← handler_other (p := .standard) isOther_closeRoom]
  rfl

theorem run_oneMore (n : Nat) : ∃ ts, Run (Step .standard) start (ts ++ [oneMore n])
    (oneMore n).after :=
  ⟨_, .snoc ((run_transitions .standard createOnce start).append
    (run_transitions .standard (List.replicate n (.handle 0 closeRoom)) _)) rfl⟩

theorem answerable_filled {n : Nat} (h : n ≤ 1000) : Answerable (filled n) 0 ↔ n < 1000 := by
  obtain ⟨hroute, hlength⟩ := filled_spec h
  rw [Answerable, hroute]
  dsimp only
  rw [hlength]

/-- Alice's first command is put in the queue of her room. -/
theorem run_answered_iff_alice : Answered (oneMore 0).before 0 closeRoom (oneMore 0).after := by
  obtain ⟨ts, hr⟩ := run_oneMore 0
  refine (run_answered_iff hr (oneMore 0) (by simp) 0 closeRoom rfl isOther_closeRoom).2 ?_
  rw [before_oneMore, answerable_filled (Nat.zero_le _)]
  exact Nat.zero_lt_succ _

/-- Her command number 1001 disappears: no update has come in between. -/
theorem answered_counterexample : ∃ (ts : List (Transition Server Op)) (s : Server),
    Run (Step .standard) start ts s ∧ ∃ t ∈ ts, ∃ session cmd, t.label = .handle session cmd ∧
      IsOther cmd ∧ ((room 0).get t.before).pending.length = 1000 ∧
      ¬ Answered t.before session cmd t.after := by
  obtain ⟨ts, hr⟩ := run_oneMore 1000
  refine ⟨_, _, hr, oneMore 1000, by simp, 0, closeRoom, rfl, isOther_closeRoom, ?_, ?_⟩
  · rw [before_oneMore]
    exact (filled_spec le_rfl).2
  · rw [before_oneMore, after_oneMore, answered_iff, answerable_filled le_rfl]
    exact Nat.lt_irrefl _

end WebChatDispatcher

end WebRtcNetty
