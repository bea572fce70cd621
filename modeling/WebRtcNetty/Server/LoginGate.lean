import WebRtcNetty.Server.ProtoWebSocketHandler

/-!
# The login gate

The login filter asks for a character when a frame arrives; the handler runs later, in any order
with the others. No handler takes a session's character away, so what the filter saw still holds
when the task is executed (`Gated`): every handler but LOGIN's finds a character that an executed
LOGIN has put on the session, and no other handler creates one (`loginGate`).
-/

namespace WebRtcNetty

open Java Proto2 Command Runs

namespace Net

/-- The transition executes a LOGIN on the session with the character's user id, after which the
session has the character. -/
def LogsInAs (p : Platform) (session : SessionRef) (c : Character) (t : Transition Net Op) : Prop :=
  ∃ task, Executes t task ∧ task.session = session ∧ task.cmd.getCmdType = CmdType.login ∧
    (UserCmd.login.parseFrom task.cmd.getContent).map (UserCmd.Login.getUserId p) = some c.getId ∧
    Session.getAttribute t.after.server.world session = some c

/-- After the transitions, each session's character was put there by an executed LOGIN, and each
task that waits is a LOGIN or is on a session with a character. -/
structure Gated (p : Platform) (ts : List (Transition Net Op)) (n : Net) : Prop where
  wellFormed : n.server.WellFormed p
  registered : n.server.sessions.Registered
  loggedIn : ∀ session c, n.server.sessions.character session = some c →
    ∃ t ∈ ts, LogsInAs p session c t
  tasks : ∀ task ∈ n.tasks, task.cmd.getCmdType = CmdType.login ∨
    n.server.sessions.character task.session ≠ none

/-! ## The steps -/

section
variable {p : Platform} {filters : List Filter} {ts : List (Transition Net Op)} {n n' : Net}

/-- Closing a channel takes no character away. -/
theorem bindings_close_character (session : SessionRef) (w : World) :
    (endState (Session.close session) w).bindings.character = w.bindings.character ∧
      (endState (Session.close session) w).bindings.isOnLine = w.bindings.isOnLine := by
  rw [bindings_close]
  exact ⟨rfl, rfl⟩

/-- What receiving a frame does: it writes to no session's character, and what it adds to the tasks
is a LOGIN, or is on a session with a character. -/
theorem receive_cases (hf : loginFilter ∈ filters) (session : SessionRef) (bytes : ByteString)
    (n : Net) : ∃ w tasks, endState (ProtoWebSocketHandler.read filters session bytes) n =
        ⟨{ n.server with world := w }, n.tasks ++ tasks⟩ ∧
      w.bindings.character = n.server.world.bindings.character ∧
      w.bindings.isOnLine = n.server.world.bindings.isOnLine ∧
      ∀ task ∈ tasks, task.cmd.getCmdType = CmdType.login ∨
        n.server.sessions.character task.session ≠ none := by
  have hnil : ∀ task ∈ ([] : List Task), task.cmd.getCmdType = CmdType.login ∨
      n.server.sessions.character task.session ≠ none := fun task ht => by cases ht
  cases hparse : Cmd.parseFrom bytes with
  | none =>
    cases hsend : n.server.world.sendFails n.server.world.sends with
    | false =>
      rw [read_malformed hparse hsend]
      exact ⟨{ n.server.world with
          sends := n.server.world.sends + 1
          sent := n.server.world.sent ++ [(session, Data.object "error")] },
        [], by rw [List.append_nil], rfl, rfl, hnil⟩
    | true =>
      obtain ⟨hcharacter, honLine⟩ := bindings_close_character session
        { n.server.world with sends := n.server.world.sends + 1 }
      rw [read_malformed_error hparse hsend]
      exact ⟨_, [], by rw [List.append_nil], hcharacter, honLine, hnil⟩
  | some cmd =>
    have hkeeps := runFilters_keeps session cmd filters true n.server.world
    cases hrun : ProtoWebSocketHandler.runFilters session cmd filters true n.server.world with
    | ok passes w =>
      rw [endState_ok hrun] at hkeeps
      have hbindings : w.bindings = n.server.world.bindings := hkeeps
      cases passes with
      | true =>
        rw [read_passed hparse hrun]
        refine ⟨w, [⟨session, cmd⟩], rfl, by rw [hbindings], by rw [hbindings], fun task ht => ?_⟩
        rw [List.mem_singleton.1 ht]
        exact runFilters_passes hf hrun
      | false =>
        rw [read_stopped hparse hrun]
        exact ⟨w, [], by rw [List.append_nil], by rw [hbindings], by rw [hbindings], hnil⟩
    | error e w =>
      rw [endState_error hrun] at hkeeps
      have hbindings : w.bindings = n.server.world.bindings := hkeeps
      obtain ⟨hcharacter, honLine⟩ := bindings_close_character session w
      rw [read_thrown hparse hrun]
      refine ⟨_, [], by rw [List.append_nil], ?_, ?_, hnil⟩
      · rw [hcharacter, hbindings]
      · rw [honLine, hbindings]

/-- What waits on a session with a character keeps doing so while characters stay. -/
theorem Gated.tasks_of_character (h : Gated p ts n) {b : Sessions} {tasks : List Task}
    (hsub : ∀ task ∈ tasks, task ∈ n.tasks)
    (hb : ∀ session, n.server.sessions.character session ≠ none → b.character session ≠ none) :
    ∀ task ∈ tasks, task.cmd.getCmdType = CmdType.login ∨ b.character task.session ≠ none :=
  fun task ht => (h.tasks task (hsub task ht)).imp id (hb task.session)

/-- A background step takes no session's character away and creates none. -/
theorem after_background (b : Sessions) (sendFails : Bool) (op : Server.Background) :
    (b.after p sendFails (.background op)).character = b.character ∧
      (b.after p sendFails (.background op)).nextSerial = b.nextSerial := by
  cases op with
  | update r => exact ⟨rfl, rfl⟩
  | removeOffLine => exact ⟨rfl, rfl⟩
  | removeDeposedStateGroup => exact ⟨rfl, rfl⟩
  | removeWorker => exact ⟨rfl, rfl⟩
  | removeDeposedGroup worker => exact ⟨rfl, rfl⟩
  | close session => exact ⟨rfl, rfl⟩

/-- On a session with a character, nothing but a LOGIN looks a user id up. -/
theorem looksUp_eq_none {b : Sessions} {session : SessionRef} {cmd : Cmd}
    (hlogin : cmd.getCmdType ≠ CmdType.login) (hc : b.character session ≠ none) :
    b.looksUp p session cmd = none := by
  rw [Sessions.looksUp, if_neg hlogin, if_neg fun h => hc h.2]

/-- What a LOGIN does to the sessions' characters: nothing, or it puts one with its user id on its
own session. -/
theorem handle_login {b : Sessions} (hreg : b.Registered) (sendFails : Bool)
    (session : SessionRef) {cmd : Cmd} (hlogin : cmd.getCmdType = CmdType.login) :
    (b.handle p sendFails session cmd).character = b.character ∨
      ∃ c, (b.handle p sendFails session cmd).character =
          Function.update b.character session (some c) ∧
        (UserCmd.login.parseFrom cmd.getContent).map (UserCmd.Login.getUserId p) =
          some c.getId := by
  have hlooks : b.looksUp p session cmd =
      (UserCmd.login.parseFrom cmd.getContent).map (UserCmd.Login.getUserId p) := if_pos hlogin
  cases hu : b.looksUp p session cmd with
  | none => exact .inl (by rw [Sessions.handle_of_looksUp_none hu])
  | some userId =>
    rw [← hlooks, hu]
    right
    cases hget : b.characterMap.get userId with
    | none => exact ⟨_, by rw [Sessions.handle_of_get_none hu hget]; rfl, rfl⟩
    | some c =>
      refine ⟨c, ?_, by rw [(hreg userId c hget).1]⟩
      rw [Sessions.handle_of_get_some hu hget, if_pos hlogin]
      split
      · rfl
      · rfl

/-- A handler that is not LOGIN's changes nothing about characters, once it is gated. -/
theorem handle_of_gated {b : Sessions} (sendFails : Bool) {session : SessionRef} {cmd : Cmd}
    (hlogin : cmd.getCmdType ≠ CmdType.login) (hc : b.character session ≠ none) :
    b.handle p sendFails session cmd = b :=
  Sessions.handle_of_looksUp_none (looksUp_eq_none hlogin hc)

/-- The transition that put a character on its session is still there after one more. -/
theorem Gated.loggedIn_snoc (h : Gated p ts n) (t : Transition Net Op) {session : SessionRef}
    {c : Character} (hc : n.server.sessions.character session = some c) :
    ∃ t' ∈ ts ++ [t], LogsInAs p session c t' := by
  obtain ⟨t', ht', hlog⟩ := h.loggedIn session c hc
  exact ⟨t', List.mem_append_left _ ht', hlog⟩

/-- A transition that leaves the sessions' characters as they are and adds no task keeps the
gate. -/
theorem Gated.of_character_eq (h : Gated p ts n) (t : Transition Net Op)
    (hwf : n'.server.WellFormed p) (hreg : n'.server.sessions.Registered)
    (hcharacter : n'.server.sessions.character = n.server.sessions.character)
    (hsub : ∀ task ∈ n'.tasks, task ∈ n.tasks) : Gated p (ts ++ [t]) n' where
  wellFormed := hwf
  registered := hreg
  loggedIn session c hc := h.loggedIn_snoc t (hcharacter ▸ hc)
  tasks := h.tasks_of_character hsub fun session hc => by rw [hcharacter]; exact hc

theorem Gated.step_receive (hf : loginFilter ∈ filters) (h : Gated p ts n) (t : Transition Net Op)
    {session : SessionRef} {bytes : ByteString}
    (hs : Step p filters n (.receive session bytes) n') : Gated p (ts ++ [t]) n' := by
  obtain ⟨w, tasks, he, hcharacter, honLine, htasks⟩ := receive_cases hf session bytes n
  have hn : n' = ⟨{ n.server with world := w }, n.tasks ++ tasks⟩ := Eq.trans hs he
  subst hn
  refine ⟨h.wellFormed.of_rooms rfl rfl fun _ _ => id, fun id c hc => ?_, fun s c hc => ?_,
    fun task ht => ?_⟩
  · obtain ⟨hid, hon⟩ := h.registered id c hc
    exact ⟨hid, (congrFun honLine c).trans hon⟩
  · exact h.loggedIn_snoc t ((congrFun hcharacter s).symm.trans hc)
  · have hsame : w.bindings.character task.session = n.server.sessions.character task.session :=
      congrFun hcharacter task.session
    show _ ∨ w.bindings.character task.session ≠ none
    rw [hsame]
    rcases List.mem_append.1 ht with ht | ht
    · exact h.tasks task ht
    · exact htasks task ht

theorem Gated.step_background (h : Gated p ts n) (t : Transition Net Op) {b : Server.Background}
    (hs : Step p filters n (.background b) n') : Gated p (ts ++ [t]) n' := by
  obtain ⟨htasks, hserver⟩ := endState_background (p := p) (n := n) b
  have hn : n' = endState (inServer (b.run p)) n := hs
  rw [← hn] at htasks hserver
  have hafter := sessions_step h.wellFormed hserver
  obtain ⟨hcharacter, -⟩ := after_background (p := p) n.server.sessions
    (n.server.world.sendFails n.server.world.sends) b
  rw [← hafter] at hcharacter
  exact h.of_character_eq t (h.wellFormed.step hserver)
    (by rw [hafter]; exact h.registered.after _ _) hcharacter fun task ht => htasks ▸ ht

/-- A LOGIN that puts a character on its session keeps the gate: the transition that executes it is
the one that put the character there. -/
theorem Gated.put (h : Gated p ts n) {t : Transition Net Op} {task : Task} {c : Character}
    (hwf : t.after.server.WellFormed p) (hreg : t.after.server.sessions.Registered)
    (hexec : Executes t task) (hlogin : task.cmd.getCmdType = CmdType.login)
    (hid : (UserCmd.login.parseFrom task.cmd.getContent).map (UserCmd.Login.getUserId p) =
      some c.getId)
    (hcharacter : t.after.server.sessions.character =
      Function.update n.server.sessions.character task.session (some c))
    (hsub : ∀ task' ∈ t.after.tasks, task' ∈ n.tasks) : Gated p (ts ++ [t]) t.after := by
  have hnew : t.after.server.sessions.character task.session = some c := by
    rw [hcharacter, Function.update_self]
  refine ⟨hwf, hreg, fun s c' hc => ?_, h.tasks_of_character hsub fun s hc => ?_⟩
  · by_cases hs : s = task.session
    · rw [hs] at hc ⊢
      obtain rfl : c' = c := Option.some.inj (hc.symm.trans hnew)
      exact ⟨t, List.mem_append_right _ (List.mem_singleton.2 rfl), task, hexec, rfl, hlogin, hid,
        hc⟩
    · rw [hcharacter, Function.update_of_ne hs] at hc
      exact h.loggedIn_snoc t hc
  · by_cases hs : s = task.session
    · rw [hs, hnew]
      exact Option.some_ne_none c
    · rw [hcharacter, Function.update_of_ne hs]
      exact hc

theorem Gated.step_execute {i : Nat} (h : Gated p ts n) (hs : Step p filters n (.execute i) n') :
    Gated p (ts ++ [⟨n, .execute i, n'⟩]) n' := by
  cases htask : n.tasks[i]? with
  | none =>
    have hn : n' = n := Eq.trans hs (endState_execute_none htask)
    subst hn
    exact h.of_character_eq _ h.wellFormed h.registered rfl fun _ => id
  | some task =>
    obtain ⟨htasks, hserver⟩ := endState_execute (p := p) htask
    have hn : n' = endState (execute p i) n := hs
    rw [← hn] at htasks hserver
    have hafter : n'.server.sessions = n.server.sessions.handle p
        (n.server.world.sendFails n.server.world.sends) task.session task.cmd :=
      sessions_step h.wellFormed hserver
    have hwf := h.wellFormed.step hserver
    have hreg : n'.server.sessions.Registered := by
      rw [hafter]
      exact h.registered.after _ (.handle _ _)
    have hsub : ∀ task' ∈ n'.tasks, task' ∈ n.tasks := fun task' ht =>
      List.mem_of_mem_eraseIdx (htasks ▸ ht)
    by_cases hlogin : task.cmd.getCmdType = CmdType.login
    · rcases handle_login h.registered (n.server.world.sendFails n.server.world.sends)
        task.session hlogin with hcharacter | ⟨c, hcharacter, hid⟩
      · exact h.of_character_eq _ hwf hreg (hafter ▸ hcharacter) hsub
      · rw [← hafter] at hcharacter
        exact h.put hwf hreg ⟨i, rfl, htask⟩ hlogin hid hcharacter hsub
    · have hc := (h.tasks task (List.mem_of_getElem? htask)).resolve_left hlogin
      exact h.of_character_eq _ hwf hreg (by rw [hafter, handle_of_gated _ hlogin hc]) hsub

/-- Every step keeps the gate. -/
theorem Gated.step {op : Op} (hf : loginFilter ∈ filters) (h : Gated p ts n)
    (hs : Step p filters n op n') : Gated p (ts ++ [⟨n, op, n'⟩]) n' := by
  cases op with
  | receive session bytes => exact h.step_receive hf _ hs
  | background b => exact h.step_background _ hs
  | execute i => exact h.step_execute hs

end

/-! ## The gate -/

section
variable {p : Platform} {filters : List Filter} {remoteAddress : SessionRef → Option String}
variable {sendFails : Nat → Bool} {roomCapacity : Int} {m : WorkerManager RoomRef}
variable {ts : List (Transition Net Op)} {n : Net}

theorem run_gated (hf : loginFilter ∈ filters) (hr : Run (Step p filters)
    (initial (.initial (.initial remoteAddress sendFails) roomCapacity m)) ts n) :
    Gated p ts n := by
  induction hr with
  | nil =>
    refine ⟨Server.wellFormed_initial _ _ _, registered_initial _ _ _, fun s c hc => ?_,
      fun task ht => ?_⟩
    · cases hc
    · cases ht
  | snoc hr hs ih => exact ih.step hf hs

/-- A step that executes no LOGIN creates no character. -/
theorem Gated.nextSerial {t : Transition Net Op} (hf : loginFilter ∈ filters)
    (h : Gated p ts t.before) (hs : Step p filters t.before t.label t.after)
    (hno : ∀ task, Executes t task → task.cmd.getCmdType ≠ CmdType.login) :
    t.after.server.nextSerial = t.before.server.nextSerial := by
  obtain ⟨n, op, n'⟩ := t
  cases op with
  | receive session bytes =>
    obtain ⟨w, tasks, he, -⟩ := receive_cases hf session bytes n
    have hn : n' = ⟨{ n.server with world := w }, n.tasks ++ tasks⟩ := Eq.trans hs he
    rw [hn]
  | background b =>
    obtain ⟨-, hserver⟩ := endState_background (p := p) (n := n) b
    have hn : n' = endState (inServer (b.run p)) n := hs
    rw [← hn] at hserver
    exact (congrArg Sessions.nextSerial (sessions_step h.wellFormed hserver)).trans
      (after_background _ _ b).2
  | execute i =>
    cases htask : n.tasks[i]? with
    | none =>
      have hn : n' = n := Eq.trans hs (endState_execute_none htask)
      rw [hn]
    | some task =>
      obtain ⟨-, hserver⟩ := endState_execute (p := p) htask
      have hn : n' = endState (execute p i) n := hs
      rw [← hn] at hserver
      have hlogin := hno task ⟨i, rfl, htask⟩
      have hc := (h.tasks task (List.mem_of_getElem? htask)).resolve_left hlogin
      exact congrArg Sessions.nextSerial
        ((sessions_step h.wellFormed hserver).trans (handle_of_gated _ hlogin hc))

/-- The login gate: with the login filter among the filters, in every run, a handler that is not
LOGIN's is executed on a session that has a character already, which an earlier executed LOGIN on it
has put there; and a character is created by an executed LOGIN only. -/
theorem loginGate (hf : loginFilter ∈ filters) (hr : Run (Step p filters)
    (initial (.initial (.initial remoteAddress sendFails) roomCapacity m)) ts n) :
    (∀ us t vs task, ts = us ++ t :: vs → Executes t task →
      task.cmd.getCmdType ≠ CmdType.login →
        ∃ c, Session.getAttribute t.before.server.world task.session = some c ∧
          ∃ u ∈ us, LogsInAs p task.session c u) ∧
    ∀ t ∈ ts, t.after.server.nextSerial ≠ t.before.server.nextSerial →
      ∃ task, Executes t task ∧ task.cmd.getCmdType = CmdType.login := by
  refine ⟨?_, fun t ht hne => ?_⟩
  · rintro us t vs task rfl ⟨i, -, htask⟩ hlogin
    have hg := run_gated hf hr.split.1
    have hc := (hg.tasks task (List.mem_of_getElem? htask)).resolve_left hlogin
    obtain ⟨c, hc⟩ := Option.ne_none_iff_exists'.1 hc
    exact ⟨c, hc, hg.loggedIn _ c hc⟩
  · by_contra hno
    obtain ⟨us, vs, rfl, hrun, hs⟩ := hr.mem ht
    exact hne ((run_gated hf hrun).nextSerial hf hs fun task hex hlogin => hno ⟨task, hex, hlogin⟩)

end

/-- A frame with a LOGIN of the user alice, and one with her CREATE_ROOM. -/
def loginFrame : ByteString := [8, 200, 1, 18, 9, 10, 5, 97, 108, 105, 99, 101, 18, 0]

def createRoomFrame : ByteString := [8, 144, 3, 18, 7, 10, 5, 97, 108, 105, 99, 101]

/-- The transitions in which alice logs in and creates a room. -/
def aliceCreatesRoom : List (Transition Net Op) :=
  transitions .standard [loginFilter] (initial .start)
    [.receive 0 loginFrame, .execute 0, .receive 0 createRoomFrame, .execute 0]

/-- Alice's CREATE_ROOM is executed on the session that she has logged in on. -/
theorem loginGate_alice : ∃ t ∈ aliceCreatesRoom, ∃ task, Executes t task ∧
    task.cmd.getCmdType = CmdType.createRoom ∧
      ∃ c, Session.getAttribute t.before.server.world task.session = some c := by
  have hexec : Executes (aliceCreatesRoom.get ⟨3, by decide⟩)
      ⟨0, .of CmdType.createRoom [10, 5, 97, 108, 105, 99, 101]⟩ := ⟨0, rfl, rfl⟩
  have hr : Run (Step .standard [loginFilter]) (initial .start) aliceCreatesRoom _ :=
    run_transitions .standard _ _ _
  obtain ⟨c, hc, -⟩ := (loginGate (List.mem_singleton.2 rfl) hr).1 (aliceCreatesRoom.take 3)
    (aliceCreatesRoom.get ⟨3, by decide⟩) [] _ rfl hexec (by decide)
  exact ⟨_, List.get_mem _ _, _, hexec, by decide, c, hc⟩

end Net

end WebRtcNetty
