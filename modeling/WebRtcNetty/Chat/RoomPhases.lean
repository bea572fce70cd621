import WebRtcNetty.Chat.RoomAuthority
import WebRtcNetty.Chat.RoomFrames

/-!
# When a room leaves a phase

A room is meant to leave its waiting phase when its master starts the chat or the room has been
closed, and its chatting phase when it has been closed: the states record both in the room's
`Status` (`PhaseGuarded`). But no code reads the status: `WaitingState.finish` and
`ChattingState.finish` return the next code in every update. So a room leaves its phase with the
first command that is handled in it, whatever the command, and `phaseGuarded_iff` says exactly which
updates are as meant.
-/

namespace WebRtcNetty

open Java Proto2 Command Runs

/-! ## When the stages return -/

section
variable {p : Platform} {ph : Phase} {pair : CharacterCmdPair Character Cmd} {m : RoomMem}

/-- No state's own update throws out of the room's update. -/
theorem updateStage_returns (ph : Phase) (m : RoomMem) :
    Returns (AbstractStateGroup.updateStage (ph.state p)) m :=
  .catching fun e m' _ => by
    rw [Phase.updateOnError_state]
    exact ⟨(), m', rfl⟩

/-- The stages return when the command's does. -/
theorem stages_returns (h : ∀ f, Returns (AbstractStateGroup.handleStage (ph.state p) pair)
    { m with initialized := f }) : Returns (AbstractStateGroup.stages (ph.state p) pair) m := by
  obtain ⟨f, hf⟩ := initStage_state (p := p) ph m
  refine .bind ⟨(), _, hf⟩ fun _ m₁ h₁ => ?_
  obtain rfl : { m with initialized := f } = m₁ := (EStateM.Result.ok.inj (hf.symm.trans h₁)).2
  exact .bind (h f) fun _ m₂ _ => updateStage_returns ph m₂

/-- The master's START_CHATTING is handled without a reply. -/
theorem stages_returns_startChatting (hk : pair.cmd.getCmdType = CmdType.startChatting)
    (hm : pair.character.getId = m.roomData.master.getId) :
    Returns (AbstractStateGroup.stages (Phase.waiting.state p) pair) m := by
  refine stages_returns fun f => ⟨(), { m with initialized := f, isFinished := true }, ?_⟩
  refine catching_ok ?_
  show WaitingState.handleCmd p pair.character pair.cmd _ = _
  rw [WaitingState.handleCmd, if_pos hk, WaitingState.startChatting, run_bind_ok (run_get _),
    if_neg (not_not.2 hm)]
  rfl

/-- While no call of `send` fails, every command's stage returns: if the handler throws, the report
of its error does not. -/
theorem stages_returns_of_sends (h : ∀ n, m.world.sendFails n = false) :
    Returns (AbstractStateGroup.stages (ph.state p) pair) m := by
  refine stages_returns fun f => .catching fun e m' he => ?_
  have hkeep : Within ((Frame.keeping World.sendFails).comap RoomMem.world)
      ((ph.state p).handleCmd pair.character pair.cmd) :=
    handleCmd_state_world ⟨fun _ _ _ => rfl, fun _ => rfl⟩ ph _ _
  have hsend : m'.world.sendFails = m.world.sendFails := by
    have := hkeep { m with initialized := f }
    rw [endState_error he] at this
    exact this
  rw [Phase.handleCmdOnError_state]
  refine (returns_zoom (L := RoomMem.theWorld)).2 (Character.sendMsg_returns ?_)
  rw [RoomMem.theWorld_get, hsend, h]

end

/-! ## The runs of a room -/

namespace RoomStateGroup

variable {p : Platform} {id : BitVec 64} {creator : Character} {config : RoomStateConfig}
variable {roomCapacity : Int} {w : World} {r₀ r : Room} {ts : List (Transition Room Op)}

/-- The pair is the master's START_CHATTING. -/
def Starts (d : RoomData) (pair : CharacterCmdPair Character Cmd) : Prop :=
  pair.cmd.getCmdType = CmdType.startChatting ∧ pair.character.getId = d.master.getId

/-- The pair is the master's CLOSE_ROOM. -/
def Closes (d : RoomData) (pair : CharacterCmdPair Character Cmd) : Prop :=
  pair.cmd.getCmdType = CmdType.closeRoom ∧ pair.character.getId = d.master.getId

/-- The master's START_CHATTING has been processed while the room was waiting. -/
def Started (r : Room) : Prop := ∃ pair, ("waiting", pair) ∈ r.handled ∧ Starts r.roomData pair

/-- The transition leaves the phase with this code. -/
def Leaves (t : Transition Room Op) (code : String) : Prop :=
  t.before.currentCode = some code ∧ t.after.currentCode ≠ some code

/-- The room leaves its waiting phase only in an update at whose end the master has started the chat
or the room is closed, and its chatting phase only in an update at whose end it is closed. -/
structure PhaseGuarded (t : Transition Room Op) : Prop where
  waiting : Leaves t "waiting" →
    t.label = .update ∧ (Started t.after ∨ t.after.roomData.isClosed = true)
  chatting : Leaves t "chatting" → t.label = .update ∧ t.after.roomData.isClosed = true

/-- The pairs that a room in this phase may process: any pair once it is closed, and otherwise the
master's CLOSE_ROOM and, while it waits, START_CHATTING. -/
def MayProcess (d : RoomData) (ph : Phase) (pair : CharacterCmdPair Character Cmd) : Prop :=
  d.isClosed = true ∨ Closes d pair ∨ ph = .waiting ∧ Starts d pair

/-- If the transition is an update of a waiting or chatting room, then it processes a pair that the
room may process, or one that the current state's handler and its error handler both throw on, so
that the update is abandoned. -/
def Orderly (p : Platform) (t : Transition Room Op) : Prop :=
  ∀ ph pair, t.before.InPhase p ph → (ph = .waiting ∨ ph = .chatting) → Processes t pair →
    MayProcess t.before.roomData ph pair ∨
      ¬ Returns (AbstractStateGroup.stages (ph.state p) pair) t.before.mem

/-- The phase that an update moves to is not the first one. -/
theorem next_ne_waiting (ph : Phase) : ph.next.getD ph ≠ .waiting := by
  cases ph <;> decide

/-- A waiting room has not been started: the update that processes the master's START_CHATTING moves
on. -/
theorem run_not_started (hc : create p id creator config roomCapacity w = some r₀)
    (hr : Run (Step p) r₀ ts r) : r.InPhase p .waiting → ¬ Started r := by
  induction hr with
  | nil =>
    rintro - ⟨pair, hmem, -⟩
    have hhandled : r₀.handled = [] := congrArg RoomSpec.handled (create_spec hc).2.1
    rw [hhandled] at hmem
    cases hmem
  | @snoc ts r₁ r₂ op hrun hs ih =>
    rintro hw ⟨pair, hmem, hstarts⟩
    obtain ⟨ph, h⟩ := run_inPhase hc hrun
    obtain ⟨ph', h', hspec⟩ := refines h hs
    obtain rfl := h'.unique hw
    have hmaster : r₂.roomData.master = r₁.roomData.master := hspec.config.1
    rw [Starts, hmaster] at hstarts
    by_cases hop : op = .update
    · subst hop
      obtain rfl : r₂ = endState AbstractStateGroup.update r₁ := hs
      cases hq : r₁.pending with
      | nil =>
        rw [update_of_pending_nil hq] at hw hmem
        exact ih hw ⟨pair, hmem, hstarts⟩
      | cons head rest =>
        have hh := update_handles h hq
        by_cases hret : Returns (AbstractStateGroup.stages (ph.state p) head) r₁.mem
        · exact next_ne_waiting ph ((hh.moves hret).unique hw)
        · obtain rfl := (hh.stays hret).unique hw
          rw [hh.handled, List.mem_append, List.mem_singleton] at hmem
          rcases hmem with hmem | hmem
          · exact ih h ⟨pair, hmem, hstarts⟩
          · obtain rfl : pair = head := congrArg (·.2) hmem
            exact hret (stages_returns_startChatting hstarts.1 hstarts.2)
    · obtain ⟨hphase, hhandled⟩ := hspec.of_ne_update hop
      have hphase' : Phase.waiting = ph := hphase
      have hhandled' : r₂.handled = r₁.handled := hhandled
      subst hphase'
      rw [hhandled'] at hmem
      exact ih h ⟨pair, hmem, hstarts⟩

/-- A step other than an update leaves no phase. -/
theorem not_leaves {t : Transition Room Op} {ph : Phase} (h : t.before.InPhase p ph)
    (hs : Step p t.before t.label t.after) (hop : t.label ≠ .update) (code : String) :
    ¬ Leaves t code := by
  rintro ⟨hb, ha⟩
  obtain ⟨ph', h', hspec⟩ := refines h hs
  have hphase : ph' = ph := (hspec.of_ne_update hop).1
  subst hphase
  exact ha (h'.currentCode.trans (h.currentCode.symm.trans hb))

/-- What an update that moves on is guarded by, in terms of the pair it processes. -/
theorem phaseGuarded_of_moves {t : Transition Room Op} {ph : Phase}
    {pair : CharacterCmdPair Character Cmd} (h : t.before.InPhase p ph) (hl : t.label = .update)
    (hh : Handles p t.before ph pair t.after) (hnot : ph = .waiting → ¬ Started t.before)
    (hret : Returns (AbstractStateGroup.stages (ph.state p) pair) t.before.mem) :
    PhaseGuarded t ↔ (ph = .waiting ∨ ph = .chatting → MayProcess t.before.roomData ph pair) := by
  have hmaster : t.after.roomData.master = t.before.roomData.master := by
    rw [hh.roomData]; exact RoomData.after_config.1
  have hclosed : t.after.roomData.isClosed = true ↔
      t.before.roomData.isClosed = true ∨ ph ≠ .error ∧ Closes t.before.roomData pair := by
    rw [hh.roomData]; exact RoomData.isClosed_after
  have hleaves : ph.next.getD ph ≠ ph → Leaves t ph.code := fun hne =>
    ⟨h.currentCode, fun ha => hne (Phase.code_injective
      (Option.some.inj ((hh.moves hret).currentCode.symm.trans ha)))⟩
  have hphase : ∀ {ph' : Phase}, Leaves t ph'.code → ph' = ph := fun hleave =>
    Phase.code_injective (Option.some.inj (hleave.1.symm.trans h.currentCode))
  have hmay : t.after.roomData.isClosed = true → MayProcess t.before.roomData ph pair := fun hc =>
    (hclosed.1 hc).imp id fun hc => .inl hc.2
  constructor
  · rintro hg (rfl | rfl)
    · rcases (hg.waiting (hleaves (by decide))).2 with ⟨started, hmem, hstarts⟩ | hc
      · rw [hh.handled, List.mem_append, List.mem_singleton] at hmem
        rw [Starts, hmaster] at hstarts
        rcases hmem with hmem | hmem
        · exact absurd ⟨started, hmem, hstarts⟩ (hnot rfl)
        · obtain rfl : started = pair := congrArg (·.2) hmem
          exact .inr (.inr ⟨rfl, hstarts⟩)
      · exact hmay hc
    · exact hmay (hg.chatting (hleaves (by decide))).2
  · intro hp
    refine ⟨fun hleave => ⟨hl, ?_⟩, fun hleave => ⟨hl, ?_⟩⟩
    · obtain rfl := hphase (show Leaves t Phase.waiting.code from hleave)
      rcases hp (.inl rfl) with hc | hc | ⟨-, hstarts⟩
      · exact .inr (hclosed.2 (.inl hc))
      · exact .inr (hclosed.2 (.inr ⟨by decide, hc⟩))
      · refine .inl ⟨pair, ?_, by rw [Starts, hmaster]; exact hstarts⟩
        rw [hh.handled]
        exact List.mem_append_right _ (List.mem_singleton.2 rfl)
    · obtain rfl := hphase (show Leaves t Phase.chatting.code from hleave)
      rcases hp (.inr rfl) with hc | hc | ⟨hw, -⟩
      · exact hclosed.2 (.inl hc)
      · exact hclosed.2 (.inr ⟨by decide, hc⟩)
      · cases hw

/-- The transitions of a room that are as meant are the orderly ones: in every run of a room that
was created, a transition is guarded exactly when, as an update of a waiting or chatting room, it
processes a pair that the room may process, or is abandoned. -/
theorem phaseGuarded_iff (hc : create p id creator config roomCapacity w = some r₀)
    (hr : Run (Step p) r₀ ts r) : ∀ t ∈ ts, PhaseGuarded t ↔ Orderly p t := by
  intro t ht
  obtain ⟨us, vs, rfl, hrun, hs⟩ := hr.mem ht
  obtain ⟨ph, h⟩ := run_inPhase hc hrun
  have hnot : ph = .waiting → ¬ Started t.before := fun hw =>
    run_not_started hc hrun (hw ▸ h)
  have hguarded : (∀ code, ¬ Leaves t code) → PhaseGuarded t := fun hl =>
    ⟨fun hleave => absurd hleave (hl _), fun hleave => absurd hleave (hl _)⟩
  by_cases hop : t.label = .update
  · have hafter : t.after = endState AbstractStateGroup.update t.before := by
      rw [hop] at hs; exact hs
    cases hq : t.before.pending with
    | nil =>
      have hsame : t.after = t.before := hafter.trans (update_of_pending_nil hq)
      refine iff_of_true (hguarded fun code hl => hl.2 (hsame ▸ hl.1)) fun ph' pair _ _ hp => ?_
      rw [Processes, hq] at hp
      cases hp.2
    | cons pair rest =>
      have hh : Handles p t.before ph pair t.after := hafter ▸ update_handles h hq
      have horderly : Orderly p t ↔ ((ph = .waiting ∨ ph = .chatting) →
          MayProcess t.before.roomData ph pair ∨
            ¬ Returns (AbstractStateGroup.stages (ph.state p) pair) t.before.mem) := by
        refine ⟨fun ho hph => ho ph pair h hph ⟨hop, by rw [hq]; rfl⟩,
          fun ho ph' pair' h' hph hp => ?_⟩
        obtain rfl := h.unique h'
        obtain rfl : pair = pair' := by
          have := hp.2
          rw [hq] at this
          exact Option.some.inj this
        exact ho hph
      rw [horderly]
      by_cases hret : Returns (AbstractStateGroup.stages (ph.state p) pair) t.before.mem
      · rw [phaseGuarded_of_moves h hop hh hnot hret]
        simp only [hret, not_true_eq_false, or_false]
      · refine iff_of_true (hguarded fun code hl => hl.2 ?_) fun _ => .inr hret
        rw [(hh.stays hret).currentCode, ← h.currentCode, hl.1]
  · refine iff_of_true (hguarded fun code => not_leaves h hs hop code) fun _ _ _ _ hp => ?_
    exact absurd hp.1 hop

/-- While no call of `send` fails, no update is abandoned, so an orderly update processes a pair
that the room may process. -/
theorem orderly_iff_of_sends {t : Transition Room Op}
    (h : ∀ n, t.before.world.sendFails n = false) : Orderly p t ↔
      ∀ ph pair, t.before.InPhase p ph → (ph = .waiting ∨ ph = .chatting) → Processes t pair →
        MayProcess t.before.roomData ph pair := by
  have hret : ∀ ph pair, Returns (AbstractStateGroup.stages (Phase.state p ph) pair) t.before.mem :=
    fun _ _ => stages_returns_of_sends h
  simp only [Orderly, hret, not_true_eq_false, or_false]

/-- A command of another user, of a type that no handler knows, starts the chat of a room that waits
for its master. -/
theorem phaseGuarded_counterexample : ∃ (ts : List (Transition Room Op)) (r : Room),
    Run (Step .standard) aliceRoom ts r ∧ r.currentCode = some "chatting" ∧
      ∃ t ∈ ts, ¬ PhaseGuarded t := by
  refine ⟨_, _, run_transitions .standard [.addCharacterCmd bob (Cmd.of 999 []), .update] _,
    by decide, _, .tail _ (.head _), fun hg => ?_⟩
  rcases (hg.waiting ⟨by decide, by decide⟩).2 with ⟨pair, hmem, hstarts⟩ | hclosed
  · obtain rfl : pair = ⟨bob, Cmd.of 999 []⟩ := congrArg (·.2) (List.mem_singleton.1 hmem)
    exact absurd hstarts.1 (by decide)
  · exact absurd hclosed (by decide)

/-- The update in which alice closes her room. -/
theorem phaseGuarded_iff_aliceRoom : ∃ t ∈ transitions .standard aliceRoom
    [.addCharacterCmd alice (Cmd.of CmdType.closeRoom []), .update],
    t.after.currentCode = some "chatting" ∧ (PhaseGuarded t ↔ Orderly .standard t) :=
  ⟨_, .tail _ (.head _), by decide,
    phaseGuarded_iff create_aliceRoom
      (run_transitions .standard [.addCharacterCmd alice (Cmd.of CmdType.closeRoom []), .update] _)
      _ (.tail _ (.head _))⟩

end RoomStateGroup

end WebRtcNetty
