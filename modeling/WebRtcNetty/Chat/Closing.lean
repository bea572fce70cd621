import WebRtcNetty.Chat.Reconnect
import WebRtcNetty.Chat.RoomPhases

/-!
# Closing a room

What a room does from the update on that processes its master's CLOSE_ROOM (`closing`). The room
goes through the rest of its phases, one in every update that is not abandoned, and comes back to
none; and it lets characters in as before, since an entry looks at the number of the members alone.
-/

namespace WebRtcNetty

open Java Proto2 Command Runs

namespace RoomStateGroup

/-- The room does not let the character in. -/
def TurnsAway (p : Platform) (c : Character) (r : Room) : Prop :=
  ∃ r', enter p c r = .ok false r' ∧ r'.roomData.characterMap = r.roomData.characterMap

/-- A room that is closed for good: it is chatting after no update of the run, and it lets nobody
in. -/
structure ClosedForGood (p : Platform) (ts : List (Transition Room Op)) : Prop where
  phase : ∀ t ∈ ts, t.label = .update → t.after.currentCode ≠ some "chatting"
  turnsAway : ∀ t ∈ ts, ∀ c, ¬ Member t.after c.getId → TurnsAway p c t.after

/-- The transition is an update that processes a pair and is not abandoned. -/
def MovesOn (p : Platform) (t : Transition Room Op) : Prop :=
  ∃ ph pair, t.before.InPhase p ph ∧ Processes t pair ∧
    Returns (AbstractStateGroup.stages (ph.state p) pair) t.before.mem

/-- Three quarters of the capacity are taken. -/
def IsFull (r : Room) : Prop :=
  r.group.isFullCharacter r.roomData.characterSize = true

/-- The room is in one of the last two phases. -/
def PastChatting (p : Platform) (r : Room) : Prop :=
  r.InPhase p .finish ∨ r.InPhase p .error

/-- A room that goes on: once it has moved on from the chatting phase, or when it is in one of the
phases behind that, it is not chatting any more, whether updates are abandoned or not; and it lets
characters in unless it is full. -/
structure GoesOn (p : Platform) (ts : List (Transition Room Op)) : Prop where
  phase : ∀ us t vs, ts = us ++ t :: vs →
    (MovesOn p t ∧ t.before.currentCode ≠ some "waiting") ∨ PastChatting p t.before →
      ∀ u ∈ t :: vs, u.after.currentCode ≠ some "chatting"
  turnsAway : ∀ t ∈ ts, ∀ c, ¬ Member t.after c.getId → (TurnsAway p c t.after ↔ IsFull t.after)
  letsIn : ∀ t ∈ ts, ∀ c, ¬ IsFull t.after → Member (endState (enter p c) t.after) c.getId

section
variable {p : Platform} {id : BitVec 64} {creator : Character} {config : RoomStateConfig}
variable {roomCapacity : Int} {w : World} {r₀ r r' : Room} {ts : List (Transition Room Op)}
variable {op : Op} {c : Character}

/-! ## Phases -/

theorem PastChatting.currentCode (h : PastChatting p r) : r.currentCode ≠ some "chatting" := by
  rcases h with h | h
  · rw [h.currentCode]
    decide
  · rw [h.currentCode]
    decide

/-- Each step stays in its phase or goes to the next one. -/
theorem step_inPhase {ph : Phase} (h : r.InPhase p ph) (hs : Step p r op r') :
    ∃ ph', r'.InPhase p ph' ∧ (ph' = ph ∨ ph.next = some ph') := by
  obtain ⟨ph', h', hspec⟩ := refines h hs
  refine ⟨ph', h', ?_⟩
  by_cases hop : op = .update
  · subst hop
    generalize hb : r.toSpec ph = b at hspec
    generalize ha : r'.toSpec ph' = a at hspec
    cases hspec with
    | idle hq =>
      rw [← hb] at ha
      exact .inl (congrArg RoomSpec.phase ha)
    | handle hq hphase =>
      rw [← hb] at hphase
      have hph : ph' = _ := congrArg RoomSpec.phase ha
      rw [hph]
      exact hphase
  · exact .inl (hspec.of_ne_update hop).1

/-- The last two phases are not left for the first ones. -/
theorem PastChatting.step (h : PastChatting p r) (hs : Step p r op r') : PastChatting p r' := by
  rcases h with h | h
  · obtain ⟨ph', h', rfl | hnext⟩ := step_inPhase h hs
    · exact .inl h'
    · cases hnext
      exact .inr h'
  · obtain ⟨ph', h', rfl | hnext⟩ := step_inPhase h hs
    · exact .inr h'
    · cases hnext

/-- An update that is not abandoned moves on from the chatting phase. -/
theorem MovesOn.pastChatting {t : Transition Room Op} (h : MovesOn p t)
    (hs : Step p t.before t.label t.after) (hw : t.before.currentCode ≠ some "waiting") :
    PastChatting p t.after := by
  obtain ⟨ph, pair, hph, ⟨hl, hhead⟩, hret⟩ := h
  obtain ⟨rest, hq⟩ := List.head?_eq_some_iff.1 hhead
  have hafter : t.after = endState AbstractStateGroup.update t.before := by
    rw [hl] at hs
    exact hs
  have hmoves := (update_handles hph hq).moves hret
  rw [← hafter] at hmoves
  cases ph with
  | waiting => exact absurd hph.currentCode hw
  | chatting => exact .inl hmoves
  | finish => exact .inr hmoves
  | error => exact .inr hmoves

/-! ## Entries -/

/-- A room turns a character away when it is full. -/
theorem turnsAway_iff : TurnsAway p c r ↔ IsFull r := by
  constructor
  · rintro ⟨r', hr', -⟩
    by_contra hfull
    cases enter_value (Bool.not_eq_true _ ▸ hfull) hr'
  · intro hfull
    exact ⟨r, enter_full hfull, rfl⟩

theorem member_of_enter (hfull : ¬ IsFull r) : Member (endState (enter p c) r) c.getId := by
  have hdata : Room.roomData (endState (enter p c) r) = r.roomData.addCharacter c :=
    (roomData_enter c r).trans (if_neg hfull)
  have hget : (r.roomData.addCharacter c).characterMap.get c.getId = some c := HashMap.get_put _ _ _
  rw [Member, hdata, HashMap.containsKey, hget]
  rfl

/-! ## Closing -/

/-- Every run of a room goes on. -/
theorem run_goesOn (hr : Run (Step p) r₀ ts r) : GoesOn p ts where
  phase := by
    rintro us t vs rfl hphase u hu
    obtain ⟨-, hs, hrest⟩ := hr.split
    have hpast : PastChatting p t.after := by
      rcases hphase with ⟨hmoves, hw⟩ | hbefore
      · exact hmoves.pastChatting hs hw
      · exact hbefore.step hs
    rcases List.mem_cons.1 hu with rfl | hu
    · exact hpast.currentCode
    · exact (hrest.forall_mem (Q := fun u => PastChatting p u.after) hpast
        (fun _ _ _ h hs => h.step hs) (fun _ _ _ h hs => h.step hs) u hu).currentCode
  turnsAway _ _ _ _ := turnsAway_iff
  letsIn _ _ _ hfull := member_of_enter hfull

/-- The update that processes the master's CLOSE_ROOM closes the room, unless it is in its last
phase. -/
theorem closed_of_closes {t : Transition Room Op} {ph : Phase}
    {pair : CharacterCmdPair Character Cmd} (h : t.before.InPhase p ph)
    (hs : Step p t.before t.label t.after) (hp : Processes t pair)
    (hc : Closes t.before.roomData pair) (hne : t.before.currentCode ≠ some "ERROR") :
    t.after.roomData.isClosed = true := by
  obtain ⟨rest, hq⟩ := List.head?_eq_some_iff.1 hp.2
  have hafter : t.after = endState AbstractStateGroup.update t.before := by
    rw [hp.1] at hs
    exact hs
  have hph : ph ≠ .error := by
    rintro rfl
    exact hne h.currentCode
  rw [hafter, (update_handles h hq).roomData]
  exact RoomData.isClosed_after.2 (.inr ⟨hph, hc⟩)

/-- In every run of a room that was created, from the update on that processes its master's
CLOSE_ROOM, the room goes on, and it is closed unless that was in its last phase. -/
theorem closing (hc : create p id creator config roomCapacity w = some r₀)
    (hr : Run (Step p) r₀ ts r) : ∀ us t vs pair, ts = us ++ t :: vs → Processes t pair →
      Closes t.before.roomData pair → GoesOn p (t :: vs) ∧
        (t.before.currentCode ≠ some "ERROR" →
          ∀ u ∈ t :: vs, u.after.roomData.isClosed = true) := by
  rintro us t vs pair rfl hp hcloses
  obtain ⟨hbefore, hs, hrest⟩ := hr.split
  refine ⟨run_goesOn (hrest.cons hs), fun hne u hu => ?_⟩
  obtain ⟨ph, h⟩ := run_inPhase hc hbefore
  obtain ⟨ph', h', -⟩ := refines h hs
  have hclosed := closed_of_closes h hs hp hcloses hne
  have hstep : ∀ (r₁ : Room) (op : Op) (r₂ : Room),
      ((∃ ph, r₁.InPhase p ph) ∧ r₁.roomData.isClosed = true) → Step p r₁ op r₂ →
        (∃ ph, r₂.InPhase p ph) ∧ r₂.roomData.isClosed = true := by
    rintro r₁ op r₂ ⟨⟨ph₁, h₁⟩, hclosed₁⟩ hs₁
    obtain ⟨ph₂, h₂, hspec⟩ := refines h₁ hs₁
    exact ⟨⟨ph₂, h₂⟩, hspec.closed hclosed₁⟩
  rcases List.mem_cons.1 hu with rfl | hu
  · exact hclosed
  · exact hrest.forall_mem (Q := fun u => u.after.roomData.isClosed = true) ⟨⟨ph', h'⟩, hclosed⟩
      hstep (fun r₁ op r₂ h₁ hs₁ => (hstep r₁ op r₂ h₁ hs₁).2) u hu

end

/-- Alice's CLOSE_ROOM is the next that the room processes. -/
def closeNext (r : Room) : Room := endState (Op.run .standard
  (.addCharacterCmd alice (.of CmdType.closeRoom []))) r

/-- The update that processes it. -/
def closeUpdate (r : Room) : Transition Room Op :=
  ⟨closeNext r, .update, endState (Op.run .standard .update) (closeNext r)⟩

/-- Alice starts the chat. -/
def startChat : List Op :=
  [.addCharacterCmd alice (.of CmdType.startChatting []), .update]

theorem run_closeUpdate (ops : List Op) (r : Room) : ∃ us, Run (Step .standard) r
    (us ++ [closeUpdate (ops.foldl (fun r op => endState (op.run .standard) r) r)])
      (closeUpdate (ops.foldl (fun r op => endState (op.run .standard) r) r)).after :=
  ⟨_, .snoc (.snoc (run_transitions .standard ops r) rfl) rfl⟩

/-- She closes her room while it is chatting. -/
theorem closing_alice : ∃ r, GoesOn .standard [closeUpdate r] ∧
    (closeUpdate r).before.currentCode = some "chatting" := by
  obtain ⟨us, hr⟩ := run_closeUpdate startChat aliceRoom
  exact ⟨_, (closing create_aliceRoom hr us _ [] _ rfl ⟨rfl, rfl⟩ ⟨rfl, rfl⟩).1, rfl⟩

/-- Her room without connections: every call of `send` fails. -/
def silentRoom : Room :=
  (create .standard 1 alice ⟨true, true⟩ 10 (.initial (fun _ => none) fun _ => true)).get rfl

/-- A room that she closes while it is waiting is chatting after that, and lets bob in; and where no
reply can be sent, a room that she closes while it is chatting goes on chatting. -/
theorem closing_counterexample :
    (∃ us t pair, Run (Step .standard) aliceRoom (us ++ [t]) t.after ∧ Processes t pair ∧
      Closes t.before.roomData pair ∧ ¬ ClosedForGood .standard [t] ∧
      t.after.currentCode = some "chatting" ∧ ¬ Member t.after bob.getId ∧
      ¬ TurnsAway .standard bob t.after) ∧
    ∃ us t pair, Run (Step .standard) silentRoom (us ++ [t]) t.after ∧ Processes t pair ∧
      Closes t.before.roomData pair ∧ ¬ ClosedForGood .standard [t] ∧
      t.before.currentCode = some "chatting" := by
  constructor
  · obtain ⟨us, hr⟩ := run_closeUpdate [] aliceRoom
    have hcode : (closeUpdate aliceRoom).after.currentCode = some "chatting" := rfl
    refine ⟨us, _, _, hr, ⟨rfl, rfl⟩, ⟨rfl, rfl⟩, fun h => h.phase _ (.head _) rfl hcode, hcode,
      ?_, ?_⟩
    · intro h
      cases h
    · rintro ⟨r', hr', -⟩
      cases hr'
  · obtain ⟨us, hr⟩ := run_closeUpdate startChat silentRoom
    have hcode : (closeUpdate (startChat.foldl (fun r op => endState (op.run .standard) r)
      silentRoom)).after.currentCode = some "chatting" := rfl
    exact ⟨us, _, _, hr, ⟨rfl, rfl⟩, ⟨rfl, rfl⟩, fun h => h.phase _ (.head _) rfl hcode, rfl⟩

end RoomStateGroup

end WebRtcNetty
