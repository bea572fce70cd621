import WebRtcNetty.Chat.RoomRefinement

/-!
# The queue of a room

No command is lost, duplicated or reordered: in every run of a room the pairs handed to some state's
`handleCmd`, followed by those still pending, are the pairs that `addCharacterCmd` accepted
(`queue_exact`). The conservation law of one step is proved of the specification (`Step.ledger`),
and the run follows by induction.
-/

namespace WebRtcNetty

open Java Proto2 Command Runs

/-! ## The law of one step -/

namespace RoomSpec

/-- The pairs that an operation puts in the queue. -/
def accepts (s : RoomSpec) : RoomStateGroup.Op → List (CharacterCmdPair Character Cmd)
  | .addCharacterCmd c k => if s.pending.length < 1000 then [⟨c, k⟩] else []
  | .enter _ | .update | .environment _ => []

/-- The pairs of a room: those handled, then those pending. -/
def ledger (s : RoomSpec) : List (CharacterCmdPair Character Cmd) :=
  s.handled.map (·.2) ++ s.pending

/-- A step appends to the ledger what it accepts, and changes nothing else of it. -/
theorem Step.ledger {p : Platform} {s s' : RoomSpec} {op : RoomStateGroup.Op}
    (h : RoomSpec.Step p s op s') : s'.ledger = s.ledger ++ s.accepts op := by
  cases h with
  | enter c => exact (List.append_nil _).symm
  | addCharacterCmd c k => exact (List.append_assoc _ _ _).symm
  | idle hq => exact (List.append_nil _).symm
  | handle hq hphase =>
    simp only [RoomSpec.ledger, hq, accepts, List.map_append, List.map_cons, List.map_nil,
      List.append_assoc, List.singleton_append, List.append_nil]
  | environment w => exact (List.append_nil _).symm

end RoomSpec

/-! ## Runs of a room -/

namespace RoomStateGroup

variable {p : Platform} {id : BitVec 64} {creator : Character} {config : RoomStateConfig}
variable {roomCapacity : Int} {w : World} {r₀ r : Room} {ts : List (Transition Room Op)}

/-- The call `addCharacterCmd(c, k)` on the room returns `b`. -/
def Answers (r : Room) (c : Character) (k : Cmd) (b : Bool) : Prop :=
  ∃ r', AbstractStateGroup.addCharacterCmd c k r = .ok b r'

theorem answers_iff {c : Character} {k : Cmd} {b : Bool} :
    Answers r c k b ↔ decide (r.pending.length < 1000) = b := by
  rw [Answers, addCharacterCmd_eq]
  exact ⟨fun ⟨_, h⟩ => by injection h, fun h => ⟨_, by rw [h]⟩⟩

instance (r : Room) (c : Character) (k : Cmd) (b : Bool) : Decidable (Answers r c k b) :=
  decidable_of_iff _ answers_iff.symm

/-- The pairs for which `addCharacterCmd` returned true in a run, in order. -/
def accepted : List (Transition Room Op) → List (CharacterCmdPair Character Cmd)
  | [] => []
  | t :: ts =>
    (match t.label with
      | .addCharacterCmd c k => if Answers t.before c k true then [⟨c, k⟩] else []
      | .enter _ | .update | .environment _ => []) ++ accepted ts

theorem accepted_append (us vs : List (Transition Room Op)) :
    accepted (us ++ vs) = accepted us ++ accepted vs := by
  induction us with
  | nil => rfl
  | cons t us ih => simp only [List.cons_append, accepted, ih, List.append_assoc]

/-- A step accepts what its specification says. -/
theorem accepted_single (ph : Phase) (op : Op) (r' : Room) :
    accepted [⟨r, op, r'⟩] = (r.toSpec ph).accepts op := by
  cases op with
  | enter c => rfl
  | addCharacterCmd c k =>
    simp only [accepted, answers_iff, decide_eq_true_eq, List.append_nil]
    rfl
  | update => rfl
  | environment w => rfl

/-- The ledger of a run: what was accepted has been handed over, or is pending. -/
theorem run_ledger (hc : create p id creator config roomCapacity w = some r₀)
    (hr : Run (Step p) r₀ ts r) : r.handled.map (·.2) ++ r.pending = accepted ts := by
  induction hr with
  | nil =>
    have hspec := (create_spec hc).2.1
    exact congrArg RoomSpec.ledger hspec
  | @snoc ts r₁ r₂ op hrun hs ih =>
    obtain ⟨ph, h⟩ := run_inPhase hc hrun
    obtain ⟨ph', -, hspec⟩ := refines h hs
    have hledger := hspec.ledger
    rw [accepted_append, accepted_single ph, ← ih]
    exact hledger

/-- Queue exactness. In every run of a room that was created: the pairs handed to `handleCmd` and
then the pending ones are the accepted ones, in order; `addCharacterCmd` returns false exactly when
1000 pairs are pending; and an update of a room with pending pairs hands the oldest one, and no
other, to the state that is current at that moment, whatever its methods throw. -/
theorem queue_exact (hc : create p id creator config roomCapacity w = some r₀)
    (hr : Run (Step p) r₀ ts r) :
    r.handled.map (·.2) ++ r.pending = accepted ts ∧
      (∀ t ∈ ts, ∀ c k, t.label = .addCharacterCmd c k →
        (Answers t.before c k false ↔ t.before.pending.length = 1000)) ∧
      (∀ t ∈ ts, t.label = .update → ∀ pair rest, t.before.pending = pair :: rest →
        ∃ code, t.before.currentCode = some code ∧
          t.after.handled = t.before.handled ++ [(code, pair)] ∧ t.after.pending = rest) := by
  refine ⟨run_ledger hc hr, fun t ht c k hl => ?_, fun t ht hl pair rest hq => ?_⟩
  · have hbound := t.before.group.cmdQueue.bound
    rw [answers_iff, decide_eq_false_iff_not, Room.pending]
    omega
  · obtain ⟨ph, -, h, -, hafter, -⟩ := run_refines hc hr t ht
    rw [hl] at hafter
    have hh := update_handles h hq
    have hafter' : t.after = endState AbstractStateGroup.update t.before := hafter
    rw [hafter']
    exact ⟨ph.code, h.currentCode, hh.handled, (List.cons.inj (hh.pending.symm.trans hq)).2⟩

/-- Bob's two commands and an update: the first has been handed over, the second is pending. -/
theorem queue_exact_aliceRoom : ∃ ts, accepted ts = [⟨bob, Cmd.of 1 []⟩, ⟨bob, Cmd.of 2 []⟩] ∧
    ∃ r : Room, r.handled.map (·.2) ++ r.pending = accepted ts :=
  ⟨transitions .standard aliceRoom
      [.addCharacterCmd bob (Cmd.of 1 []), .addCharacterCmd bob (Cmd.of 2 []), .update],
    rfl, _, (queue_exact create_aliceRoom (run_transitions .standard _ _)).1⟩

end RoomStateGroup

end WebRtcNetty
