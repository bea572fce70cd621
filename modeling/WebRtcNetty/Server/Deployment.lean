import WebRtcNetty.Server.Ledger
import WebRtcNetty.State.Worker

/-!
# The server with its own workers

Elsewhere any room may be updated at any time. Here only a worker does that, in a pass over the
rooms that the manager has handed it. It has been handed none: `addStateGroup` replaces what is
there, and nothing is (`WorkerManager.Idle`). So on the server as it is deployed no room ever
handles a command: it stays in the phase it was built in, and what is sent to it fills its queue,
and is dropped once this is full (`run_unserved`).
-/

namespace WebRtcNetty

open Java Proto2 Command Runs Server

namespace Deployment

/-! ## Passes -/

/-- A pass of a worker over the rooms it holds. Reference: `update`
(`StateGroupWorker.java:117`). -/
def pass (p : Platform) (worker : WorkerRef) : Exec Server Unit := do
  let s ← get
  (s.workerManager.workers worker).update p
    (fun r => do return RoomStateGroupFactory.canDepose p (← get) r)
    fun r => inRoom r AbstractStateGroup.update

/-- What can happen to the server: what its sessions do, the sweeps, and the passes. -/
inductive Op
  | server (op : Routing.Op)
  | pass (worker : WorkerRef)

def Op.run (p : Platform) : Op → Exec Server Unit
  | .server op => op.run p
  | .pass worker => Deployment.pass p worker

/-- A room is updated in a pass alone. -/
def Op.Allowed : Op → Prop
  | .server op => ∀ r, op ≠ .background (.update r)
  | .pass _ => True

/-- Every operation is atomic, and may throw. -/
def Step (p : Platform) (s : Server) (op : Op) (s' : Server) : Prop :=
  op.Allowed ∧ s' = endState (op.run p) s

/-- The pairs that a run offers to the queue of the room, in order. -/
def offers (r : RoomRef) (ts : List (Transition Server Op)) :
    List (CharacterCmdPair Character Cmd) :=
  ts.filterMap fun t => match t.label with
    | .server op => Routing.offer r ⟨t.before, op, t.after⟩
    | .pass _ => none

section
variable {p : Platform} {s s' : Server} {r : RoomRef}

/-! ## The manager -/

/-- The workers of the server hold no room. -/
def Idle (s : Server) : Prop := s.workerManager.Idle

theorem idle_inWorld {α : Type} (m : Exec World α) : Within (.preserving Idle) (inWorld m) := by
  intro s h
  rw [inWorld, endState_zoom]
  exact h

theorem idle_inRoom {α : Type} (r : RoomRef) (m : Exec Room α) :
    Within (.preserving Idle) (inRoom r m) := by
  intro s h
  rw [inRoom, endState_zoom]
  exact h

theorem allowsCommands_idle : Frame.AllowsCommands (.preserving Idle) where
  sending _ := ⟨fun _ _ _ h => h, fun _ h => h⟩
  queueing r _ _ := idle_inRoom r _

theorem allowsCreations_idle : Frame.AllowsCreations p (.preserving Idle) where
  creating c config s h := by
    unfold endState RoomStateGroupFactory.create
    dsimp only
    cases s.stateGroupMap.get s.idCounter with
    | some r => exact h
    | none =>
      dsimp only
      cases RoomStateGroup.create p s.idCounter c config s.roomCapacity s.world with
      | none => exact h
      | some room => exact h
  adding _ := .modify fun _ h => WorkerManager.Idle.addStateGroup h |>.1

theorem allowsCharacters_idle : Frame.AllowsCharacters (.preserving Idle) where
  finding session userId s h := by
    unfold endState ChatterFactory.findOrCreate
    cases s.characterMap.get userId with
    | some c => exact h
    | none => exact h
  attributing _ _ := idle_inWorld _
  displacing _ _ := idle_inWorld _

theorem idle_background (b : Background) : Within (.preserving Idle) (b.run p) := by
  cases b with
  | update r => exact .bind .read fun _ => .ite (idle_inRoom r _) (.pure ())
  | removeOffLine => exact .modify fun _ h => h
  | removeDeposedStateGroup => exact .modify fun _ h => h
  | removeWorker => exact .modify fun _ h => WorkerManager.Idle.removeWorker h
  | removeDeposedGroup worker =>
    exact .modify fun _ h => WorkerManager.Idle.removeDeposedGroup h worker
  | close session => exact idle_inWorld _

/-- No operation gives a worker a room. -/
theorem idle_step {op : Routing.Op} (hs : Routing.Step p s op s') (h : Idle s) : Idle s' := by
  cases hs
  exact Routing.op_within (F := .preserving Idle) allowsCommands_idle allowsCreations_idle
    allowsCharacters_idle (fun b => idle_background b s) op (fun _ r _ _ => idle_inRoom r _ s) h

/-- A pass of a worker that holds no room does nothing. -/
theorem pass_of_idle (h : Idle s) (worker : WorkerRef) : endState (pass p worker) s = s := by
  have hnil : p.iterate (s.workerManager.workers worker).stateGroupMap.values = [] := by
    rw [h.empty worker]
    exact (p.iterate_perm _).eq_nil
  rw [pass, endState_get_bind, StateGroupWorker.update, hnil]
  rfl

/-! ## The rooms -/

/-- A room that has never handled a command. -/
structure Unserved (p : Platform) (r : RoomRef) (offered : List (CharacterCmdPair Character Cmd))
    (s : Server) : Prop where
  inPhase : ((Server.room r).get s).InPhase p .waiting
  isClosed : ((Server.room r).get s).roomData.isClosed = false
  handled : ((Server.room r).get s).handled = []
  pending : ((Server.room r).get s).pending = offered.take 1000

/-- A queue that is filled from its front takes another pair exactly while it has place. -/
theorem take_offer (xs : List (CharacterCmdPair Character Cmd))
    (x? : Option (CharacterCmdPair Character Cmd)) :
    (xs ++ x?.toList).take 1000 =
      xs.take 1000 ++ (if (xs.take 1000).length < 1000 then x? else none).toList := by
  have hone : x?.toList.length ≤ 1 := Option.length_toList_le
  rw [List.length_take]
  by_cases hlt : xs.length < 1000
  · have hle : (xs ++ x?.toList).length ≤ 1000 := by
      rw [List.length_append]
      omega
    rw [if_pos (by omega), List.take_of_length_le hlt.le, List.take_of_length_le hle]
  · rw [if_neg (by omega), List.take_append_of_le_length (by omega), Option.toList_none,
      List.append_nil]

/-- An operation on the server other than an update leaves the rooms unserved. -/
theorem unserved_step {op : Routing.Op} (hwf : s.WellFormed p) (hs : Routing.Step p s op s')
    (hop : ∀ r, op ≠ .background (.update r)) (hr : r < s.roomCount)
    {offered : List (CharacterCmdPair Character Cmd)} (h : Unserved p r offered s) :
    Unserved p r (offered ++ (Routing.offer r ⟨s, op, s'⟩).toList) s' := by
  have hledger := Routing.ledger_step hwf hs hr
  have hspec := Routing.spec_step hwf hs hr
  have hkept : ((Server.room r).get s').InPhase p .waiting ∧
      ((Server.room r).get s').roomData.isClosed = false ∧
      ((Server.room r).get s').handled = [] := by
    cases honRoom : op.onRoom r s with
    | none =>
      rw [honRoom] at hspec
      have hroom : (Server.room r).get s' = ((Server.room r).get s).setWorld s'.world :=
        congrArg (·.toRoom s'.world) hspec
      rw [hroom]
      exact ⟨⟨h.inPhase.stateMap, h.inPhase.currentState⟩, h.isClosed, h.handled⟩
    | some op' =>
      have hop' : op' ≠ .update := by
        rintro rfl
        exact hop r (Routing.eq_update_of_onRoom honRoom)
      rw [honRoom] at hspec
      obtain ⟨ph, ph', hph, hph', hspec⟩ := hspec
      obtain rfl := hph.unique h.inPhase
      obtain ⟨hphase, hhandled⟩ := hspec.of_ne_update hop'
      have hwaiting : ph' = .waiting := hphase
      subst hwaiting
      refine ⟨hph', ?_, hhandled.trans h.handled⟩
      by_contra hclosed
      exact hop' (hspec.closes h.isClosed (Bool.eq_true_of_not_eq_false hclosed)).1
  obtain ⟨hinPhase, hclosed, hhandled⟩ := hkept
  refine ⟨hinPhase, hclosed, hhandled, ?_⟩
  rw [Routing.ledger, Routing.ledger, hhandled, h.handled] at hledger
  rw [take_offer, ← h.pending]
  exact hledger

end

/-! ## Runs -/

section
variable {p : Platform} {remoteAddress : SessionRef → Option String} {sendFails : Nat → Bool}
variable {roomCapacity updateWaitTime stateGroupCapacity : Int} {m : WorkerManager RoomRef}
variable {ts : List (Transition Server Op)} {s : Server} {r : RoomRef}

/-- The passes of a run apart, which do nothing, it is a run without updates. -/
theorem run_server (h : WorkerManager.new updateWaitTime stateGroupCapacity = some m)
    (hr : Run (Step p) (initial (.initial remoteAddress sendFails) roomCapacity m) ts s) :
    Idle s ∧ ∃ us, Run (Routing.Step p) (initial (.initial remoteAddress sendFails) roomCapacity m)
      us s ∧ (∀ t ∈ us, ∀ r, t.label ≠ .background (.update r)) ∧
      ∀ r, offers r ts = us.filterMap (Routing.offer r) := by
  induction hr with
  | nil => exact ⟨.new h, [], .nil, fun _ ht => absurd ht List.not_mem_nil, fun _ => rfl⟩
  | @snoc ts s₁ s₂ op hrun hs ih =>
    obtain ⟨hidle, us, hus, hnone, hoffers⟩ := ih
    obtain ⟨hop, rfl⟩ := hs
    cases op with
    | server op =>
      refine ⟨idle_step (Routing.Step.of p s₁ op) hidle, _, hus.snoc (Routing.Step.of p s₁ op),
        fun t ht => ?_, fun r => ?_⟩
      · rcases List.mem_append.1 ht with ht | ht
        · exact hnone t ht
        · cases List.mem_singleton.1 ht
          exact hop
      · rw [offers, List.filterMap_append, List.filterMap_append, ← hoffers]
        rfl
    | pass worker =>
      have hsame : endState (Op.run p (.pass worker)) s₁ = s₁ := pass_of_idle hidle worker
      rw [hsame]
      refine ⟨hidle, us, hus, hnone, fun r => ?_⟩
      rw [offers, List.filterMap_append, ← hoffers]
      exact List.append_nil _

/-- In a run without updates every room stays unserved. -/
theorem unserved_run {us : List (Transition Server Routing.Op)}
    (hr : Run (Routing.Step p) (initial (.initial remoteAddress sendFails) roomCapacity m) us s)
    (hnone : ∀ t ∈ us, ∀ r, t.label ≠ .background (.update r)) (hlt : r < s.roomCount) :
    Unserved p r (us.filterMap (Routing.offer r)) s := by
  induction hr with
  | nil => exact absurd hlt (Nat.not_lt_zero r)
  | @snoc us s₁ s₂ op hrun hs ih =>
    have hwf := Routing.run_wellFormed hrun
    have hop : ∀ r, op ≠ .background (.update r) := hnone ⟨s₁, op, s₂⟩ (by simp)
    have hsnoc : (us ++ [⟨s₁, op, s₂⟩] : List (Transition Server Routing.Op)).filterMap
        (Routing.offer r) =
          us.filterMap (Routing.offer r) ++ (Routing.offer r ⟨s₁, op, s₂⟩).toList := by
      rw [List.filterMap_append, List.filterMap_cons]
      cases Routing.offer r ⟨s₁, op, s₂⟩ with
      | none => rfl
      | some pair => rfl
    rw [hsnoc]
    by_cases hold : r < s₁.roomCount
    · exact unserved_step hwf hs hop hold (ih (fun t ht => hnone t (by simp [ht])) hold)
    · obtain ⟨creator, r₀, hcreates⟩ := Routing.creates_step hs hold hlt
      have hroom := hcreates.built.2.2
      obtain ⟨_, _, _, -, -, -, hc, -⟩ := hcreates
      obtain ⟨hph, hspec, -⟩ := create_spec hc
      -- Nothing is offered to a room before it is there.
      have hnil : us.filterMap (Routing.offer r) = [] := by
        have honRoom := List.filterMap_eq_nil_iff.1 (Routing.onRoom_of_run hrun hold)
        refine List.filterMap_eq_nil_iff.2 fun t ht => ?_
        rw [Routing.offer, honRoom t ht]
      have hoffer : Routing.offer r ⟨s₁, op, s₂⟩ = none := by
        rw [Routing.offer, Routing.onRoom_of_not_lt hwf hold]
      rw [hnil, hoffer]
      exact ⟨hroom ▸ hph, hroom ▸ congrArg (·.data.isClosed) hspec,
        hroom ▸ congrArg (·.handled) hspec, hroom ▸ congrArg (·.pending) hspec⟩

/-- In every run of the server with its own workers, no pass of a worker does anything, and every
room is waiting and open, has handled nothing, and has in its queue the first 1000 commands that
have been offered to it. -/
theorem run_unserved (h : WorkerManager.new updateWaitTime stateGroupCapacity = some m)
    (hr : Run (Step p) (initial (.initial remoteAddress sendFails) roomCapacity m) ts s) :
    (∀ t ∈ ts, ∀ worker, t.label = .pass worker → t.after = t.before) ∧
      ∀ r < s.roomCount, Unserved p r (offers r ts) s := by
  refine ⟨fun t ht worker hl => ?_, fun r hlt => ?_⟩
  · obtain ⟨us, vs, -, hbefore, hs⟩ := hr.mem ht
    obtain ⟨hidle, -⟩ := run_server h hbefore
    rw [hl] at hs
    exact hs.2.trans (pass_of_idle hidle worker)
  · obtain ⟨-, us, hus, hnone, hoffers⟩ := run_server h hr
    rw [hoffers]
    exact unserved_run hus hnone hlt

end

/-! ## Alice's room -/

/-- The transitions of a run of operations. -/
def transitions (p : Platform) (s : Server) (ops : List Op) : List (Transition Server Op) :=
  trace (fun s op => endState (op.run p) s) s ops

theorem run_transitions (p : Platform) : ∀ (ops : List Op) (s : Server),
    (∀ op ∈ ops, op.Allowed) →
      Run (Step p) s (transitions p s ops) (ops.foldl (fun s op => endState (op.run p) s) s)
  | [], _, _ => .nil
  | op :: ops, _, h => .cons ⟨h op List.mem_cons_self, rfl⟩
      (run_transitions p ops _ fun op' hop' => h op' (List.mem_cons_of_mem op hop'))

/-- Alice sends her room the command that closes it, and a worker makes a pass. -/
def awaits : List Op := (Routing.closesOwn.take 5).map .server ++ [.pass 0]

/-- On the server with the properties the application starts with (`application.yml`), the command
is in the queue for good. -/
theorem run_unserved_alice : ∃ s,
    Run (Step .standard) start (transitions .standard start awaits) s ∧
      offers 0 (transitions .standard start awaits) =
        [⟨⟨0, "alice", none⟩, Cmd.of CmdType.closeRoom []⟩] ∧
      Unserved .standard 0 (offers 0 (transitions .standard start awaits)) s := by
  have hr := run_transitions .standard awaits start
    (by simp [awaits, Routing.closesOwn, Routing.entersOwn, Op.Allowed])
  exact ⟨_, hr, by rfl, (run_unserved (Option.some_get rfl).symm hr).2 0 (by decide +kernel)⟩

end Deployment

end WebRtcNetty
