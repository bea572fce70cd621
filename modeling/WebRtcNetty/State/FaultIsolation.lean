import WebRtcNetty.State.Worker
import WebRtcNetty.Chat.RoomStateGroup

/-!
# Groups that throw

A worker's thread passes over the groups that the worker holds, again and again. Nothing on the way
catches what a group throws: not the pass, nor the loop. `run` has the loop, over passes in which
each call of a group's methods returns or throws as it likes, and records the calls of the groups'
`update()`. What a group throws costs the other groups nothing exactly if no group ever throws
(`isolated_iff`).
-/

namespace WebRtcNetty

open Java Command

namespace StateGroupWorker

variable {G : Type} (p : Platform)

/-- A pass of the loop: the worker at its beginning, with groups that are different objects, and how
the calls of the groups' methods end during it. -/
structure Pass (G : Type) where
  worker : StateGroupWorker G
  nodup : worker.stateGroupMap.values.Nodup
  canDepose : G → Except Throwable Bool
  updateGroup : G → Except Throwable Unit

/-- The groups a pass is over. -/
def Pass.groups (pass : Pass G) : List G := pass.worker.stateGroupMap.values

/-- `update()` in the pass with the number `i`. -/
def Pass.update (i : Nat) (pass : Pass G) : Exec (List (Nat × G)) Unit :=
  pass.worker.update p (fun g => orThrow (pass.canDepose g)) fun g => do
    modify fun calls => calls ++ [(i, g)]
    orThrow (pass.updateGroup g)

/-- The loop over these passes, from the one with the number `i` on. What sleeping and waiting
throw is caught. Reference: `run` (`StateGroupWorker.java:49`). -/
def run : Nat → List (Pass G) → Exec (List (Nat × G)) Unit
  | _, [] => pure ()
  | i, pass :: passes => do
    pass.update p i
    run (i + 1) passes

/-- Each pass calls `update()` once on every group whose `canDepose()` returns false, and the loop
goes on after it. -/
def Isolated [DecidableEq G] (passes : List (Pass G)) : Prop :=
  ∀ i pass, passes[i]? = some pass →
    (∀ g ∈ pass.groups, pass.canDepose g = .ok false →
      (endState (run p 0 passes) []).count (i, g) = 1) ∧
    Returns (run p 0 (passes.take (i + 1))) []

/-- The group throws neither in `canDepose()`, nor in an `update()` that follows it. -/
def Pass.Quiet (pass : Pass G) (g : G) : Prop :=
  ∃ depose, pass.canDepose g = .ok depose ∧ (depose = false → pass.updateGroup g = .ok ())

/-! ## A pass -/

section
variable {p} {pass : Pass G} {i : Nat} {calls : List (Nat × G)} {g : G}

/-- What the pass does with a group. -/
def Pass.visit (i : Nat) (pass : Pass G) (g : G) : Exec (List (Nat × G)) Unit := do
  if ← orThrow (pass.canDepose g) then pure ()
  else
    modify fun calls => calls ++ [(i, g)]
    orThrow (pass.updateGroup g)

/-- The group is to be updated. -/
def Pass.live (pass : Pass G) (g : G) : Bool := pass.canDepose g matches .ok false

theorem Pass.live_iff : pass.live g = true ↔ pass.canDepose g = .ok false := by
  rw [Pass.live]
  split
  · next h => exact iff_of_true rfl h
  · next h => exact iff_of_false Bool.false_ne_true h

theorem Pass.visit_ok (h : pass.Quiet g) (calls : List (Nat × G)) :
    pass.visit i g calls = .ok () (calls ++ ([g].filter pass.live).map (i, ·)) := by
  obtain ⟨depose, hd, hu⟩ := h
  have hcan : orThrow (pass.canDepose g) calls = .ok depose calls := by rw [hd]; rfl
  rw [visit, run_bind_ok hcan]
  cases depose with
  | true =>
    have hlive : ¬ pass.live g = true := fun hl => by rw [live_iff.1 hl] at hd; cases hd
    rw [List.filter_cons_of_neg hlive, List.filter_nil, List.map_nil, List.append_nil]
    rfl
  | false =>
    rw [List.filter_cons_of_pos (live_iff.2 hd), hu rfl]
    rfl

/-- A visit that returns is one of a group that does not throw. -/
theorem Pass.quiet_of_returns (h : Returns (pass.visit i g) calls) : pass.Quiet g := by
  obtain ⟨_, calls', h⟩ := h
  obtain ⟨depose, calls₁, hcan, hrest⟩ := bind_eq_ok h
  cases hd : pass.canDepose g with
  | error e => rw [hd] at hcan; cases hcan
  | ok depose' =>
    rw [hd] at hcan
    cases hcan
    refine ⟨depose, hd, ?_⟩
    rintro rfl
    obtain ⟨_, calls₂, -, hup⟩ := bind_eq_ok hrest
    cases hu : pass.updateGroup g with
    | ok u => rfl
    | error e => rw [hu] at hup; cases hup

theorem Pass.forEach_visit (gs : List G) (h : ∀ g ∈ gs, pass.Quiet g) (calls : List (Nat × G)) :
    forEach gs (pass.visit i) calls = .ok () (calls ++ (gs.filter pass.live).map (i, ·)) := by
  induction gs generalizing calls with
  | nil =>
    rw [List.filter_nil, List.map_nil, List.append_nil]
    rfl
  | cons g gs ih =>
    rw [forEach, run_bind_ok (visit_ok (h g (by simp)) calls), ih fun g' hg => h g' (by simp [hg])]
    rw [List.append_assoc, ← List.map_append, ← List.filter_append, List.singleton_append]

theorem Pass.forEach_quiet (gs : List G) (h : Returns (forEach gs (pass.visit i)) calls) :
    ∀ g ∈ gs, pass.Quiet g := by
  induction gs generalizing calls with
  | nil => exact fun g hg => nomatch hg
  | cons g gs ih =>
    obtain ⟨_, calls', h⟩ := h
    obtain ⟨_, calls₁, hg, hgs⟩ := bind_eq_ok h
    intro g' hg'
    rcases List.mem_cons.1 hg' with rfl | hg'
    · exact quiet_of_returns ⟨_, _, hg⟩
    · exact ih ⟨_, _, hgs⟩ g' hg'

/-- The calls of a pass in which no group throws, in order. -/
def Pass.updates (p : Platform) (i : Nat) (pass : Pass G) : List (Nat × G) :=
  ((p.iterate pass.groups).filter pass.live).map (i, ·)

theorem Pass.update_ok (h : ∀ g ∈ pass.groups, pass.Quiet g) (calls : List (Nat × G)) :
    pass.update p i calls = .ok () (calls ++ pass.updates p i) :=
  forEach_visit _ (fun g hg => h g ((p.iterate_perm _).mem_iff.1 hg)) calls

theorem Pass.update_quiet (h : Returns (pass.update p i) calls) : ∀ g ∈ pass.groups, pass.Quiet g :=
  fun g hg => forEach_quiet _ h g ((p.iterate_perm _).mem_iff.2 hg)

end

/-! ## The loop -/

section
variable {p} {passes : List (Pass G)} {calls : List (Nat × G)} {i : Nat}

/-- The calls of passes in which no group throws. -/
def callsFrom (p : Platform) : Nat → List (Pass G) → List (Nat × G)
  | _, [] => []
  | i, pass :: passes => pass.updates p i ++ callsFrom p (i + 1) passes

theorem run_ok (h : ∀ pass ∈ passes, ∀ g ∈ pass.groups, pass.Quiet g) (i : Nat)
    (calls : List (Nat × G)) : run p i passes calls = .ok () (calls ++ callsFrom p i passes) := by
  induction passes generalizing i calls with
  | nil => rw [callsFrom, List.append_nil]; rfl
  | cons pass passes ih =>
    rw [run, run_bind_ok (Pass.update_ok (h pass (by simp)) calls),
      ih fun pass' hp => h pass' (by simp [hp])]
    rw [callsFrom, List.append_assoc]

theorem run_quiet (h : Returns (run p i passes) calls) :
    ∀ pass ∈ passes, ∀ g ∈ pass.groups, pass.Quiet g := by
  induction passes generalizing i calls with
  | nil => exact fun pass hp => nomatch hp
  | cons pass passes ih =>
    obtain ⟨_, calls', h⟩ := h
    obtain ⟨_, calls₁, hpass, hrest⟩ := bind_eq_ok h
    intro pass' hp
    rcases List.mem_cons.1 hp with rfl | hp
    · exact Pass.update_quiet ⟨_, _, hpass⟩
    · exact ih ⟨_, _, hrest⟩ pass' hp

variable [DecidableEq G]

/-- A group to be updated is updated once in its pass. -/
theorem Pass.count_updates {pass : Pass G} {g : G} (hg : g ∈ pass.groups)
    (hlive : pass.live g = true) : (pass.updates p i).count (i, g) = 1 := by
  have hnodup : ((p.iterate pass.groups).filter pass.live).Nodup :=
    ((p.iterate_perm _).nodup_iff.2 pass.nodup).filter _
  have hinj : Function.Injective (Prod.mk i : G → Nat × G) := Prod.mk_right_injective i
  refine List.count_eq_one_of_mem (hnodup.map hinj) (List.mem_map_of_mem ?_)
  exact List.mem_filter.2 ⟨(p.iterate_perm _).mem_iff.2 hg, hlive⟩

theorem Pass.count_updates_ne {pass : Pass G} {j : Nat} (h : j ≠ i) (g : G) :
    (pass.updates p i).count (j, g) = 0 := by
  refine List.count_eq_zero.2 fun hmem => ?_
  obtain ⟨g', -, hg'⟩ := List.mem_map.1 hmem
  exact h (congrArg Prod.fst hg').symm

/-- The passes to come belong to later numbers. -/
theorem count_callsFrom_lt {j : Nat} (h : j < i) (g : G) :
    (callsFrom p i passes).count (j, g) = 0 := by
  induction passes generalizing i with
  | nil => rfl
  | cons pass passes ih =>
    rw [callsFrom, List.count_append, Pass.count_updates_ne (Nat.ne_of_lt h),
      ih (Nat.lt_succ_of_lt h)]

theorem count_callsFrom {pass : Pass G} {g : G} {k : Nat} (hk : passes[k]? = some pass)
    (hg : g ∈ pass.groups) (hlive : pass.live g = true) :
    (callsFrom p i passes).count (i + k, g) = 1 := by
  induction passes generalizing i k with
  | nil => cases hk
  | cons pass' passes ih =>
    rw [callsFrom, List.count_append]
    cases k with
    | zero =>
      cases hk
      rw [Nat.add_zero, Pass.count_updates hg hlive, count_callsFrom_lt (Nat.lt_succ_self i)]
    | succ k =>
      rw [Pass.count_updates_ne (by omega), Nat.zero_add, ← Nat.add_assoc, Nat.add_right_comm]
      exact ih hk

end

/-- The groups are isolated from each other exactly if none of them ever throws. -/
theorem isolated_iff [DecidableEq G] (passes : List (Pass G)) :
    Isolated p passes ↔ ∀ pass ∈ passes, ∀ g ∈ pass.groups, pass.Quiet g := by
  constructor
  · intro h pass hp
    obtain ⟨i, hi⟩ := List.mem_iff_getElem?.1 hp
    refine run_quiet (h i pass hi).2 pass (List.mem_of_getElem? (i := i) ?_)
    rw [List.getElem?_take, if_pos (Nat.lt_succ_self i), hi]
  · intro h i pass hi
    refine ⟨fun g hg hlive => ?_, ?_⟩
    · rw [endState_ok (run_ok h 0 []), List.nil_append]
      have hcount := count_callsFrom (p := p) (i := 0) hi hg (Pass.live_iff.2 hlive)
      rwa [Nat.zero_add] at hcount
    · exact ⟨_, _, run_ok (fun pass hp => h pass (List.mem_of_mem_take hp)) 0 []⟩

/-! ## A room that throws -/

/-- A worker with the rooms 1 and 2. -/
def roomWorker : StateGroupWorker Nat where
  id := 1
  stateGroupCapacity := 10
  stateGroupMap := HashMap.put (HashMap.put ∅ 2 2) 1 1
  started := true

/-- Its pass over these rooms. -/
def roomPass (room : Nat → Room) : Pass Nat where
  worker := roomWorker
  nodup := by decide
  canDepose g := .ok (RoomStateGroup.canDepose .standard (room g))
  updateGroup g :=
    match AbstractStateGroup.update (room g) with
    | .ok _ _ => .ok ()
    | .error e _ => .error e

/-- Alice is on line in both rooms, and room 1 has a command of hers that no state can handle.
Sending to her fails. -/
def failingRoom (g : Nat) : Room :=
  let w : World := { World.initial (fun _ => some "127.0.0.1") (fun _ => true) with
    chatters := fun _ => ⟨0, true, 1⟩ }
  let r := { RoomStateGroup.aliceRoom with
    mem.roomData := RoomStateGroup.aliceRoom.mem.roomData.addCharacter RoomStateGroup.alice
    mem.world := w }
  if g = 1 then endState (AbstractStateGroup.addCharacterCmd RoomStateGroup.alice (Cmd.of 99 [])) r
  else r

/-- The error handler of room 1 throws when it tells alice, so that room 2 is not updated. -/
theorem isolated_counterexample :
    (roomPass failingRoom).canDepose 2 = .ok false ∧ 2 ∈ (roomPass failingRoom).groups ∧
      ¬ Isolated .standard [roomPass failingRoom] := by
  have hcan : (roomPass failingRoom).canDepose 2 = .ok false :=
    congrArg Except.ok (by decide +kernel)
  have hmem : 2 ∈ (roomPass failingRoom).groups := by decide +kernel
  refine ⟨hcan, hmem, fun h => ?_⟩
  have hcount := (h 0 _ rfl).1 2 hmem hcan
  revert hcount
  decide +kernel

end StateGroupWorker

end WebRtcNetty
