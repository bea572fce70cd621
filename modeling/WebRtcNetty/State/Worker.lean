import Mathlib.Logic.Function.Basic
import WebRtcNetty.Lib.Run
import WebRtcNetty.Lib.Java.Binary32
import WebRtcNetty.Lib.Java.Exec
import WebRtcNetty.Lib.Java.Collections
import WebRtcNetty.Lib.Java.Platform

/-!
# Workers and their manager

`StateGroupWorker` and `WorkerManager` (`state-machine/.../state`): a worker updates the groups it
holds, and the manager hands each new group to a started worker that is not full, or to a new one.
The groups are arbitrary. Whether one of them can be deposed may change between two steps, so every
step carries the answers `canDepose` that the groups give during it.

A worker's map is written by `computeIfPresent` and `removeIf` alone, neither of which makes an
entry for a new key: `Idle.run` says that no worker of a reachable manager ever holds a group. So
`addStateGroup` never does what it owes its caller (`addStateGroup_not_added`), and the group is
lost (`addStateGroup_lost`).
-/

namespace WebRtcNetty

open Java Runs

/-! ## A worker -/

/-- A worker without its thread. Reference: `StateGroupWorker` (`StateGroupWorker.java:10`). -/
structure StateGroupWorker (G : Type) where
  id : BitVec 64
  stateGroupCapacity : Nat
  stateGroupMap : HashMap (BitVec 64) G
  started : Bool

namespace StateGroupWorker

variable {G σ : Type}

/-- Reference: the constructor (`StateGroupWorker.java:30`). -/
def new (id : BitVec 64) (stateGroupCapacity : Nat) : StateGroupWorker G where
  id := id
  stateGroupCapacity := stateGroupCapacity
  stateGroupMap := ∅
  started := false

/-- Reference: `removeDeposedGroup` (`StateGroupWorker.java:43`). -/
def removeDeposedGroup (canDepose : G → Bool) (w : StateGroupWorker G) : StateGroupWorker G :=
  { w with stateGroupMap := w.stateGroupMap.removeIf fun _ g => canDepose g }

/-- `size() >= stateGroupCapacity * 0.75f`, where both sides are `float`s. Reference:
`tryAddOneStateGroup` (`StateGroupWorker.java:72`). -/
def isFull (w : StateGroupWorker G) : Bool :=
  toFloat (3 * toFloat w.stateGroupCapacity) ≤ 4 * toFloat w.stateGroupMap.size

/-- Reference: `tryAddOneStateGroup` (`StateGroupWorker.java:71`). -/
def tryAddOneStateGroup (getId : G → BitVec 64) (canDepose : G → Bool) (stateGroup : G)
    (w : StateGroupWorker G) : Bool × StateGroupWorker G :=
  if w.isFull then
    (false, w)
  else
    (true, { w with
      stateGroupMap := w.stateGroupMap.computeIfPresent (getId stateGroup) fun v =>
        if canDepose v then stateGroup else v })

/-- Reference: `start` (`StateGroupWorker.java:90`). -/
def start (w : StateGroupWorker G) : StateGroupWorker G := { w with started := true }

/-- Reference: `stop` (`StateGroupWorker.java:107`). -/
def stop (w : StateGroupWorker G) : StateGroupWorker G := { w with started := false }

/-- Reference: `isEmpty` (`StateGroupWorker.java:127`). -/
def isEmpty (w : StateGroupWorker G) : Bool := w.stateGroupMap.size == 0

/-- Reference: `update` (`StateGroupWorker.java:117`), over groups whose methods run on a memory
`σ`. -/
def update (p : Platform) (canDepose : G → Exec σ Bool) (updateGroup : G → Exec σ Unit)
    (w : StateGroupWorker G) : Exec σ Unit :=
  forEach (p.iterate w.stateGroupMap.values) fun stateGroup => do
    if ← canDepose stateGroup then pure () else updateGroup stateGroup

/-- The groups whose `update()` a pass calls, in order, when the groups answer `canDepose` all
along. -/
def updated (p : Platform) (canDepose : G → Bool) (w : StateGroupWorker G) : List G :=
  endState (w.update p (fun g => pure (canDepose g)) fun g => modify fun calls => calls ++ [g]) []

end StateGroupWorker

/-! ## The manager -/

/-- An object identity: the workers are created one after another. -/
abbrev WorkerRef := Nat

/-- The manager and the workers it has created. The check of its constructor is a field. Reference:
`WorkerManager` (`WorkerManager.java:12`). -/
structure WorkerManager (G : Type) where
  idCount : BitVec 64
  stateGroupCapacity : Nat
  capacity_ge : 8 ≤ stateGroupCapacity
  workerMap : HashMap (BitVec 64) WorkerRef
  workers : WorkerRef → StateGroupWorker G
  created : Nat

namespace WorkerManager

variable {G : Type}

/-- Reference: the constructor (`WorkerManager.java:26`); `none` where a check throws. -/
def new (updateWaitTime stateGroupCapacity : Int) : Option (WorkerManager G) :=
  if h : 0 < updateWaitTime ∧ 8 ≤ stateGroupCapacity then
    some {
      idCount := 1
      stateGroupCapacity := stateGroupCapacity.toNat
      capacity_ge := by omega
      workerMap := ∅
      workers := fun _ => .new 0 stateGroupCapacity.toNat
      created := 0 }
  else
    none

/-- Writes a worker back. -/
def setWorker (m : WorkerManager G) (r : WorkerRef) (w : StateGroupWorker G) : WorkerManager G :=
  { m with workers := Function.update m.workers r w }

section
variable (getId : G → BitVec 64) (canDepose : G → Bool) (stateGroup : G)

/-- Offers the group to one worker. Reference: `addStateGroup` (`WorkerManager.java:51`). -/
def tryAdd (m : WorkerManager G) (r : WorkerRef) : Bool × WorkerManager G :=
  let res := (m.workers r).tryAddOneStateGroup getId canDepose stateGroup
  (res.1, m.setWorker r res.2)

/-- The search for a started worker that takes the group. Reference: `addStateGroup`
(`WorkerManager.java:45-55`). -/
def search : List WorkerRef → WorkerManager G → Option WorkerRef × WorkerManager G
  | [], m => (none, m)
  | r :: rs, m =>
    if (m.workers r).started then
      let res := m.tryAdd getId canDepose stateGroup r
      if res.1 then (some r, res.2) else search rs res.2
    else
      search rs m

/-- `computeIfAbsent(id, ...)` with a new, started worker. Reference: `addStateGroup`
(`WorkerManager.java:58-65`). -/
def newWorker (m : WorkerManager G) : WorkerRef × WorkerManager G :=
  let id := m.idCount
  let m := { m with idCount := m.idCount + 1 }
  match m.workerMap.get id with
  | some r => (r, m)
  | none => (m.created, { m with
      workerMap := m.workerMap.put id m.created
      workers := Function.update m.workers m.created
        (StateGroupWorker.new id m.stateGroupCapacity).start
      created := m.created + 1 })

/-- The worker returned, and the manager afterwards. Reference: `addStateGroup`
(`WorkerManager.java:42`). -/
def addStateGroup (p : Platform) (m : WorkerManager G) : WorkerRef × WorkerManager G :=
  match m.search getId canDepose stateGroup (p.iterate m.workerMap.values) with
  | (some r, m) => (r, m)
  | (none, m) =>
    let res := m.newWorker
    (res.1, (res.2.tryAdd getId canDepose stateGroup res.1).2)

end

/-- The workers that a sweep drops: those not started, and the empty ones. Reference: `removeWorker`
(`WorkerManager.java:74-85`). -/
def drops (m : WorkerManager G) (r : WorkerRef) : Bool :=
  !(m.workers r).started || (m.workers r).isEmpty

/-- Reference: `removeWorker` (`WorkerManager.java:72`). The dropped workers are stopped, those not
started having been stopped before. -/
def removeWorker (m : WorkerManager G) : WorkerManager G :=
  { m with
    workerMap := m.workerMap.removeIf fun _ r => m.drops r
    workers := fun r =>
      if r ∈ m.workerMap.values ∧ m.drops r then (m.workers r).stop else m.workers r }

/-- Reference: `removeDeposedGroup` (`StateGroupWorker.java:43`), of one worker. -/
def removeDeposedGroup (canDepose : G → Bool) (r : WorkerRef) (m : WorkerManager G) :
    WorkerManager G :=
  m.setWorker r ((m.workers r).removeDeposedGroup canDepose)

/-! ## Runs -/

/-- What can happen to a manager. -/
inductive Op (G : Type)
  | addStateGroup (stateGroup : G)
  | removeWorker
  | removeDeposedGroup (worker : WorkerRef)
  | update (worker : WorkerRef)

/-- An operation, with the groups' answers during it. -/
structure Label (G : Type) where
  canDepose : G → Bool
  op : Op G

/-- The manager after an operation. A pass of a worker updates groups, and writes to no map. -/
def after (p : Platform) (getId : G → BitVec 64) (m : WorkerManager G) (l : Label G) :
    WorkerManager G :=
  match l.op with
  | .addStateGroup stateGroup => (m.addStateGroup getId l.canDepose stateGroup p).2
  | .removeWorker => m.removeWorker
  | .removeDeposedGroup r => m.removeDeposedGroup l.canDepose r
  | .update _ => m

/-- Every operation is atomic. -/
def Step (p : Platform) (getId : G → BitVec 64) (m : WorkerManager G) (l : Label G)
    (m' : WorkerManager G) : Prop :=
  m' = m.after p getId l

/-- The worker holds the group. -/
def Holds (m : WorkerManager G) (r : WorkerRef) (g : G) : Prop :=
  g ∈ (m.workers r).stateGroupMap.values

/-- No worker of the manager holds a group with this id. -/
def Fresh (m : WorkerManager G) (id : BitVec 64) : Prop :=
  ∀ r ∈ m.workerMap.values, (m.workers r).stateGroupMap.get id = none

/-- What `addStateGroup(stateGroup)` owes its caller: a started worker `r` that holds the group
under its id and is the only one to hold it; that updates it in each later pass as long as it cannot
be deposed; and that no sweep stops or drops while it holds the group and the group cannot be
deposed. -/
structure Added (p : Platform) (getId : G → BitVec 64) (m : WorkerManager G) (canDepose : G → Bool)
    (g : G) (r : WorkerRef) (m' : WorkerManager G) : Prop where
  returned : m.addStateGroup getId canDepose g p = (r, m')
  started : (m'.workers r).started = true
  held : (m'.workers r).stateGroupMap.get (getId g) = some g
  unique : ∀ r', r' ∈ m'.workerMap.values ∧ m'.Holds r' g ↔ r' = r
  updates : ∀ ts m'', Run (Step p getId) m' ts m'' → (∀ t ∈ ts, t.label.canDepose g = false) →
    ∀ t ∈ ts, t.label.op = .update r → g ∈ (t.before.workers r).updated p t.label.canDepose
  kept : ∀ ts m'', Run (Step p getId) m' ts m'' → ∀ t ∈ ts, t.label.op = .removeWorker →
    t.before.Holds r g → t.label.canDepose g = false →
      (t.after.workers r).started = true ∧ r ∈ t.after.workerMap.values

/-! ## No worker ever holds a group -/

/-- The workers of a reachable manager: they hold no group, and those in its map are started. -/
structure Idle (m : WorkerManager G) : Prop where
  empty : ∀ r, (m.workers r).stateGroupMap = ∅
  started : ∀ r ∈ m.workerMap.values, (m.workers r).started = true

section
variable {getId : G → BitVec 64} {canDepose : G → Bool} {g : G} {m : WorkerManager G}
variable {p : Platform}

theorem Idle.new {updateWaitTime stateGroupCapacity : Int}
    (h : WorkerManager.new updateWaitTime stateGroupCapacity = some m) : m.Idle := by
  unfold WorkerManager.new at h
  split at h
  · cases h
    refine ⟨fun _ => rfl, fun r hr => ?_⟩
    obtain ⟨k, hk⟩ := HashMap.mem_values.1 hr
    rw [HashMap.get_empty] at hk
    cases hk
  · cases h

/-- Offering a group to an empty worker leaves it empty: `computeIfPresent` finds no entry. -/
theorem tryAddOneStateGroup_empty {w : StateGroupWorker G} (hw : w.stateGroupMap = ∅) :
    (w.tryAddOneStateGroup getId canDepose g).2 = w := by
  unfold StateGroupWorker.tryAddOneStateGroup
  split
  · rfl
  · show { w with stateGroupMap := _ } = w
    rw [HashMap.computeIfPresent_of_none _ (by rw [hw]; exact HashMap.get_empty _)]

/-- An empty worker has nothing to remove. -/
theorem removeDeposedGroup_empty {w : StateGroupWorker G} (hw : w.stateGroupMap = ∅) :
    w.removeDeposedGroup canDepose = w := by
  unfold StateGroupWorker.removeDeposedGroup
  rw [hw]
  show { w with stateGroupMap := ∅ } = _
  rw [← hw]

theorem Idle.tryAdd (h : m.Idle) (r : WorkerRef) :
    (m.tryAdd getId canDepose g r).2 = m := by
  simp only [WorkerManager.tryAdd, setWorker, tryAddOneStateGroup_empty (h.empty r),
    Function.update_eq_self]

theorem Idle.search (h : m.Idle) :
    ∀ rs, (m.search getId canDepose g rs).2 = m ∧
      ∀ r, (m.search getId canDepose g rs).1 = some r → (m.workers r).started = true
  | [] => ⟨rfl, fun _ hr => by cases hr⟩
  | r :: rs => by
    simp only [WorkerManager.search]
    split
    · next hs =>
      split
      · exact ⟨h.tryAdd r, fun r' hr => by cases hr; exact hs⟩
      · rw [h.tryAdd r]; exact Idle.search h rs
    · exact Idle.search h rs

theorem newWorker_of_some {r : WorkerRef} (h : m.workerMap.get m.idCount = some r) :
    m.newWorker = (r, { m with idCount := m.idCount + 1 }) := by
  unfold WorkerManager.newWorker
  simp only [h]

theorem newWorker_of_none (h : m.workerMap.get m.idCount = none) :
    m.newWorker = (m.created, { m with
      idCount := m.idCount + 1
      workerMap := m.workerMap.put m.idCount m.created
      workers := Function.update m.workers m.created
        (StateGroupWorker.new m.idCount m.stateGroupCapacity).start
      created := m.created + 1 }) := by
  unfold WorkerManager.newWorker
  simp only [h]

theorem Idle.newWorker (h : m.Idle) :
    m.newWorker.2.Idle ∧ (m.newWorker.2.workers m.newWorker.1).started = true := by
  cases hget : m.workerMap.get m.idCount with
  | some r =>
    rw [newWorker_of_some hget]
    exact ⟨⟨h.empty, h.started⟩, h.started r (HashMap.mem_values.2 ⟨_, hget⟩)⟩
  | none =>
    rw [newWorker_of_none hget]
    refine ⟨⟨fun r => ?_, fun r hr => ?_⟩, ?_⟩
    · by_cases hr : r = m.created
      · subst hr; simp only [Function.update_self]; rfl
      · simp only [Function.update_of_ne hr]; exact h.empty r
    · by_cases hne : r = m.created
      · subst hne; simp only [Function.update_self]; rfl
      · obtain ⟨k, hk⟩ := HashMap.mem_values.1 hr
        rw [HashMap.get_put_eq] at hk
        split at hk
        · cases hk; exact absurd rfl hne
        · simp only [Function.update_of_ne hne]
          exact h.started r (HashMap.mem_values.2 ⟨k, hk⟩)
    · simp only [Function.update_self]; rfl

/-- Adding a group leaves every worker without one, and returns a started worker. -/
theorem Idle.addStateGroup (h : m.Idle) :
    (m.addStateGroup getId canDepose g p).2.Idle ∧
      ((m.addStateGroup getId canDepose g p).2.workers
        (m.addStateGroup getId canDepose g p).1).started = true := by
  have hsearch : (m.search getId canDepose g (p.iterate m.workerMap.values)).2 = m ∧ _ :=
    h.search _
  unfold WorkerManager.addStateGroup
  generalize m.search getId canDepose g (p.iterate m.workerMap.values) = res at hsearch
  obtain ⟨found, m₁⟩ := res
  obtain ⟨rfl, hr⟩ := hsearch
  cases found with
  | some r => exact ⟨h, hr r rfl⟩
  | none =>
    obtain ⟨hn, hs⟩ := h.newWorker
    simp only [hn.tryAdd]
    exact ⟨hn, hs⟩

/-- An idle manager drops and stops all its workers in a sweep. -/
theorem Idle.removeWorker_drops (h : m.Idle) :
    m.removeWorker.workerMap.values = [] ∧
      ∀ r ∈ m.workerMap.values, (m.removeWorker.workers r).started = false := by
  have hdrops : ∀ r, m.drops r = true := fun r => by
    have hempty : (m.workers r).isEmpty = true := by
      rw [StateGroupWorker.isEmpty, h.empty r]; rfl
    rw [drops, hempty, Bool.or_true]
  refine ⟨List.eq_nil_iff_forall_not_mem.2 fun r hr => ?_, fun r hr => ?_⟩
  · obtain ⟨k, hk⟩ := HashMap.mem_values.1 hr
    have hd := ((HashMap.get_removeIf _ _ k r).1 hk).2
    rw [hdrops r] at hd
    cases hd
  · simp only [removeWorker, if_pos (And.intro hr (hdrops r))]
    rfl

theorem Idle.removeWorker (h : m.Idle) : m.removeWorker.Idle := by
  refine ⟨fun r => ?_, fun r hr => ?_⟩
  · simp only [WorkerManager.removeWorker]
    split
    · exact h.empty r
    · exact h.empty r
  · rw [h.removeWorker_drops.1] at hr
    cases hr

theorem Idle.removeDeposedGroup (h : m.Idle) (r : WorkerRef) :
    (m.removeDeposedGroup canDepose r).Idle := by
  rw [WorkerManager.removeDeposedGroup, removeDeposedGroup_empty (h.empty r)]
  simp only [setWorker, Function.update_eq_self]
  exact h

/-- No operation gives a worker a group. -/
theorem Idle.after (h : m.Idle) (l : Label G) : (m.after p getId l).Idle := by
  unfold WorkerManager.after
  cases l.op with
  | addStateGroup stateGroup => exact h.addStateGroup.1
  | removeWorker => exact h.removeWorker
  | removeDeposedGroup r => exact h.removeDeposedGroup r
  | update r => exact h

/-- No run gives a worker a group. -/
theorem Idle.run {ts : List (Transition (WorkerManager G) (Label G))} {m' : WorkerManager G}
    (h : m.Idle) (hr : Run (Step p getId) m ts m') : m'.Idle :=
  hr.invariant h fun _ l _ hi hs => hs ▸ hi.after l

/-- An idle worker's pass updates no group. -/
theorem Idle.updated_eq_nil (h : m.Idle) (r : WorkerRef) :
    (m.workers r).updated p canDepose = [] := by
  have hnil : p.iterate (m.workers r).stateGroupMap.values = [] := by
    rw [h.empty r]
    exact (p.iterate_perm _).eq_nil
  rw [StateGroupWorker.updated, StateGroupWorker.update, hnil]
  rfl

end

/-! ## What happens to an added group -/

section
variable {getId : G → BitVec 64} {p : Platform} {updateWaitTime stateGroupCapacity : Int}
variable {m₀ m : WorkerManager G} {ts : List (Transition (WorkerManager G) (Label G))}

/-- A group handed to a reachable manager is lost: the worker returned is started, but in every
continuation no worker holds the group, no pass updates it, and each sweep drops every worker. -/
theorem addStateGroup_lost (h₀ : WorkerManager.new updateWaitTime stateGroupCapacity = some m₀)
    (hr : Run (Step p getId) m₀ ts m) (canDepose : G → Bool) (g : G)
    {us : List (Transition (WorkerManager G) (Label G))} {m' : WorkerManager G}
    (hu : Run (Step p getId) (m.addStateGroup getId canDepose g p).2 us m') :
    ((m.addStateGroup getId canDepose g p).2.workers
        (m.addStateGroup getId canDepose g p).1).started = true ∧
      (∀ r, ¬ m'.Holds r g) ∧
      (∀ r answers, (m'.workers r).updated p answers = []) ∧
      m'.removeWorker.workerMap.values = [] := by
  have hadded : (m.addStateGroup getId canDepose g p).2.Idle ∧ _ :=
    ((Idle.new h₀).run hr).addStateGroup
  obtain ⟨hadd, hstarted⟩ := hadded
  have hidle := hadd.run hu
  refine ⟨hstarted, fun r hh => ?_, fun r _ => hidle.updated_eq_nil r, hidle.removeWorker_drops.1⟩
  rw [Holds, hidle.empty r] at hh
  cases hh

/-- `addStateGroup` does what it owes its caller for no group and in no reachable state. -/
theorem addStateGroup_not_added
    (h₀ : WorkerManager.new updateWaitTime stateGroupCapacity = some m₀)
    (hr : Run (Step p getId) m₀ ts m) (canDepose : G → Bool) (g : G) (r : WorkerRef)
    (m' : WorkerManager G) : ¬ Added p getId m canDepose g r m' := by
  intro hadded
  have hidle : (m.addStateGroup getId canDepose g p).2.Idle :=
    ((Idle.new h₀).run hr).addStateGroup.1
  rw [hadded.returned] at hidle
  have hheld := hadded.held
  rw [hidle.empty r] at hheld
  cases hheld

end

/-- The first group that a new manager is handed, with the properties the application starts with
(`application.yml`): its id is new, and it is not added. -/
theorem addStateGroup_counterexample :
    ∃ m : WorkerManager (BitVec 64), WorkerManager.new 50 10 = some m ∧ m.Fresh 7 ∧
      ∀ r m', ¬ Added .standard id m (fun _ => false) 7 r m' := by
  refine ⟨_, rfl, fun r hr => (List.not_mem_nil hr).elim, fun r m' h => ?_⟩
  have hr := h.returned
  have hheld := h.held
  cases hr
  exact absurd hheld (by decide)

/-- That group is not added, as no group is. -/
theorem addStateGroup_not_added_first :
    ∃ m : WorkerManager (BitVec 64), WorkerManager.new 50 10 = some m ∧
      ∀ r m', ¬ Added .standard id m (fun _ => false) 7 r m' :=
  ⟨_, rfl, fun r m' =>
    addStateGroup_not_added (show new 50 10 = some _ from rfl) .nil (fun _ => false) 7 r m'⟩

end WorkerManager

end WebRtcNetty
