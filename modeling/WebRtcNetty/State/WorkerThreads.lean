import WebRtcNetty.State.Worker

/-!
# The threads of a worker

`start()` makes a thread that runs the worker's loop, and `stop()` interrupts it. `WorkerThreads`
has the worker with the threads that its starts have made, each at a place of `run()`, the lock that
they share, and their interrupts. A thread that is interrupted while it sleeps or waits goes on with
the next pass: the loop has no way out but an exception of a group, and it does not look at
`started`.

What `start()` and `stop()` owe is `Contract`. A worker that held a group would break it with one
thread (`not_contract_of_group`). But a worker never holds a group, so none of its threads ever
updates one or ends, and the contract is kept exactly when there is no more than one start
(`run_contract_iff`).
-/

namespace WebRtcNetty

open Java Runs

/-- An object identity: the threads are made one after another. -/
abbrev ThreadRef := Nat

/-- Where a thread is in `run()`. Reference: `run` (`StateGroupWorker.java:49-62`). -/
inductive Pc (G : Type)
  /-- Before `synchronized`. -/
  | enter
  /-- In `Thread.sleep`, with the lock. -/
  | sleep
  /-- Before the test of the map's size. -/
  | test
  /-- In `LOCK.wait()`, without the lock. -/
  | wait
  /-- Out of the wait set, and waiting for the lock; `interrupted` tells whether by an interrupt. -/
  | resume (interrupted : Bool)
  /-- Before `update()`. -/
  | pass
  /-- In the loop of `update()`, before the rest of the groups. -/
  | update (rest : List G)
  /-- A group threw. -/
  | ended

/-- A thread here has no group before it, and has not ended. -/
def Pc.Idle {G : Type} : Pc G → Prop
  | .update rest => rest = []
  | .ended => False
  | _ => True

/-- A thread: where it is, and its interrupt status. -/
structure WorkerThread (G : Type) where
  pc : Pc G
  isInterrupted : Bool

/-- A worker with the threads it has made. `lock` is the holder of `LOCK`. -/
structure WorkerThreads (G : Type) where
  worker : StateGroupWorker G
  workerThread : Option ThreadRef
  threads : ThreadRef → WorkerThread G
  created : Nat
  lock : Option ThreadRef

namespace WorkerThreads

variable {G : Type}

/-- A worker without a thread. -/
def initial (worker : StateGroupWorker G) : WorkerThreads G where
  worker := worker
  workerThread := none
  threads := fun _ => ⟨.ended, false⟩
  created := 0
  lock := none

/-- The thread has been made, and runs the loop. -/
def Live (s : WorkerThreads G) (i : ThreadRef) : Prop :=
  i < s.created ∧ (s.threads i).pc ≠ .ended

/-- What happens next: a call of a method, or a step of a thread. A thread in the wait set is woken
by an interrupt, or for no reason. -/
inductive Op (G : Type)
  | start
  | stop
  | tryAddOneStateGroup (stateGroup : G)
  | notifyAll
  | removeDeposedGroup
  | wake (i : ThreadRef)
  | run (i : ThreadRef)

/-- An operation, with the groups' answers during it, and the groups whose update throws. -/
structure Label (G : Type) where
  canDepose : G → Bool
  throws : G → Bool
  op : Op G

/-- Puts a thread somewhere else. -/
def goto (s : WorkerThreads G) (i : ThreadRef) (pc : Pc G) : WorkerThreads G :=
  { s with threads := Function.update s.threads i { s.threads i with pc } }

/-- `thread.interrupt()`. -/
def interrupt (s : WorkerThreads G) (i : ThreadRef) : WorkerThreads G :=
  { s with threads := Function.update s.threads i { s.threads i with isInterrupted := true } }

/-- The thread catches an `InterruptedException`, which clears its status, and goes on. -/
def catchInterrupt (s : WorkerThreads G) (i : ThreadRef) : WorkerThreads G :=
  { s with threads := Function.update s.threads i ⟨.pass, false⟩ }

/-- Reference: `start` (`StateGroupWorker.java:90`). -/
def start (s : WorkerThreads G) : WorkerThreads G :=
  let s :=
    match s.workerThread with
    | some i => if (s.threads i).pc matches .ended then s else s.interrupt i
    | none => s
  { s with
    workerThread := some s.created
    threads := Function.update s.threads s.created ⟨.enter, false⟩
    created := s.created + 1
    worker := s.worker.start }

/-- Reference: `stop` (`StateGroupWorker.java:107`). -/
def stop (s : WorkerThreads G) : WorkerThreads G :=
  let s := { s with worker := s.worker.stop }
  match s.workerThread with
  | some i => if (s.threads i).isInterrupted then s else s.interrupt i
  | none => s

/-- `LOCK.notifyAll()`. -/
def notifyAll (s : WorkerThreads G) : WorkerThreads G :=
  { s with threads := fun i =>
      match (s.threads i).pc with
      | .wait => { s.threads i with pc := .resume false }
      | _ => s.threads i }

/-- The next step of a thread in the loop. Reference: `run` and `update`
(`StateGroupWorker.java:49-62`, `117-124`). -/
def step (p : Platform) (canDepose throws : G → Bool) (s : WorkerThreads G) (i : ThreadRef) :
    WorkerThreads G :=
  match (s.threads i).pc with
  | .enter =>
    match s.lock with
    | none => { s.goto i .sleep with lock := some i }
    | some _ => s
  | .sleep => if (s.threads i).isInterrupted then s.catchInterrupt i else s.goto i .test
  | .test =>
    if s.worker.stateGroupMap.size ≤ 0 then
      if (s.threads i).isInterrupted then s.catchInterrupt i
      else { s.goto i .wait with lock := none }
    else
      s.goto i .pass
  | .wait => s
  | .resume interrupted =>
    match s.lock with
    | none => { (if interrupted then s.catchInterrupt i else s.goto i .pass) with lock := some i }
    | some _ => s
  | .pass => s.goto i (.update (p.iterate s.worker.stateGroupMap.values))
  | .update [] => { s.goto i .enter with lock := none }
  | .update (stateGroup :: rest) =>
    if !canDepose stateGroup && throws stateGroup then { s.goto i .ended with lock := none }
    else s.goto i (.update rest)
  | .ended => s

/-- What an operation does. `notifyAll` is called with the lock. -/
def after (p : Platform) (getId : G → BitVec 64) (s : WorkerThreads G) (l : Label G) :
    WorkerThreads G :=
  match l.op with
  | .start => s.start
  | .stop => s.stop
  | .tryAddOneStateGroup stateGroup =>
    { s with worker := (s.worker.tryAddOneStateGroup getId l.canDepose stateGroup).2 }
  | .notifyAll => if s.lock = none then s.notifyAll else s
  | .removeDeposedGroup => { s with worker := s.worker.removeDeposedGroup l.canDepose }
  | .wake i =>
    match (s.threads i).pc with
    | .wait => s.goto i (.resume (s.threads i).isInterrupted)
    | _ => s
  | .run i => s.step p l.canDepose l.throws i

/-- Every operation is atomic. -/
def Step (p : Platform) (getId : G → BitVec 64) (s : WorkerThreads G) (l : Label G)
    (s' : WorkerThreads G) : Prop :=
  s' = s.after p getId l

/-! ## What a worker owes -/

/-- The thread is thrown an `InterruptedException`. -/
def Interrupted (i : ThreadRef) (t : Transition (WorkerThreads G) (Label G)) : Prop :=
  t.label.op = .run i ∧
    match (t.before.threads i).pc with
    | .sleep => (t.before.threads i).isInterrupted = true
    | .test => t.before.worker.stateGroupMap.size ≤ 0 ∧ (t.before.threads i).isInterrupted = true
    | .resume interrupted => interrupted = true ∧ t.before.lock = none
    | _ => False

/-- The thread begins to update a group. -/
def Updates (i : ThreadRef) (t : Transition (WorkerThreads G) (Label G)) : Prop :=
  t.label.op = .run i ∧ ∃ g rest,
    (t.before.threads i).pc = .update (g :: rest) ∧ t.label.canDepose g = false

/-- No two threads run the loop. -/
def AtMostOne (s : WorkerThreads G) : Prop := ∀ i j, s.Live i → s.Live j → i = j

/-- What `start()` and `stop()` owe in a run: no two threads run the loop at any time, and a thread
that ran it when `stop()` was called, and has been thrown an `InterruptedException` since, begins to
update no group before `start()` is called again. -/
structure Contract (ts : List (Transition (WorkerThreads G) (Label G))) : Prop where
  alone : ∀ t ∈ ts, t.before.AtMostOne ∧ t.after.AtMostOne
  stopped : ∀ i us u vs d ws e xs, ts = us ++ u :: (vs ++ d :: (ws ++ e :: xs)) →
    u.label.op = .stop → u.before.Live i → Interrupted i d → Updates i e →
      ∃ t ∈ vs ++ d :: ws, t.label.op = .start

/-- How many of the transitions are starts. -/
def starts (ts : List (Transition (WorkerThreads G) (Label G))) : Nat :=
  ts.countP fun t => t.label.op matches .start

/-- A thread that is thrown an `InterruptedException` goes on with a pass, whether the worker has
been stopped or not. -/
theorem pass_of_interrupted {p : Platform} {getId : G → BitVec 64} {i : ThreadRef}
    {t : Transition (WorkerThreads G) (Label G)} (hs : Step p getId t.before t.label t.after)
    (h : Interrupted i t) : (t.after.threads i).pc = .pass := by
  obtain ⟨hop, hplace⟩ := h
  have hcaught : ∀ s : WorkerThreads G, ((s.catchInterrupt i).threads i).pc = .pass := by
    intro s
    show (Function.update s.threads i ⟨.pass, false⟩ i).pc = .pass
    rw [Function.update_self]
  rw [Step, after, hop] at hs
  dsimp only at hs
  rw [hs, step]
  split at hplace
  · next hpc =>
    rw [hpc]
    dsimp only
    rw [if_pos hplace]
    exact hcaught _
  · next hpc =>
    rw [hpc]
    dsimp only
    rw [if_pos hplace.1, if_pos hplace.2]
    exact hcaught _
  · next hpc =>
    obtain ⟨rfl, hlock⟩ := hplace
    rw [hpc, hlock]
    exact hcaught _
  · exact hplace.elim

section
variable {p : Platform} {getId : G → BitVec 64} {i : ThreadRef} {s₀ s : WorkerThreads G}

/-- A thread is where it has gone. -/
theorem pc_goto (s : WorkerThreads G) (i : ThreadRef) (pc : Pc G) :
    ((s.goto i pc).threads i).pc = pc := by
  show (Function.update s.threads i { s.threads i with pc } i).pc = pc
  rw [Function.update_self]

/-- A thread that begins a pass over a map with a group begins to update one. -/
theorem exists_updates (hpc : (s.threads i).pc = .pass)
    (hgroup : s.worker.stateGroupMap.size ≠ 0) : ∃ t e s', Run (Step p getId) s [t, e] s' ∧
      Updates i e ∧ ∀ u ∈ [t, e], u.label.op ≠ .start := by
  obtain ⟨g, rest, hgroups⟩ : ∃ g rest,
      p.iterate s.worker.stateGroupMap.values = g :: rest := by
    refine List.exists_cons_of_ne_nil fun hnil => hgroup ?_
    have hlength : s.worker.stateGroupMap.values.length = s.worker.stateGroupMap.size :=
      List.length_map _
    rw [← hlength, ← (p.iterate_perm s.worker.stateGroupMap.values).length_eq, hnil]
    rfl
  let label : Label G := ⟨fun _ => false, fun _ => false, .run i⟩
  have hbegin : s.after p getId label = s.goto i (.update (g :: rest)) := by
    show s.step p _ _ i = _
    rw [step, hpc, hgroups]
  refine ⟨_, _, _, .snoc (.single (l := label) rfl) (l := label) rfl, ⟨rfl, g, rest, ?_, rfl⟩, ?_⟩
  · show ((s.after p getId label).threads i).pc = _
    rw [hbegin, pc_goto]
  · intro u hu
    simp only [List.mem_cons, List.not_mem_nil, or_false] at hu
    rcases hu with rfl | rfl
    · exact fun h => nomatch h
    · exact fun h => nomatch h

/-- A worker with a group breaks the contract: a thread that has been thrown an
`InterruptedException` after `stop()`, and without another `start()`, may go on to update a
group. -/
theorem not_contract_of_group {us vs : List (Transition (WorkerThreads G) (Label G))}
    {u d : Transition (WorkerThreads G) (Label G)}
    (hr : Run (Step p getId) s₀ (us ++ u :: (vs ++ [d])) s) (hstop : u.label.op = .stop)
    (hlive : u.before.Live i) (hinterrupted : Interrupted i d)
    (hstart : ∀ t ∈ vs ++ [d], t.label.op ≠ .start)
    (hgroup : s.worker.stateGroupMap.size ≠ 0) :
    ∃ ts s', Run (Step p getId) s ts s' ∧ ¬ Contract (us ++ u :: (vs ++ d :: ts)) := by
  have hsplit : us ++ u :: (vs ++ [d]) = (us ++ u :: vs) ++ [d] := by simp
  rw [hsplit] at hr
  obtain ⟨-, hs, hafter⟩ := hr.snoc_inv
  have hpc := pass_of_interrupted (hafter.symm ▸ hs) hinterrupted
  rw [hafter] at hpc
  obtain ⟨t, e, s', hrest, hupdates, hnone⟩ : ∃ t e s', Run (Step p getId) s [t, e] s' ∧
      Updates i e ∧ ∀ w ∈ [t, e], w.label.op ≠ .start := exists_updates hpc hgroup
  refine ⟨[t, e], s', hrest, fun h => ?_⟩
  obtain ⟨w, hw, hwstart⟩ := h.stopped i us u vs d [t] e [] rfl hstop hlive hinterrupted hupdates
  rw [List.append_cons] at hw
  rcases List.mem_append.1 hw with hw | hw
  · exact hstart w hw hwstart
  · exact hnone w (List.mem_cons.2 (.inl (List.mem_singleton.1 hw))) hwstart

end

/-! ## No thread ever meets a group -/

/-- The worker holds no group, and its threads have met none. -/
structure Idle (s : WorkerThreads G) : Prop where
  empty : s.worker.stateGroupMap = ∅
  idle : ∀ i < s.created, (s.threads i).pc.Idle

section
variable {p : Platform} {getId : G → BitVec 64} {s s' : WorkerThreads G} {i j : ThreadRef}

theorem Idle.initial (id : BitVec 64) (stateGroupCapacity : Nat) :
    (initial (.new id stateGroupCapacity) : WorkerThreads G).Idle :=
  ⟨rfl, fun i hi => absurd hi (Nat.not_lt_zero i)⟩

/-- All its threads run the loop. -/
theorem Idle.live (h : s.Idle) : s.Live i ↔ i < s.created := by
  refine ⟨fun hi => hi.1, fun hi => ⟨hi, fun he => ?_⟩⟩
  have hidle := h.idle i hi
  rw [he] at hidle
  exact hidle

/-- Its threads do not update groups. -/
theorem Idle.not_updates {t : Transition (WorkerThreads G) (Label G)} (h : t.before.Idle)
    (hi : i < t.before.created) : ¬ Updates i t := by
  rintro ⟨-, g, rest, hpc, -⟩
  have hidle := h.idle i hi
  rw [hpc] at hidle
  cases hidle

/-- Another thread at `i`, which has met no group either, if there is a thread. -/
theorem Idle.setThread (h : s.Idle) {thread : WorkerThread G}
    (hi : i < s.created → thread.pc.Idle) :
    { s with threads := Function.update s.threads i thread }.Idle := by
  refine ⟨h.empty, fun j hj => ?_⟩
  show (Function.update s.threads i thread j).pc.Idle
  by_cases hij : j = i
  · subst hij
    rw [Function.update_self]
    exact hi hj
  · rw [Function.update_of_ne hij]
    exact h.idle j hj

theorem Idle.goto (h : s.Idle) (pc : Pc G) (hpc : i < s.created → pc.Idle) : (s.goto i pc).Idle :=
  h.setThread hpc

theorem Idle.interrupt (h : s.Idle) : (s.interrupt i).Idle := h.setThread fun hi => h.idle i hi

theorem Idle.catchInterrupt (h : s.Idle) : (s.catchInterrupt i).Idle :=
  h.setThread fun _ => trivial

/-- The lock does not matter. -/
theorem Idle.setLock (h : s.Idle) (lock : Option ThreadRef) : { s with lock }.Idle :=
  ⟨h.empty, h.idle⟩

/-- A thread that meets no group goes round in the loop. -/
theorem Idle.step {canDepose throws : G → Bool} (h : s.Idle) :
    (s.step p canDepose throws i).Idle := by
  have hpc := h.idle i
  unfold WorkerThreads.step
  cases hplace : (s.threads i).pc with
  | enter =>
    cases s.lock with
    | none => exact (h.goto .sleep fun _ => trivial).setLock _
    | some _ => exact h
  | sleep =>
    dsimp only
    split
    · exact h.catchInterrupt
    · exact h.goto .test fun _ => trivial
  | test =>
    dsimp only
    split
    · split
      · exact h.catchInterrupt
      · exact (h.goto .wait fun _ => trivial).setLock _
    · exact h.goto .pass fun _ => trivial
  | wait => exact h
  | resume interrupted =>
    cases s.lock with
    | none =>
      cases interrupted with
      | true => exact h.catchInterrupt.setLock _
      | false => exact (h.goto .pass fun _ => trivial).setLock _
    | some _ => exact h
  | pass =>
    refine h.goto _ fun _ => ?_
    rw [h.empty]
    exact (p.iterate_perm _).eq_nil
  | update rest =>
    rw [hplace] at hpc
    cases rest with
    | nil => exact (h.goto .enter fun _ => trivial).setLock _
    | cons g rest =>
      have hnone : ¬ i < s.created := fun hi => List.cons_ne_nil _ _ (hpc hi)
      dsimp only
      split
      · exact (h.goto .ended fun hi => absurd hi hnone).setLock _
      · exact h.goto _ fun hi => absurd hi hnone
  | ended => exact h

theorem Idle.start (h : s.Idle) : s.start.Idle := by
  have hold : ∀ s₁ : WorkerThreads G, s₁.Idle → Idle { s₁ with
      workerThread := some s₁.created
      threads := Function.update s₁.threads s₁.created ⟨.enter, false⟩
      created := s₁.created + 1
      worker := s₁.worker.start } := by
    intro s₁ h₁
    refine ⟨h₁.empty, fun j (hj : j < s₁.created + 1) => ?_⟩
    show (Function.update s₁.threads s₁.created ⟨.enter, false⟩ j).pc.Idle
    by_cases hnew : j = s₁.created
    · rw [hnew, Function.update_self]
      trivial
    · rw [Function.update_of_ne hnew]
      exact h₁.idle j (lt_of_le_of_ne (Nat.lt_succ_iff.1 hj) hnew)
  unfold WorkerThreads.start
  refine hold _ ?_
  cases s.workerThread with
  | none => exact h
  | some i =>
    dsimp only
    split
    · exact h
    · exact h.interrupt

theorem Idle.stop (h : s.Idle) : s.stop.Idle := by
  have hold : Idle { s with worker := s.worker.stop } := ⟨h.empty, h.idle⟩
  unfold WorkerThreads.stop
  dsimp only
  split
  · split
    · exact hold
    · exact hold.interrupt
  · exact hold

theorem Idle.notifyAll (h : s.Idle) : s.notifyAll.Idle := by
  refine ⟨h.empty, fun i hi => ?_⟩
  unfold WorkerThreads.notifyAll
  dsimp only
  split
  · trivial
  · exact h.idle i hi

/-- No operation makes a thread meet a group. -/
theorem Idle.after (h : s.Idle) (l : Label G) : (s.after p getId l).Idle := by
  unfold WorkerThreads.after
  split
  · exact h.start
  · exact h.stop
  · next stateGroup _ =>
    refine ⟨?_, h.idle⟩
    rw [WorkerManager.tryAddOneStateGroup_empty h.empty]
    exact h.empty
  · split
    · exact h.notifyAll
    · exact h
  · refine ⟨?_, h.idle⟩
    rw [WorkerManager.removeDeposedGroup_empty h.empty]
    exact h.empty
  · split
    · exact h.goto (.resume _) fun _ => trivial
    · exact h
  · exact h.step

theorem created_start : s.start.created = s.created + 1 := by
  unfold WorkerThreads.start
  dsimp only
  split
  · split
    · rfl
    · rfl
  · rfl

theorem created_stop : s.stop.created = s.created := by
  unfold WorkerThreads.stop
  dsimp only
  split
  · split
    · rfl
    · rfl
  · rfl

theorem created_step {canDepose throws : G → Bool} :
    (s.step p canDepose throws i).created = s.created := by
  unfold WorkerThreads.step
  repeat' split
  all_goals rfl

/-- Every start makes a thread, and nothing else does. -/
theorem created_after (l : Label G) : (s.after p getId l).created =
    s.created + if l.op matches .start then 1 else 0 := by
  unfold WorkerThreads.after
  cases l.op with
  | start => exact created_start
  | stop => exact created_stop
  | tryAddOneStateGroup stateGroup => rfl
  | notifyAll =>
    dsimp only
    split
    · rfl
    · rfl
  | removeDeposedGroup => rfl
  | wake i =>
    dsimp only
    split
    · rfl
    · rfl
  | run i => exact created_step

/-! ## Runs -/

variable {id : BitVec 64} {stateGroupCapacity : Nat}
variable {ts : List (Transition (WorkerThreads G) (Label G))}

/-- The threads of a worker are those that its starts have made, and they all run the loop. -/
theorem run_idle (hr : Run (Step p getId) (initial (.new id stateGroupCapacity)) ts s) :
    s.Idle ∧ s.created = starts ts := by
  induction hr with
  | nil => exact ⟨.initial id stateGroupCapacity, rfl⟩
  | snoc hr hs ih =>
    obtain ⟨hidle, hcreated⟩ := ih
    cases hs
    refine ⟨hidle.after _, ?_⟩
    rw [created_after, hcreated, starts, starts, List.countP_append, List.countP_singleton]

/-- No two of them run it when there are no two. -/
theorem Idle.atMostOne_iff (h : s.Idle) : s.AtMostOne ↔ s.created ≤ 1 := by
  constructor
  · intro hone
    by_contra hmany
    have htwo : 2 ≤ s.created := Nat.lt_of_not_le hmany
    have hfirst : s.Live 0 := h.live.2 (Nat.lt_of_lt_of_le Nat.zero_lt_two htwo)
    have hsecond : s.Live 1 := h.live.2 htwo
    exact absurd (hone 0 1 hfirst hsecond) Nat.zero_ne_one
  · intro hfew i j hi hj
    have hi' := Nat.lt_one_iff.1 (hi.1.trans_le hfew)
    have hj' := Nat.lt_one_iff.1 (hj.1.trans_le hfew)
    rw [hi', hj']

theorem starts_append (us vs : List (Transition (WorkerThreads G) (Label G))) :
    starts (us ++ vs) = starts us + starts vs := List.countP_append

/-- The contract of `start()` and `stop()` is kept exactly when there is no more than one start. -/
theorem run_contract_iff (hr : Run (Step p getId) (initial (.new id stateGroupCapacity)) ts s) :
    Contract ts ↔ starts ts ≤ 1 := by
  constructor
  · intro h
    obtain ⟨hidle, hcreated⟩ := run_idle hr
    cases ts using List.reverseRecOn with
    | nil => exact Nat.zero_le 1
    | append_singleton us t =>
      obtain ⟨-, -, hafter⟩ := hr.snoc_inv
      have hone := (h.alone t (by simp)).2
      rw [hafter, hidle.atMostOne_iff, hcreated] at hone
      exact hone
  · intro h
    refine ⟨fun t ht => ?_, fun i us u vs d ws e xs hts _ hlive _ hupdates => ?_⟩
    · obtain ⟨us, vs, rfl⟩ := List.append_of_mem ht
      obtain ⟨hbefore, hs, -⟩ := hr.split
      obtain ⟨hidle, hcreated⟩ := run_idle hbefore
      obtain ⟨hidle', hcreated'⟩ := run_idle (.snoc hbefore hs)
      rw [List.append_cons, starts_append, starts_append] at h
      rw [hidle.atMostOne_iff, hidle'.atMostOne_iff, hcreated, hcreated']
      have hstep : starts (us ++ [⟨t.before, t.label, t.after⟩]) = starts (us ++ [t]) := rfl
      rw [hstep, starts_append]
      exact ⟨by omega, by omega⟩
    · -- The thread has met no group.
      have hsplit : ts = (us ++ u :: (vs ++ d :: ws)) ++ e :: xs := by rw [hts]; simp
      rw [hsplit] at hr
      obtain ⟨hidle, hcreated⟩ := run_idle hr.split.1
      obtain ⟨-, hcreated₀⟩ := run_idle hr.split.1.split.1
      refine absurd hupdates (hidle.not_updates ?_)
      rw [hcreated, starts_append, ← hcreated₀]
      exact hlive.1.trans_le (Nat.le_add_right _ _)

/-- The transitions of a run of operations, where the groups cannot be deposed and do not throw. -/
def transitions (p : Platform) (getId : G → BitVec 64) (s : WorkerThreads G) (ops : List (Op G)) :
    List (Transition (WorkerThreads G) (Label G)) :=
  trace (after p getId) s (ops.map (⟨fun _ => false, fun _ => false, ·⟩))

theorem run_transitions (p : Platform) (getId : G → BitVec 64) (ops : List (Op G))
    (s : WorkerThreads G) : ∃ s', Run (Step p getId) s (transitions p getId s ops) s' := by
  have hstep : ∀ s l, Step p getId s l (after p getId s l) := fun _ _ => rfl
  exact ⟨_, run_trace hstep _ s⟩

end

/-! ## A worker -/

/-- The first worker that the application makes, with the properties that it starts with
(`application.yml`). -/
def first : WorkerThreads (BitVec 64) := initial (.new 1 10)

/-- It is started, waits for a group, and is stopped while it waits. -/
def stopped : List (Op (BitVec 64)) :=
  [.start, .run 0, .run 0, .run 0, .stop, .wake 0, .run 0, .run 0]

/-- One start. -/
theorem run_contract_iff_first : Contract (transitions .standard id first stopped) := by
  obtain ⟨s, hr⟩ := run_transitions .standard id stopped first
  exact (run_contract_iff hr).2 (by decide)

/-- A worker that is started twice has two threads. -/
theorem contract_counterexample : (∃ s : WorkerThreads (BitVec 64),
    Run (Step .standard id) first (transitions .standard id first [.start, .start]) s) ∧
      ¬ Contract (transitions .standard id first [.start, .start]) := by
  refine ⟨run_transitions .standard id [.start, .start] first, fun h => ?_⟩
  have hone := (h.alone _ (List.mem_cons_of_mem _ List.mem_cons_self)).2
  have hlive : ∀ i < 2,
      Live (((first.after .standard id ⟨fun _ => false, fun _ => false, .start⟩).after
        .standard id ⟨fun _ => false, fun _ => false, .start⟩)) i := by
    intro i hi
    refine ⟨hi, ?_⟩
    obtain rfl | rfl : i = 0 ∨ i = 1 := Nat.le_one_iff_eq_zero_or_eq_one.1 (Nat.lt_succ_iff.1 hi)
    · exact fun he => by cases he
    · exact fun he => by cases he
  exact absurd (hone 0 1 (hlive 0 (by decide)) (hlive 1 (by decide))) (by decide)

end WorkerThreads

end WebRtcNetty
