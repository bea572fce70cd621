import Mathlib.Logic.Function.Basic
import WebRtcNetty.Lib.Run
import WebRtcNetty.Lib.Java.Exec

/-!
# Event loops

A group of `n` event loops, each a thread that executes the tasks it is handed one at a time and in
order. A submitted task is handed to the next loop in turn. Tasks are named by their numbers in the
order of submission, so that task `k` is on loop `k % n`.

Each task has a key, and tasks with the same key may be meant to be executed in the order in which
they were submitted. Round robin does not see to that: `inOrder_iff` says that the order is kept,
whatever the loops do, exactly when a task is never submitted while an unfinished one with its key
is on another loop.
-/

namespace EventLoops

open Java Runs

/-! ## The loops -/

/-- The memory that the tasks run on, the tasks submitted, the numbers of the tasks that wait at
each loop (oldest first) and of the one that it executes, and a history of the finished ones. -/
structure Group (σ τ : Type) where
  mem : σ
  submitted : List τ
  queue : Nat → List Nat
  running : Nat → Option Nat
  finished : List Nat

/-- What can happen; `ε` is what happens outside the loops. -/
inductive Op (τ ε : Type)
  | submit (task : τ)
  | start (loop : Nat)
  | finish (loop : Nat)
  | outside (e : ε)

namespace Group

variable {σ τ ε : Type}

/-- A group to which nothing has been submitted. -/
def initial (mem : σ) : Group σ τ := ⟨mem, [], fun _ => [], fun _ => none, []⟩

/-- A task is handed to the next loop in turn. -/
def submit (n : Nat) (task : τ) (g : Group σ τ) : Group σ τ :=
  let k := g.submitted.length
  { g with
    submitted := g.submitted ++ [task]
    queue := Function.update g.queue (k % n) (g.queue (k % n) ++ [k]) }

/-- A loop that is not busy takes the oldest task that waits. -/
def start (i : Nat) (g : Group σ τ) : Group σ τ :=
  match g.running i, g.queue i with
  | none, k :: rest => { g with
      queue := Function.update g.queue i rest
      running := Function.update g.running i (some k) }
  | _, _ => g

/-- A busy loop finishes its task, whose effects are on the memory then. -/
def finish (run : τ → Exec σ Unit) (i : Nat) (g : Group σ τ) : Group σ τ :=
  match g.running i with
  | none => g
  | some k => { g with
      mem := (g.submitted[k]?).elim g.mem fun task => endState (run task) g.mem
      running := Function.update g.running i none
      finished := g.finished ++ [k] }

variable (n : Nat) (run : τ → Exec σ Unit) (outside : ε → Exec σ Unit)

/-- The group after an operation. -/
def after (g : Group σ τ) : Op τ ε → Group σ τ
  | .submit task => g.submit n task
  | .start i => g.start i
  | .finish i => g.finish run i
  | .outside e => { g with mem := endState (outside e) g.mem }

/-- Every operation is atomic. -/
def Step (g : Group σ τ) (op : Op τ ε) (g' : Group σ τ) : Prop := g' = g.after n run outside op

end Group

/-! ## Where the tasks are -/

section
variable {σ τ ε : Type} {n : Nat} {g : Group σ τ}

/-- Task `k` is finished, or on loop `k % n`, where the tasks are in order. -/
structure Located (n : Nat) (g : Group σ τ) : Prop where
  queued : ∀ i, ∀ k ∈ g.queue i, k % n = i ∧ k < g.submitted.length ∧ k ∉ g.finished
  running : ∀ i k, g.running i = some k →
    k % n = i ∧ k < g.submitted.length ∧ k ∉ g.finished ∧ ∀ q ∈ g.queue i, k < q
  sorted : ∀ i, (g.queue i).Pairwise (· < ·)
  complete : ∀ k < g.submitted.length,
    k ∈ g.finished ∨ k ∈ g.queue (k % n) ∨ g.running (k % n) = some k
  finished : ∀ k ∈ g.finished, k < g.submitted.length

theorem located_initial (mem : σ) : Located n (.initial mem : Group σ τ) where
  queued _ k hk := by cases hk
  running _ k hk := by cases hk
  sorted _ := .nil
  complete k hk := absurd hk (Nat.not_lt_zero k)
  finished k hk := by cases hk

theorem length_submit (n : Nat) (g : Group σ τ) (task : τ) :
    (g.submit n task).submitted.length = g.submitted.length + 1 := by
  simp [Group.submit]

/-- The new task goes to the end of one queue. -/
theorem queue_submit (n : Nat) (g : Group σ τ) (task : τ) (i : Nat) :
    (g.submit n task).queue i = if i = g.submitted.length % n then
      g.queue i ++ [g.submitted.length] else g.queue i := by
  simp only [Group.submit]
  split
  · next hi => rw [hi, Function.update_self]
  · next hi => rw [Function.update_of_ne hi]

theorem mem_queue_submit {task : τ} {i k : Nat} : k ∈ (g.submit n task).queue i ↔
    k ∈ g.queue i ∨ k = g.submitted.length ∧ i = g.submitted.length % n := by
  rw [queue_submit]
  split
  · next hi => simp [hi]
  · next hi => simp [hi]

theorem Located.submit (h : Located n g) (task : τ) : Located n (g.submit n task) := by
  refine ⟨fun i k hk => ?_, fun i k hk => ?_, fun i => ?_, fun k hk => ?_, fun k hk => ?_⟩
  · rw [length_submit]
    rcases mem_queue_submit.1 hk with hk | ⟨rfl, rfl⟩
    · obtain ⟨hi, hlt, hfin⟩ := h.queued i k hk
      exact ⟨hi, by omega, hfin⟩
    · exact ⟨rfl, by omega, fun hfin => absurd (h.finished _ hfin) (Nat.lt_irrefl _)⟩
  · rw [length_submit]
    obtain ⟨hi, hlt, hfin, hq⟩ := h.running i k hk
    refine ⟨hi, by omega, hfin, fun q hq' => ?_⟩
    rcases mem_queue_submit.1 hq' with hq' | ⟨rfl, -⟩
    · exact hq q hq'
    · exact hlt
  · rw [queue_submit]
    split
    · refine List.pairwise_append.2 ⟨h.sorted i, List.pairwise_singleton _ _, fun a ha b hb => ?_⟩
      rw [List.mem_singleton.1 hb]
      exact (h.queued i a ha).2.1
    · exact h.sorted i
  · rw [length_submit] at hk
    by_cases hnew : k = g.submitted.length
    · exact .inr (.inl (mem_queue_submit.2 (.inr ⟨hnew, by rw [hnew]⟩)))
    · rcases h.complete k (by omega) with hk | hk | hk
      · exact .inl hk
      · exact .inr (.inl (mem_queue_submit.2 (.inl hk)))
      · exact .inr (.inr hk)
  · rw [length_submit]
    exact Nat.lt_succ_of_lt (h.finished k hk)

/-- Starting a task where there is one that may be started. -/
theorem start_of_cons {i k : Nat} {rest : List Nat} (hr : g.running i = none)
    (hq : g.queue i = k :: rest) : g.start i = { g with
      queue := Function.update g.queue i rest
      running := Function.update g.running i (some k) } := by
  rw [Group.start, hr, hq]

/-- Otherwise nothing is started. -/
theorem start_of_not {i : Nat} (h : g.running i ≠ none ∨ g.queue i = []) : g.start i = g := by
  unfold Group.start
  split
  · next hr hq =>
    rcases h with h | h
    · exact absurd hr h
    · rw [h] at hq
      cases hq
  · rfl

/-- What is in a queue after the first task has been taken was there before. -/
theorem mem_queue_of_rest {i j k q : Nat} {rest : List Nat} (hq : g.queue i = k :: rest)
    (h : q ∈ Function.update g.queue i rest j) : q ∈ g.queue j := by
  by_cases hj : j = i
  · subst hj
    rw [Function.update_self] at h
    rw [hq]
    exact .tail _ h
  · rwa [Function.update_of_ne hj] at h

theorem Located.start_of_cons {i k : Nat} {rest : List Nat} (h : Located n g)
    (hr : g.running i = none) (hq : g.queue i = k :: rest) : Located n { g with
      queue := Function.update g.queue i rest
      running := Function.update g.running i (some k) } := by
  have hsorted := h.sorted i
  rw [hq, List.pairwise_cons] at hsorted
  obtain ⟨hi, hlt, hfin⟩ := h.queued i k (by rw [hq]; exact .head _)
  refine ⟨fun j q hq' => h.queued j q (mem_queue_of_rest hq hq'), fun j q hq' => ?_, fun j => ?_,
    fun q hlt' => ?_, h.finished⟩
  · by_cases hj : j = i
    · subst hj
      simp only [Function.update_self, Option.some.injEq] at hq' ⊢
      subst hq'
      exact ⟨hi, hlt, hfin, hsorted.1⟩
    · simp only [Function.update_of_ne hj] at hq' ⊢
      exact h.running j q hq'
  · by_cases hj : j = i
    · subst hj
      simp only [Function.update_self]
      exact hsorted.2
    · simp only [Function.update_of_ne hj]
      exact h.sorted j
  · show q ∈ g.finished ∨ q ∈ Function.update g.queue i rest (q % n) ∨
      Function.update g.running i (some k) (q % n) = some q
    rcases h.complete q hlt' with hq' | hq' | hq'
    · exact .inl hq'
    · by_cases hj : q % n = i
      · rw [hj, hq] at hq'
        rw [hj, Function.update_self, Function.update_self]
        rcases List.mem_cons.1 hq' with rfl | hq'
        · exact .inr (.inr rfl)
        · exact .inr (.inl hq')
      · rw [Function.update_of_ne hj]
        exact .inr (.inl hq')
    · by_cases hj : q % n = i
      · rw [hj, hr] at hq'
        cases hq'
      · rw [Function.update_of_ne hj, Function.update_of_ne hj]
        exact .inr (.inr hq')

theorem Located.start (h : Located n g) (i : Nat) : Located n (g.start i) := by
  by_cases hr : g.running i = none
  · cases hq : g.queue i with
    | nil =>
      rw [start_of_not (.inr hq)]
      exact h
    | cons k rest =>
      rw [EventLoops.start_of_cons hr hq]
      exact h.start_of_cons hr hq
  · rw [start_of_not (.inl hr)]
    exact h

theorem Located.finish (h : Located n g) (run : τ → Exec σ Unit) (i : Nat) :
    Located n (g.finish run i) := by
  unfold Group.finish
  cases hr : g.running i with
  | none => exact h
  | some k =>
    obtain ⟨hi, hlt, -, hq⟩ := h.running i k hr
    have hnot : ∀ {q}, q ∉ g.finished → q ≠ k → q ∉ g.finished ++ [k] := by
      intro q hq hne hmem
      rcases List.mem_append.1 hmem with hmem | hmem
      · exact hq hmem
      · exact hne (List.mem_singleton.1 hmem)
    have hrun : ∀ {j}, j ≠ i → Function.update g.running i none j = g.running j := fun hj =>
      Function.update_of_ne hj none g.running
    refine ⟨fun j q hq' => ?_, fun j q (hq' : Function.update g.running i none j = some q) => ?_,
      h.sorted, fun q hlt' => ?_, fun q hq' => ?_⟩
    · obtain ⟨hj, hlt', hfin⟩ := h.queued j q hq'
      refine ⟨hj, hlt', hnot hfin fun hne => ?_⟩
      subst hne
      have hji : j = i := hj.symm.trans hi
      subst hji
      exact absurd (hq q hq') (Nat.lt_irrefl _)
    · by_cases hj : j = i
      · subst hj
        rw [Function.update_self] at hq'
        cases hq'
      · rw [hrun hj] at hq'
        obtain ⟨hj', hlt', hfin, hq''⟩ := h.running j q hq'
        exact ⟨hj', hlt', hnot hfin fun hne => hj (by rw [← hj', hne, hi]), hq''⟩
    · show q ∈ g.finished ++ [k] ∨ _ ∨ Function.update g.running i none (q % n) = some q
      rcases h.complete q hlt' with hq' | hq' | hq'
      · exact .inl (List.mem_append_left _ hq')
      · exact .inr (.inl hq')
      · by_cases hj : q % n = i
        · rw [hj, hr] at hq'
          cases hq'
          exact .inl (List.mem_append_right _ (List.mem_singleton.2 rfl))
        · rw [hrun hj]
          exact .inr (.inr hq')
    · rcases List.mem_append.1 hq' with hq' | hq'
      · exact h.finished q hq'
      · rw [List.mem_singleton.1 hq']
        exact hlt

/-- Every operation keeps the tasks where they belong. -/
theorem Located.step {run : τ → Exec σ Unit} {outside : ε → Exec σ Unit} {g' : Group σ τ}
    {op : Op τ ε} (h : Located n g) (hs : Group.Step n run outside g op g') : Located n g' := by
  cases hs
  cases op with
  | submit task => exact h.submit task
  | start i => exact h.start i
  | finish i => exact h.finish run i
  | outside e => exact ⟨h.queued, h.running, h.sorted, h.complete, h.finished⟩

end

/-! ## The order of the tasks with one key -/

section
variable {σ τ ε κ : Type} {n : Nat} {key : τ → κ} {g g' : Group σ τ}
variable {run : τ → Exec σ Unit} {outside : ε → Exec σ Unit}

/-- Two tasks that have been submitted have the same key. -/
def SameKey (key : τ → κ) (g : Group σ τ) (j k : Nat) : Prop :=
  ∃ a b, g.submitted[j]? = some a ∧ g.submitted[k]? = some b ∧ key a = key b

/-- If the transition starts a task, then the tasks with its key that were submitted before it are
finished. -/
def InOrder (key : τ → κ) (t : Transition (Group σ τ) (Op τ ε)) : Prop :=
  ∀ i k rest, t.label = .start i → t.before.running i = none → t.before.queue i = k :: rest →
    ∀ j < k, SameKey key t.before j k → j ∈ t.before.finished

/-- If the transition submits a task, then each task with its key is finished, or on the loop that
the task is handed to. -/
def Handed (n : Nat) (key : τ → κ) (t : Transition (Group σ τ) (Op τ ε)) : Prop :=
  ∀ task, t.label = .submit task → ∀ j a, t.before.submitted[j]? = some a → key a = key task →
    j ∈ t.before.finished ∨ j % n = t.before.submitted.length % n

/-- The transition submits nothing. -/
def SubmitsNothing (t : Transition (Group σ τ) (Op τ ε)) : Prop :=
  ∀ task, t.label ≠ .submit task

/-- Of two tasks with one key the first is finished, or they are on one loop. -/
def Together (n : Nat) (key : τ → κ) (g : Group σ τ) : Prop :=
  ∀ j k, j < k → SameKey key g j k → j ∈ g.finished ∨ j % n = k % n

/-- What happens without a submission forgets neither a submitted task nor a finished one. -/
theorem submitted_after (n : Nat) (run : τ → Exec σ Unit) (outside : ε → Exec σ Unit)
    (g : Group σ τ) {op : Op τ ε} (hop : ∀ task, op ≠ .submit task) :
    (g.after n run outside op).submitted = g.submitted ∧
      ∀ k ∈ g.finished, k ∈ (g.after n run outside op).finished := by
  cases op with
  | submit task => exact absurd rfl (hop task)
  | start i =>
    show (g.start i).submitted = _ ∧ ∀ k ∈ g.finished, k ∈ (g.start i).finished
    unfold Group.start
    split
    · exact ⟨rfl, fun _ => id⟩
    · exact ⟨rfl, fun _ => id⟩
  | finish i =>
    show (g.finish run i).submitted = _ ∧ ∀ k ∈ g.finished, k ∈ (g.finish run i).finished
    unfold Group.finish
    cases g.running i with
    | none => exact ⟨rfl, fun _ => id⟩
    | some k => exact ⟨rfl, fun _ => List.mem_append_left _⟩
  | outside e => exact ⟨rfl, fun _ => id⟩

theorem together_submit (h : Together n key g) {task : τ}
    (ht : ∀ j a, g.submitted[j]? = some a → key a = key task →
      j ∈ g.finished ∨ j % n = g.submitted.length % n) : Together n key (g.submit n task) := by
  rintro j k hjk ⟨a, b, ha, hb, hkey⟩
  have hlength : k < g.submitted.length + 1 := by
    rw [← length_submit n g task]
    exact (List.getElem?_eq_some_iff.1 hb).1
  have ha' : g.submitted[j]? = some a := by
    rw [← ha]
    exact (List.getElem?_append_left (by omega)).symm
  by_cases hk : k = g.submitted.length
  · have hb' : task = b := by
      have hlast : (g.submitted ++ [task])[k]? = some b := hb
      rw [hk, List.getElem?_concat_length] at hlast
      exact Option.some.inj hlast
    rw [hk]
    exact ht j a ha' (hb' ▸ hkey)
  · have hb' : g.submitted[k]? = some b := by
      rw [← hb]
      exact (List.getElem?_append_left (by omega)).symm
    exact h j k hjk ⟨a, b, ha', hb', hkey⟩

/-- A submission that meets the condition keeps the tasks with one key together, as does every other
step. -/
theorem Together.step {op : Op τ ε} (h : Together n key g)
    (hs : Group.Step n run outside g op g') (ht : Handed n key ⟨g, op, g'⟩) :
    Together n key g' := by
  cases hs
  by_cases hop : ∃ task, op = .submit task
  · obtain ⟨task, rfl⟩ := hop
    exact together_submit h (ht task rfl)
  · obtain ⟨hsubmitted, hfinished⟩ :=
      submitted_after n run outside g fun task ho => hop ⟨task, ho⟩
    rintro j k hjk ⟨a, b, ha, hb, hkey⟩
    rw [hsubmitted] at ha hb
    exact (h j k hjk ⟨a, b, ha, hb, hkey⟩).imp (hfinished j) id

/-- While the tasks with one key are together, they are started in order. -/
theorem inOrder_of_together {op : Op τ ε} (hloc : Located n g) (h : Together n key g) :
    InOrder key (⟨g, op, g'⟩ : Transition (Group σ τ) (Op τ ε)) := by
  intro i k rest _ hrunning hqueue j hjk hsame
  have hqueue' : g.queue i = k :: rest := hqueue
  obtain ⟨hk, hlt, -⟩ := hloc.queued i k (by rw [hqueue']; exact .head _)
  rcases h j k hjk hsame with hfin | hmod
  · exact hfin
  have hj : j % n = i := hmod.trans hk
  rcases hloc.complete j (by omega) with hfin | hq | hr
  · exact hfin
  · -- a waiting task before `k` would be the one to start
    have hsorted := hloc.sorted i
    rw [hqueue', List.pairwise_cons] at hsorted
    rw [hj, hqueue'] at hq
    rcases List.mem_cons.1 hq with rfl | hq
    · exact absurd hjk (Nat.lt_irrefl j)
    · exact absurd (hsorted.1 j hq) (by omega)
  · rw [hj, show g.running i = none from hrunning] at hr
    cases hr

/-! ## A loop that runs ahead -/

/-- A busy loop can finish. -/
theorem exists_idle (run : τ → Exec σ Unit) (outside : ε → Exec σ Unit) (hloc : Located n g)
    (i : Nat) :
    ∃ ws g', Run (Group.Step n run outside) g ws g' ∧ (∀ t ∈ ws, SubmitsNothing t) ∧
      Located n g' ∧ g'.running i = none ∧ g'.queue = g.queue ∧ g'.submitted = g.submitted ∧
      ∀ j ∈ g'.finished, j ∈ g.finished ∨ j % n = i := by
  cases hr : g.running i with
  | none =>
    refine ⟨[], g, .nil, fun t ht => ?_, hloc, hr, rfl, rfl, fun j hj => .inl hj⟩
    cases ht
  | some k =>
    have hstep : Group.Step n run outside g (.finish i) (g.finish run i) := rfl
    refine ⟨_, _, .single hstep, fun t ht => ?_, hloc.finish run i, ?_, ?_, ?_, fun j hj => ?_⟩
    · rw [List.mem_singleton.1 ht]
      exact fun task h => by cases h
    · simp [Group.finish, hr]
    · simp [Group.finish, hr]
    · simp [Group.finish, hr]
    · simp only [Group.finish, hr, List.mem_append, List.mem_singleton] at hj
      rcases hj with hj | rfl
      · exact .inl hj
      · exact .inr (hloc.running i j hr).1

/-- A loop can get to a task that waits, while the other loops rest. -/
theorem exists_next (run : τ → Exec σ Unit) (outside : ε → Exec σ Unit) (i k : Nat)
    (rest : List Nat) : ∀ (q : List Nat) {g : Group σ τ},
    Located n g → g.queue i = q ++ k :: rest →
      ∃ ws g', Run (Group.Step n run outside) g ws g' ∧ (∀ t ∈ ws, SubmitsNothing t) ∧
        g'.running i = none ∧ g'.queue i = k :: rest ∧ g'.submitted = g.submitted ∧
        ∀ j ∈ g'.finished, j ∈ g.finished ∨ j % n = i
  | [], g, hloc, hq => by
    obtain ⟨ws, g', hrun, hws, -, hidle, hqueue, hsub, hfin⟩ :=
      exists_idle run outside hloc i
    exact ⟨ws, g', hrun, hws, hidle, by rw [hqueue]; exact hq, hsub, hfin⟩
  | x :: q, g, hloc, hq => by
    obtain ⟨ws, g₁, hrun, hws, hloc₁, hidle, hqueue, hsub, hfin⟩ :=
      exists_idle run outside hloc i
    have hq₁ : g₁.queue i = x :: (q ++ k :: rest) := by rw [hqueue]; exact hq
    have hstart := start_of_cons hidle hq₁
    obtain ⟨ws', g', hrun', hws', hidle', hq', hsub', hfin'⟩ :=
      exists_next run outside i k rest q (hloc₁.start i)
        (by rw [hstart]; exact Function.update_self ..)
    have hstep : Group.Step n run outside g₁ (.start i) (g₁.start i) := rfl
    refine ⟨_, g', (Run.snoc hrun hstep).append hrun', fun t ht => ?_, hidle', hq', ?_,
      fun j hj => ?_⟩
    · rcases List.mem_append.1 ht with ht | ht
      · rcases List.mem_append.1 ht with ht | ht
        · exact hws t ht
        · rw [List.mem_singleton.1 ht]
          exact fun task h => by cases h
      · exact hws' t ht
    · rw [hsub', hstart]
      exact hsub
    · rcases hfin' j hj with hj | hj
      · rw [hstart] at hj
        exact hfin j hj
      · exact .inr hj

/-- A submission that does not meet the condition can be followed by a start out of order. -/
theorem exists_not_inOrder {t : Transition (Group σ τ) (Op τ ε)} (hloc : Located n t.before)
    (hs : Group.Step n run outside t.before t.label t.after) (ht : ¬ Handed n key t) :
    ∃ ws g', Run (Group.Step n run outside) t.after ws g' ∧ (∀ u ∈ ws, SubmitsNothing u) ∧
      ∃ u ∈ ws, ¬ InOrder key u := by
  simp only [Handed, not_forall, not_or] at ht
  obtain ⟨task, hl, j, a, ha, hkey, hfin, hmod⟩ := ht
  obtain ⟨k, hk⟩ : ∃ k, k = t.before.submitted.length := ⟨_, rfl⟩
  rw [← hk] at hmod
  have hafter : t.after = t.before.submit n task := by
    rw [hl] at hs
    exact hs
  have hqueue : t.after.queue (k % n) = t.before.queue (k % n) ++ [k] := by
    rw [hafter, hk]
    exact Function.update_self ..
  have hloc' : Located n t.after := hafter ▸ hloc.submit task
  obtain ⟨ws, g', hrun, hws, hidle, hq, hsub, hfin'⟩ :=
    exists_next run outside (k % n) k [] _ hloc' hqueue
  have hstep : Group.Step n run outside g' (.start (k % n)) (g'.start (k % n)) := rfl
  have hlt : j < k := hk ▸ (List.getElem?_eq_some_iff.1 ha).1
  have hsubmitted : g'.submitted = t.before.submitted ++ [task] := by
    rw [hsub, hafter]
    rfl
  refine ⟨_, _, .snoc hrun hstep, fun u hu => ?_, _, List.mem_append_right _ (.head _), fun h => ?_⟩
  · rcases List.mem_append.1 hu with hu | hu
    · exact hws u hu
    · rw [List.mem_singleton.1 hu]
      exact fun task h => by cases h
  · have hsame : SameKey key g' j k := by
      refine ⟨a, task, ?_, ?_, hkey⟩
      · rw [hsubmitted, List.getElem?_append_left (hk ▸ hlt), ha]
      · rw [hsubmitted, hk, List.getElem?_concat_length]
    rcases hfin' j (h _ k [] rfl hidle hq j hlt hsame) with hj | hj
    · rw [hafter] at hj
      exact hfin hj
    · exact hmod hj

/-- The tasks with one key are started in order, whatever the loops do, exactly when every submitted
task is handed to the loop of each unfinished one with its key. -/
theorem inOrder_iff {mem : σ} {ts : List (Transition (Group σ τ) (Op τ ε))}
    (hr : Run (Group.Step n run outside) (.initial mem) ts g) :
    (∀ us vs ws g', ts = us ++ vs → Run (Group.Step n run outside) (.initial mem) (us ++ ws) g' →
      (∀ t ∈ ws, SubmitsNothing t) → ∀ t ∈ us ++ ws, InOrder key t) ↔
        ∀ t ∈ ts, Handed n key t := by
  have hloc : ∀ {us g}, Run (Group.Step n run outside) (.initial mem) us g → Located n g :=
    fun hrun => hrun.invariant (located_initial mem) fun _ _ _ h hs => h.step hs
  constructor
  · intro h t ht
    by_contra hnot
    obtain ⟨us, vs, rfl, hrun, hs⟩ := hr.mem ht
    obtain ⟨ws, g', hrun', hws, u, hu, hout⟩ := exists_not_inOrder (hloc hrun) hs hnot
    exact hout (h (us ++ [t]) vs ws g' (by simp) ((hrun.snoc hs).append hrun') hws u
      (List.mem_append_right _ hu))
  · rintro h us vs ws g' rfl hrun hws
    have hhanded : ∀ t ∈ us ++ ws, Handed n key t := fun t ht => by
      rcases List.mem_append.1 ht with ht | ht
      · exact h t (List.mem_append_left _ ht)
      · exact fun task hl => absurd hl (hws t ht task)
    have hstart : Together n key (.initial mem : Group σ τ) := by
      rintro j k - ⟨a, b, ha, -⟩
      cases ha
    exact hrun.forall_mem_guarded (I := fun g => Located n g ∧ Together n key g)
      ⟨located_initial mem, hstart⟩
      (fun _ _ _ h hs ht => ⟨h.1.step hs, h.2.step hs ht⟩) hhanded
      fun _ _ _ h _ _ => inOrder_of_together h.1 h.2

end

end EventLoops
