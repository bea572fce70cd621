import Mathlib.Data.List.Induction

/-!
# Labelled runs

A transition system is a step relation `Step : σ → ℓ → σ → Prop` over states `σ` and labels `ℓ`. A
run records its transitions, oldest first, with the states before and after each of them, so that a
statement about a run can speak of every state it visits and of what happened earlier.

`Run.invariant` is the induction every safety property goes through, `Run.guarded` the same under a
condition that every transition of the run meets, and `Run.split` cuts a run at a transition.
-/

namespace Runs

/-- A step taken: the state before it, its label, the state after it. -/
structure Transition (σ ℓ : Type) where
  before : σ
  label : ℓ
  after : σ

/-- The runs of `Step` from `s`, with their transitions (oldest first) and their last state. -/
inductive Run {σ ℓ : Type} (Step : σ → ℓ → σ → Prop) (s : σ) : List (Transition σ ℓ) → σ → Prop
  | nil : Run Step s [] s
  | snoc {ts : List (Transition σ ℓ)} {s₁ s₂ : σ} {l : ℓ} :
      Run Step s ts s₁ → Step s₁ l s₂ → Run Step s (ts ++ [⟨s₁, l, s₂⟩]) s₂

section
variable {σ ℓ : Type} {Step : σ → ℓ → σ → Prop} {s s' : σ} {ts : List (Transition σ ℓ)}

/-- A single step is a run. -/
theorem Run.single {l : ℓ} (h : Step s l s') : Run Step s [⟨s, l, s'⟩] s' :=
  .snoc .nil h

/-- A run without transitions stays where it is. -/
theorem Run.eq_of_nil (h : Run Step s [] s') : s' = s := by
  generalize hts : ([] : List (Transition σ ℓ)) = ts at h
  cases h with
  | nil => rfl
  | snoc hr hs => simp at hts

/-- Runs compose. -/
theorem Run.append {us : List (Transition σ ℓ)} {s'' : σ} (h₁ : Run Step s ts s')
    (h₂ : Run Step s' us s'') : Run Step s (ts ++ us) s'' := by
  induction h₂ with
  | nil => simpa using h₁
  | snoc _ hs ih => rw [← List.append_assoc]; exact .snoc ih hs

/-- A run with a first step. -/
theorem Run.cons {l : ℓ} {s₁ : σ} (h : Step s l s₁) (hr : Run Step s₁ ts s') :
    Run Step s (⟨s, l, s₁⟩ :: ts) s' :=
  (Run.single h).append hr

/-- The last transition of a run starts where the run of the others ends, and is a step. -/
theorem Run.snoc_inv {t : Transition σ ℓ} (h : Run Step s (ts ++ [t]) s') :
    Run Step s ts t.before ∧ Step t.before t.label s' ∧ t.after = s' := by
  generalize hts : ts ++ [t] = us at h
  cases h with
  | nil => simp at hts
  | snoc hr hs =>
    obtain ⟨rfl, ht⟩ := List.append_inj' hts rfl
    cases List.singleton_inj.1 ht
    exact ⟨hr, hs, rfl⟩

/-- A run over the transitions of two lists cuts into a run over each. -/
theorem Run.of_append {us vs : List (Transition σ ℓ)} (h : Run Step s (us ++ vs) s') :
    ∃ s₁, Run Step s us s₁ ∧ Run Step s₁ vs s' := by
  induction vs using List.reverseRecOn generalizing s' with
  | nil => exact ⟨s', by simpa using h, .nil⟩
  | append_singleton vs t ih =>
    rw [← List.append_assoc] at h
    obtain ⟨hr, hs, rfl⟩ := h.snoc_inv
    obtain ⟨s₁, h₁, h₂⟩ := ih hr
    exact ⟨s₁, h₁, .snoc h₂ hs⟩

/-- A run is the run before one of its transitions, that transition, and the run after it. -/
theorem Run.split {us vs : List (Transition σ ℓ)} {t : Transition σ ℓ}
    (h : Run Step s (us ++ t :: vs) s') :
    Run Step s us t.before ∧ Step t.before t.label t.after ∧ Run Step t.after vs s' := by
  rw [List.append_cons] at h
  obtain ⟨s₁, h₁, h₂⟩ := h.of_append
  obtain ⟨hr, hs, rfl⟩ := h₁.snoc_inv
  exact ⟨hr, hs, h₂⟩

/-- A transition of a run was taken after some run. -/
theorem Run.mem {t : Transition σ ℓ} (h : Run Step s ts s') (ht : t ∈ ts) :
    ∃ us vs, ts = us ++ t :: vs ∧ Run Step s us t.before ∧ Step t.before t.label t.after := by
  obtain ⟨us, vs, rfl⟩ := List.append_of_mem ht
  exact ⟨us, vs, rfl, h.split.1, h.split.2.1⟩

/-- The invariant rule under a guard: what holds at the start and is kept by every transition that
meets the guard holds at the end of every run whose transitions all meet it. -/
theorem Run.guarded {I : σ → Prop} {G : Transition σ ℓ → Prop} (h : Run Step s ts s') (h0 : I s)
    (hstep : ∀ s₁ l s₂, I s₁ → Step s₁ l s₂ → G ⟨s₁, l, s₂⟩ → I s₂)
    (hg : ∀ t ∈ ts, G t) : I s' := by
  induction h with
  | nil => exact h0
  | snoc _ hs ih =>
    exact hstep _ _ _ (ih fun t ht => hg t (List.mem_append_left _ ht)) hs (hg _ (by simp))

/-- The invariant rule: what holds at the start and is kept by every step holds at the end of every
run. -/
theorem Run.invariant {I : σ → Prop} (h : Run Step s ts s') (h0 : I s)
    (hstep : ∀ s₁ l s₂, I s₁ → Step s₁ l s₂ → I s₂) : I s' :=
  h.guarded (G := fun _ => True) h0 (fun s₁ l s₂ hI hs _ => hstep s₁ l s₂ hI hs)
    fun _ _ => trivial

/-- An invariant holds before every transition of a run, and the transition is a step. -/
theorem Run.forall_mem {I : σ → Prop} {Q : Transition σ ℓ → Prop} (h : Run Step s ts s') (h0 : I s)
    (hstep : ∀ s₁ l s₂, I s₁ → Step s₁ l s₂ → I s₂)
    (hq : ∀ s₁ l s₂, I s₁ → Step s₁ l s₂ → Q ⟨s₁, l, s₂⟩) : ∀ t ∈ ts, Q t := by
  intro t ht
  obtain ⟨us, vs, -, hr, hs⟩ := h.mem ht
  exact hq _ _ _ (hr.invariant h0 hstep) hs

/-- The guarded invariant holds before every transition of a run whose transitions all meet the
guard. -/
theorem Run.forall_mem_guarded {I : σ → Prop} {G Q : Transition σ ℓ → Prop} (h : Run Step s ts s')
    (h0 : I s) (hstep : ∀ s₁ l s₂, I s₁ → Step s₁ l s₂ → G ⟨s₁, l, s₂⟩ → I s₂)
    (hg : ∀ t ∈ ts, G t)
    (hq : ∀ s₁ l s₂, I s₁ → Step s₁ l s₂ → G ⟨s₁, l, s₂⟩ → Q ⟨s₁, l, s₂⟩) : ∀ t ∈ ts, Q t := by
  intro t ht
  obtain ⟨us, vs, rfl, hr, hs⟩ := h.mem ht
  exact hq _ _ _ (hr.guarded h0 hstep fun u hu => hg u (by simp [hu])) hs (hg t ht)

/-! ## Deterministic systems -/

/-- The transitions of a deterministic system under a list of labels. -/
def trace (f : σ → ℓ → σ) : σ → List ℓ → List (Transition σ ℓ)
  | _, [] => []
  | s, l :: ls => ⟨s, l, f s l⟩ :: trace f (f s l) ls

/-- A trace is a run. -/
theorem run_trace {f : σ → ℓ → σ} (hf : ∀ s l, Step s l (f s l)) :
    ∀ (ls : List ℓ) (s : σ), Run Step s (trace f s ls) (ls.foldl f s)
  | [], _ => .nil
  | l :: ls, s => .cons (hf s l) (run_trace hf ls (f s l))

/-! ## The most recent transition of a kind -/

/-- The most recent transition with the property `Q` has the property `R`. -/
def Latest (Q R : Transition σ ℓ → Prop) (ts : List (Transition σ ℓ)) : Prop :=
  ∃ us t vs, ts = us ++ t :: vs ∧ Q t ∧ R t ∧ ∀ v ∈ vs, ¬ Q v

variable {Q R : Transition σ ℓ → Prop} {t : Transition σ ℓ}

theorem Latest.last (hQ : Q t) (hR : R t) : Latest Q R (ts ++ [t]) :=
  ⟨ts, t, [], rfl, hQ, hR, fun v hv => by cases hv⟩

/-- A transition of another kind does not count. -/
theorem Latest.snoc (h : Latest Q R ts) (hQ : ¬ Q t) : Latest Q R (ts ++ [t]) := by
  obtain ⟨us, u, vs, rfl, hu, hr, hvs⟩ := h
  refine ⟨us, u, vs ++ [t], by simp, hu, hr, fun v hv => ?_⟩
  rcases List.mem_append.1 hv with hv | hv
  · exact hvs v hv
  · rw [List.mem_singleton.1 hv]
    exact hQ

/-- The property of the most recent transition may be weakened. -/
theorem Latest.mono {R' : Transition σ ℓ → Prop} (h : Latest Q R ts) (hR : ∀ t, R t → R' t) :
    Latest Q R' ts := by
  obtain ⟨us, t, vs, rfl, hQ, hr, hvs⟩ := h
  exact ⟨us, t, vs, rfl, hQ, hR t hr, hvs⟩

/-- The most recent transition does not come before another one of the kind. -/
theorem Latest.since {us vs : List (Transition σ ℓ)} (h : Latest Q R (us ++ t :: vs)) (hQ : Q t) :
    ∃ u ∈ t :: vs, R u := by
  obtain ⟨us', u, vs', he, -, hr, hvs'⟩ := h
  rcases List.append_eq_append_iff.1 he with ⟨as, rfl, hs⟩ | ⟨as, rfl, hs⟩
  · exact ⟨u, by rw [hs]; simp, hr⟩
  · cases as with
    | nil =>
      cases hs
      exact ⟨t, List.mem_cons_self, hr⟩
    | cons a as =>
      cases hs
      exact absurd hQ (hvs' t (by simp))

/-- There is one most recent transition. -/
theorem Latest.common {R' : Transition σ ℓ → Prop} (h : Latest Q R ts) (h' : Latest Q R' ts) :
    ∃ t ∈ ts, R t ∧ R' t := by
  obtain ⟨us, u, vs, rfl, hu, hr, hvs⟩ := h
  obtain ⟨us', u', vs', he, hu', hr', hvs'⟩ := h'
  refine ⟨u, by simp, hr, ?_⟩
  rcases List.append_eq_append_iff.1 he with ⟨as, rfl, hs⟩ | ⟨as, rfl, hs⟩
  · cases as with
    | nil => cases hs; exact hr'
    | cons a as =>
      cases hs
      exact absurd hu' (hvs u' (by simp))
  · cases as with
    | nil => cases hs; exact hr'
    | cons a as =>
      cases hs
      exact absurd hu (hvs' u (by simp))

end

end Runs
