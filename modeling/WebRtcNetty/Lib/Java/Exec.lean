/-!
# Computations that may throw

A Java method is a computation over the memory `σ` that returns a value or throws, and whose writes
to the memory stay when it throws: `EStateM` without backtracking. `endState` is the memory it
leaves, whichever way it ends.

A `Frame` is a reflexive and transitive relation between memories, what a piece of code may change.
`Within F m` says that `m` stays within `F`, whether it returns or throws, and has one rule for each
way of composing computations, so that the frame of a method follows its body. A `Lens` is a part
of the memory, and `zoom` runs a computation over that part.
-/

namespace Java

/-- A thrown object, by its class. -/
structure Throwable where
  className : String
  deriving DecidableEq, Repr

/-- A computation over the memory `σ` that returns an `α` or throws. -/
abbrev Exec (σ α : Type) := EStateM Throwable σ α

/-- The memory that a computation leaves, whether it returns or throws. -/
def endState {σ α : Type} (m : Exec σ α) (s : σ) : σ :=
  match m s with
  | .ok _ s' => s'
  | .error _ s' => s'

/-- The computation returns normally from the memory `s`. -/
def Returns {σ α : Type} (m : Exec σ α) (s : σ) : Prop :=
  ∃ a s', m s = .ok a s'

/-- `try { m } catch (Throwable e) { h e }`. -/
def catching {σ α : Type} (m : Exec σ α) (h : Throwable → Exec σ α) : Exec σ α := fun s =>
  match m s with
  | .ok a s' => .ok a s'
  | .error e s' => h e s'

/-- The loop `for (x : xs) { f x }`. -/
def forEach {σ β : Type} : List β → (β → Exec σ Unit) → Exec σ Unit
  | [], _ => pure ()
  | x :: xs, f => do f x; forEach xs f

/-- A pure computation that may throw, run over any memory. -/
def orThrow {σ α : Type} : Except Throwable α → Exec σ α
  | .ok a => pure a
  | .error e => throw e

section
variable {σ α β : Type}

/-! ## Running -/

/-- One computation after another: the second is not begun if the first throws. -/
theorem run_bind (m : Exec σ α) (f : α → Exec σ β) (s : σ) :
    (m >>= f) s = match m s with
      | .ok a s' => f a s'
      | .error e s' => .error e s' := by
  show EStateM.bind m f s = _
  unfold EStateM.bind
  cases m s <;> rfl

/-- To return a value. -/
@[simp] theorem run_pure (a : α) (s : σ) : (pure a : Exec σ α) s = .ok a s := rfl

/-- To read the state. -/
@[simp] theorem run_get (s : σ) : (get : Exec σ σ) s = .ok s s := rfl

/-- To write it. -/
@[simp] theorem run_modify (f : σ → σ) (s : σ) : (modify f : Exec σ Unit) s = .ok () (f s) := rfl

/-- A computation that returned hands its value and its memory on. -/
theorem run_bind_ok {m : Exec σ α} {f : α → Exec σ β} {s s' : σ} {a : α} (h : m s = .ok a s') :
    (m >>= f) s = f a s' := by
  rw [run_bind, h]

/-- A computation that threw ends its sequence. -/
theorem run_bind_error {m : Exec σ α} {f : α → Exec σ β} {s s' : σ} {e : Throwable}
    (h : m s = .error e s') : (m >>= f) s = .error e s' := by
  rw [run_bind, h]

/-- A sequence that returned went through both its parts. -/
theorem bind_eq_ok {m : Exec σ α} {f : α → Exec σ β} {s s'' : σ} {b : β}
    (h : (m >>= f) s = .ok b s'') : ∃ a s', m s = .ok a s' ∧ f a s' = .ok b s'' := by
  rw [run_bind] at h
  cases hm : m s with
  | ok a s' => rw [hm] at h; exact ⟨a, s', rfl, h⟩
  | error e s' => rw [hm] at h; cases h

/-- A sequence that threw did so in its first part, or in its second one. -/
theorem bind_eq_error {m : Exec σ α} {f : α → Exec σ β} {s s'' : σ} {e : Throwable}
    (h : (m >>= f) s = .error e s'') :
    m s = .error e s'' ∨ ∃ a s', m s = .ok a s' ∧ f a s' = .error e s'' := by
  rw [run_bind] at h
  cases hm : m s with
  | ok a s' => rw [hm] at h; exact .inr ⟨a, s', rfl, h⟩
  | error e' s' => rw [hm] at h; cases h; exact .inl rfl

/-- Where a computation that returns ends. -/
theorem endState_ok {m : Exec σ α} {s s' : σ} {a : α} (h : m s = .ok a s') : endState m s = s' := by
  rw [endState, h]

/-- Where one that throws ends. -/
theorem endState_error {m : Exec σ α} {s s' : σ} {e : Throwable} (h : m s = .error e s') :
    endState m s = s' := by
  rw [endState, h]

/-- Returning a value leaves the state. -/
@[simp] theorem endState_pure (a : α) (s : σ) : endState (pure a : Exec σ α) s = s := rfl

/-- So does reading it. -/
theorem endState_get_bind (f : σ → Exec σ α) (s : σ) :
    endState ((get : Exec σ σ) >>= f) s = endState (f s) s := rfl

/-- After a first computation that returns, the second goes on from its end. -/
theorem endState_bind_ok {m : Exec σ α} {f : α → Exec σ β} {s s' : σ} {a : α}
    (h : m s = .ok a s') : endState (m >>= f) s = endState (f a) s' := by
  rw [endState, run_bind_ok h, endState]

/-- One that throws is the end. -/
theorem endState_bind_error {m : Exec σ α} {f : α → Exec σ β} {s s' : σ} {e : Throwable}
    (h : m s = .error e s') : endState (m >>= f) s = s' :=
  endState_error (run_bind_error h)

/-- A handler runs on the memory the throw left. -/
theorem catching_error {m : Exec σ α} {h : Throwable → Exec σ α} {s s' : σ} {e : Throwable}
    (hm : m s = .error e s') : catching m h s = h e s' := by
  rw [catching, hm]

/-- A handler does not run when nothing is thrown. -/
theorem catching_ok {m : Exec σ α} {h : Throwable → Exec σ α} {s s' : σ} {a : α}
    (hm : m s = .ok a s') : catching m h s = .ok a s' := by
  rw [catching, hm]

/-- The handler goes on from where the computation has thrown. -/
theorem endState_catching_error {m : Exec σ α} {h : Throwable → Exec σ α} {s s' : σ}
    {e : Throwable} (hm : m s = .error e s') : endState (catching m h) s = endState (h e) s' := by
  rw [endState, catching_error hm, endState]

/-- Sequencing returns when both parts do. -/
theorem Returns.bind {m : Exec σ α} {f : α → Exec σ β} {s : σ} (h : Returns m s)
    (hf : ∀ a s', m s = .ok a s' → Returns (f a) s') : Returns (m >>= f) s := by
  obtain ⟨a, s', hm⟩ := h
  obtain ⟨b, s'', hb⟩ := hf a s' hm
  exact ⟨b, s'', by rw [run_bind_ok hm, hb]⟩

/-- After a first part that returned, a sequence returns when its second part does. -/
theorem returns_bind_ok {m : Exec σ α} {f : α → Exec σ β} {s s' : σ} {a : α}
    (h : m s = .ok a s') : Returns (m >>= f) s ↔ Returns (f a) s' := by
  rw [Returns, Returns, run_bind_ok h]

/-- A value that is returned at the end makes no difference to whether a computation returns. -/
theorem returns_bind_pure {m : Exec σ α} {b : β} {s : σ} :
    Returns (m >>= fun _ => pure b) s ↔ Returns m s := by
  constructor
  · rintro ⟨_, s', h⟩
    obtain ⟨a, s'', hm, -⟩ := bind_eq_ok h
    exact ⟨a, s'', hm⟩
  · rintro ⟨a, s', h⟩
    exact ⟨b, s', run_bind_ok h⟩

/-- A guarded computation returns when its handler does. -/
theorem Returns.catching {m : Exec σ α} {h : Throwable → Exec σ α} {s : σ}
    (hh : ∀ e s', m s = .error e s' → Returns (h e) s') : Returns (Java.catching m h) s := by
  cases hm : m s with
  | ok a s' => exact ⟨a, s', catching_ok hm⟩
  | error e s' =>
    obtain ⟨a, s'', ha⟩ := hh e s' hm
    exact ⟨a, s'', by rw [catching_error hm, ha]⟩

end

/-! ## Frames -/

/-- What a piece of code may do to the memory: a reflexive and transitive relation. -/
structure Frame (σ : Type) where
  rel : σ → σ → Prop
  refl : ∀ s, rel s s
  trans : ∀ {s₁ s₂ s₃}, rel s₁ s₂ → rel s₂ s₃ → rel s₁ s₃

/-- The frame of code that does not change `f`. -/
def Frame.keeping {σ β : Type} (f : σ → β) : Frame σ where
  rel s s' := f s' = f s
  refl _ := rfl
  trans h₁ h₂ := h₂.trans h₁

/-- The frame of code that keeps an invariant. -/
def Frame.preserving {σ : Type} (I : σ → Prop) : Frame σ where
  rel s s' := I s → I s'
  refl _ h := h
  trans h₁ h₂ h := h₂ (h₁ h)

/-- The frame seen through a function of the memory. -/
def Frame.comap {σ τ : Type} (F : Frame τ) (f : σ → τ) : Frame σ where
  rel s s' := F.rel (f s) (f s')
  refl s := F.refl (f s)
  trans := F.trans

/-- The computation stays within the frame, whether it returns or throws. -/
def Within {σ α : Type} (F : Frame σ) (m : Exec σ α) : Prop :=
  ∀ s, F.rel s (endState m s)

section
variable {σ α β : Type} {F G : Frame σ}

/-- To return a value. -/
theorem Within.pure (a : α) : Within F (pure a : Exec σ α) := F.refl

/-- To throw. -/
theorem Within.throw (e : Throwable) : Within F (throw e : Exec σ α) := F.refl

/-- To read the state. -/
theorem Within.read : Within F (get : Exec σ σ) := F.refl

/-- To return a value or to throw. -/
theorem Within.orThrow (x : Except Throwable α) : Within F (orThrow x : Exec σ α) := by
  cases x with
  | ok a => exact F.refl
  | error e => exact F.refl

/-- To write what the frame allows. -/
theorem Within.modify {f : σ → σ} (h : ∀ s, F.rel s (f s)) : Within F (modify f : Exec σ Unit) := h

/-- Sequencing, where the second part is read at the memory the first one leaves. -/
theorem Within.bind {m : Exec σ α} {f : α → Exec σ β} (hm : Within F m)
    (hf : ∀ a, Within F (f a)) : Within F (m >>= f) := by
  intro s
  have h := hm s
  unfold endState at h ⊢
  rw [run_bind]
  cases hms : m s with
  | ok a s' => rw [hms] at h; exact F.trans h (hf a s')
  | error e s' => rw [hms] at h; exact h

/-- Reading the memory first: the rest may be read at the memory it starts from. -/
theorem Within.read_bind {f : σ → Exec σ β} (hf : ∀ s, F.rel s (endState (f s) s)) :
    Within F (get >>= f) := hf

/-- A computation with a handler. -/
theorem Within.catching {m : Exec σ α} {h : Throwable → Exec σ α} (hm : Within F m)
    (hh : ∀ e, Within F (h e)) : Within F (Java.catching m h) := by
  intro s
  have hs := hm s
  unfold endState at hs ⊢
  cases hms : m s with
  | ok a s' => rw [catching_ok hms]; rw [hms] at hs; exact hs
  | error e s' => rw [catching_error hms]; rw [hms] at hs; exact F.trans hs (hh e s')

/-- A loop. -/
theorem Within.forEach {f : β → Exec σ Unit} (hf : ∀ x, Within F (f x)) :
    ∀ xs : List β, Within F (Java.forEach xs f)
  | [] => .pure ()
  | x :: xs => (hf x).bind fun _ => Within.forEach hf xs

/-- A choice. -/
theorem Within.ite {c : Prop} [Decidable c] {m₁ m₂ : Exec σ α} (h₁ : Within F m₁)
    (h₂ : Within F m₂) : Within F (if c then m₁ else m₂) := by
  split
  · exact h₁
  · exact h₂

/-- What the rest of a sequence does to the memory that its first part leaves. -/
theorem Within.bind_rel {m : Exec σ α} {f : α → Exec σ β} (h : ∀ a, Within F (f a)) (s : σ) :
    F.rel (endState m s) (endState (m >>= f) s) := by
  unfold endState
  rw [run_bind]
  cases m s with
  | ok a s' => exact h a s'
  | error e s' => exact F.refl s'

/-- What the rest of a sequence keeps is as its first part leaves it. -/
theorem keeping_bind {γ : Type} {f : σ → γ} {m : Exec σ α} {g : α → Exec σ β}
    (h : ∀ a, Within (.keeping f) (g a)) (s : σ) : f (endState (m >>= g) s) = f (endState m s) :=
  Within.bind_rel (F := .keeping f) h s

/-- What a handler keeps is as the guarded computation leaves it. -/
theorem keeping_catching {γ : Type} {f : σ → γ} {m : Exec σ α} {h : Throwable → Exec σ α}
    (hh : ∀ e, Within (.keeping f) (h e)) (s : σ) :
    f (endState (Java.catching m h) s) = f (endState m s) := by
  unfold endState
  cases hm : m s with
  | ok a s' => rw [catching_ok hm]
  | error e s' => rw [catching_error hm]; exact hh e s'

/-- A frame may be widened. -/
theorem Within.mono {m : Exec σ α} (h : Within F m) (hFG : ∀ s s', F.rel s s' → G.rel s s') :
    Within G m := fun s => hFG _ _ (h s)

end

/-! ## Parts of the memory -/

/-- A part `τ` of the memory `σ`: how to read it and how to replace it. -/
structure Lens (σ τ : Type) where
  get : σ → τ
  set : σ → τ → σ
  get_set : ∀ s t, get (set s t) = t
  set_get : ∀ s, set s (get s) = s
  set_set : ∀ s t t', set (set s t) t' = set s t'

attribute [simp] Lens.get_set Lens.set_get Lens.set_set

/-- A computation over a part of the memory, run over the memory. -/
def zoom {σ τ α : Type} (L : Lens σ τ) (m : Exec τ α) : Exec σ α := fun s =>
  match m (L.get s) with
  | .ok a t => .ok a (L.set s t)
  | .error e t => .error e (L.set s t)

section
variable {σ τ α β : Type} {L : Lens σ τ} {m : Exec τ α}

/-- A part that returns. -/
theorem zoom_ok {s : σ} {t : τ} {a : α} (h : m (L.get s) = .ok a t) :
    zoom L m s = .ok a (L.set s t) := by
  rw [zoom, h]

/-- A part that throws. -/
theorem zoom_error {s : σ} {t : τ} {e : Throwable} (h : m (L.get s) = .error e t) :
    zoom L m s = .error e (L.set s t) := by
  rw [zoom, h]

/-- To return a value in a part. -/
theorem zoom_pure (a : α) : zoom L (pure a : Exec τ α) = pure a := by
  funext s
  show EStateM.Result.ok a (L.set s (L.get s)) = .ok a s
  rw [L.set_get]

/-- One computation after another in a part. -/
theorem zoom_bind (f : α → Exec τ β) : zoom L (m >>= f) = zoom L m >>= fun a => zoom L (f a) := by
  funext s
  rw [run_bind, zoom, zoom, run_bind]
  cases m (L.get s) with
  | ok a t =>
    show _ = zoom L (f a) (L.set s t)
    rw [zoom, L.get_set]
    simp only [L.set_set]
  | error e t => rfl

/-- A loop over a part. -/
theorem zoom_forEach (f : β → Exec τ Unit) :
    ∀ xs : List β, zoom L (forEach xs f) = forEach xs fun x => zoom L (f x)
  | [] => zoom_pure ()
  | x :: xs => by rw [forEach, forEach, zoom_bind, zoom_forEach f xs]

/-- A computation over a part leaves that part as it does alone, and the rest unchanged. -/
theorem endState_zoom (s : σ) : endState (zoom L m) s = L.set s (endState m (L.get s)) := by
  unfold endState zoom
  cases m (L.get s) with
  | ok a t => rfl
  | error e t => rfl

/-- A computation over a part returns when it does alone. -/
theorem returns_zoom {s : σ} : Returns (zoom L m) s ↔ Returns m (L.get s) := by
  constructor
  · rintro ⟨a, s', h⟩
    unfold zoom at h
    cases hm : m (L.get s) with
    | ok a' t => exact ⟨a', t, hm⟩
    | error e t => rw [hm] at h; cases h
  · rintro ⟨a, t, hm⟩
    exact ⟨a, L.set s t, zoom_ok hm⟩

/-- A computation over a part keeps whatever does not read that part. -/
theorem Within.zoom_keeping {β : Type} {f : σ → β} (hf : ∀ s t, f (L.set s t) = f s) :
    Within (.keeping f) (zoom L m) := by
  intro s
  rw [endState_zoom]
  exact hf s _

/-- A frame of the memory, read where only the part changes, is a frame of the computation. -/
theorem Within.zoom_set {F : Frame σ} (h : ∀ s, Within (F.comap (L.set s)) m) :
    Within F (Java.zoom L m) := fun s => by
  have hs : F.rel (L.set s (L.get s)) (L.set s (endState m (L.get s))) := h s (L.get s)
  rwa [L.set_get, ← endState_zoom] at hs

/-- A frame of the part, read through the lens, is a frame of the zoomed computation. -/
theorem Within.zoom {F : Frame τ} (h : Within F m) : Within (F.comap L.get) (Java.zoom L m) := by
  intro s
  rw [endState_zoom]
  show F.rel (L.get s) (L.get (L.set s _))
  rw [L.get_set]
  exact h _

end

end Java
