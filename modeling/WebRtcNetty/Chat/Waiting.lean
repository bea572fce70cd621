import WebRtcNetty.Chat.RoomQueue

/-!
# How long a command waits

A command waits for as many updates of its room as there are commands before it, and the update
after these hands it over: nothing that is called on the room in between, and nothing that is thrown
on the way, makes it wait longer or lets another command overtake it (`waits_of_run`).
-/

namespace WebRtcNetty

open Java Proto2 Command Runs

/-! ## Steps -/

namespace RoomSpec

/-- What a step other than an update does to the two ends of the queue. -/
theorem Step.pending_of_ne_update {p : Platform} {s s' : RoomSpec} {op : RoomStateGroup.Op}
    (h : RoomSpec.Step p s op s') (hop : op ≠ .update) :
    s'.handled = s.handled ∧ ∃ extra, s'.pending = s.pending ++ extra := by
  refine ⟨(h.of_ne_update hop).2, ?_⟩
  cases h with
  | enter c => exact ⟨[], (List.append_nil _).symm⟩
  | addCharacterCmd c k => exact ⟨_, rfl⟩
  | idle hq => exact absurd rfl hop
  | handle hq hphase => exact absurd rfl hop
  | environment w => exact ⟨[], (List.append_nil _).symm⟩

/-- An update hands over the pair at the head of the queue. -/
theorem Step.pending_update {p : Platform} {s s' : RoomSpec} (h : RoomSpec.Step p s .update s') :
    s.pending = [] ∧ s' = s ∨ ∃ pair, s.pending = pair :: s'.pending ∧
      s'.handled = s.handled ++ [(s.phase.code, pair)] := by
  cases h with
  | idle hq => exact .inl ⟨hq, rfl⟩
  | handle hq hphase => exact .inr ⟨_, hq, rfl⟩

end RoomSpec

/-! ## Runs -/

namespace RoomStateGroup

variable {p : Platform} {r r' : Room} {ts : List (Transition Room Op)}

/-- The operation is a call on the room. -/
def Op.isCall : Op → Bool
  | .enter _ | .addCharacterCmd .. | .update => true
  | .environment _ => false

/-- The calls on the room in a run of it, in order. -/
def calls (ts : List (Transition Room Op)) : List Op := (ts.map (·.label)).filter Op.isCall

theorem calls_append (us vs : List (Transition Room Op)) :
    calls (us ++ vs) = calls us ++ calls vs := by
  rw [calls, List.map_append, List.filter_append]
  rfl

/-- The operation is an update. -/
def Op.isUpdate : Op → Bool
  | .update => true
  | .enter _ | .addCharacterCmd .. | .environment _ => false

/-- The number of updates among the calls. -/
def updates (ops : List Op) : Nat := ops.countP Op.isUpdate

theorem updates_append (us vs : List Op) : updates (us ++ vs) = updates us + updates vs :=
  List.countP_append

/-- An operation counts as an update if it is one. -/
theorem updates_single (op : Op) :
    updates (calls [(⟨r, op, r'⟩ : Transition Room Op)]) = if op.isUpdate then 1 else 0 := by
  cases op with
  | enter c => rfl
  | addCharacterCmd c k => rfl
  | update => rfl
  | environment w => rfl

/-- What has become of the pair that was at position `i` of the queue of `r`, after `n` updates: it
has moved forward with each of them, and it has been handed over by the one after the first `i`. -/
structure Waits (r : Room) (i : Nat) (pair : CharacterCmdPair Character Cmd) (n : Nat) (r' : Room) :
    Prop where
  pending : n ≤ i → r'.pending[i - n]? = some pair ∧ r'.handled.length = r.handled.length + n
  handled : i < n → (r'.handled.map (·.2))[r.handled.length + i]? = some pair

section
variable {i n : Nat} {pair : CharacterCmdPair Character Cmd} {r₁ r₂ : Room} {ph ph' : Phase}

/-- What is called on the room besides updates makes no difference. -/
theorem Waits.of_ne_update {op : Op} (h : Waits r i pair n r₁)
    (hs : RoomSpec.Step p (r₁.toSpec ph) op (r₂.toSpec ph')) (hop : op ≠ .update) :
    Waits r i pair n r₂ := by
  obtain ⟨hhandled, extra, hpending⟩ := hs.pending_of_ne_update hop
  have hhandled' : r₂.handled = r₁.handled := hhandled
  have hpending' : r₂.pending = r₁.pending ++ extra := hpending
  refine ⟨fun hn => ?_, fun hn => ?_⟩
  · obtain ⟨hget, hlength⟩ := h.pending hn
    have hbound : i - n < r₁.pending.length := (List.getElem?_eq_some_iff.1 hget).1
    rw [hpending', List.getElem?_append_left hbound, hhandled']
    exact ⟨hget, hlength⟩
  · rw [hhandled']
    exact h.handled hn

/-- An update moves the queue on by one. -/
theorem Waits.update (h : Waits r i pair n r₁)
    (hs : RoomSpec.Step p (r₁.toSpec ph) .update (r₂.toSpec ph')) : Waits r i pair (n + 1) r₂ := by
  rcases hs.pending_update with ⟨hempty, hsame⟩ | ⟨x, hpending, hhandled⟩
  · have hempty' : r₁.pending = [] := hempty
    have hhandled : r₂.handled = r₁.handled := congrArg RoomSpec.handled hsame
    have hn : i < n := by
      by_contra hn
      have hget := (h.pending (Nat.le_of_not_lt hn)).1
      rw [hempty'] at hget
      cases hget
    refine ⟨fun hle => absurd hn (by omega), fun _ => ?_⟩
    rw [hhandled]
    exact h.handled hn
  · have hpending' : r₁.pending = x :: r₂.pending := hpending
    have hhandled' : r₂.handled = r₁.handled ++ [(ph.code, x)] := hhandled
    refine ⟨fun hle => ?_, fun hlt => ?_⟩
    · obtain ⟨hget, hlength⟩ := h.pending (by omega)
      have hpos : i - n = i - (n + 1) + 1 := by omega
      rw [hpending', hpos, List.getElem?_cons_succ] at hget
      rw [hhandled', List.length_append, hlength]
      exact ⟨hget, rfl⟩
    · rw [hhandled', List.map_append]
      rcases Nat.lt_succ_iff_lt_or_eq.1 hlt with hlt | rfl
      · have hget := h.handled hlt
        rw [List.getElem?_append_left (List.getElem?_eq_some_iff.1 hget).1]
        exact hget
      · -- the pair has come to the head of the queue
        obtain ⟨hget, hlength⟩ := h.pending (le_refl i)
        rw [hpending', Nat.sub_self, List.getElem?_cons_zero] at hget
        cases hget
        rw [← hlength, List.map_singleton, ← List.length_map (fun x => x.2),
          List.getElem?_concat_length]

end

/-- In every run from a room in a phase, whatever else happens, a pair at position `i` of the queue
moves forward by one in each update, and is the one handed over in the update after the first `i`.
-/
theorem waits_of_run {ph : Phase} (hph : r.InPhase p ph) (hr : Run (Step p) r ts r') {i : Nat}
    {pair : CharacterCmdPair Character Cmd} (hi : r.pending[i]? = some pair) :
    Waits r i pair (updates (calls ts)) r' := by
  have hboth : Waits r i pair (updates (calls ts)) r' ∧ ∃ ph', r'.InPhase p ph' := by
    induction hr with
    | nil => exact ⟨⟨fun _ => ⟨hi, rfl⟩, fun h => absurd h (Nat.not_lt_zero i)⟩, ph, hph⟩
    | @snoc ts r₁ r₂ op _ hs ih =>
      obtain ⟨hwaits, ph₁, h₁⟩ := ih
      obtain ⟨ph₂, h₂, hspec⟩ := refines h₁ hs
      refine ⟨?_, ph₂, h₂⟩
      rw [calls_append, updates_append, updates_single]
      cases op with
      | update => exact hwaits.update hspec
      | enter c => exact hwaits.of_ne_update hspec (by simp)
      | addCharacterCmd c k => exact hwaits.of_ne_update hspec (by simp)
      | environment w => exact hwaits.of_ne_update hspec (by simp)
  exact hboth.1

end RoomStateGroup

end WebRtcNetty
