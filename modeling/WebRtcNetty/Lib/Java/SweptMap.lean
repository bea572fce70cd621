import WebRtcNetty.Lib.Java.Collections

/-!
# Maps that are swept by copying

A map that is published by a volatile reference may be swept without a lock: a thread copies it,
drops entries from its copy, and publishes the copy in the map's place, while other threads go on
inserting into the map that they read. A `SweptMap` is such a map with the copy that the sweeping
thread has.

An entry that the published map and the copy both have survives the sweep as long as it is not
dropped (`Holds`). A key that the copy lacks is gone once the copy is published, whatever has been
inserted into the map meanwhile (`Lacks`).
-/

namespace Java

/-- Where the sweeping thread is: between two sweeps, or with a copy from which it has not yet
dropped anything, or with one that is ready to be published. -/
inductive Sweep (κ ν : Type)
  | idle
  | copied (copy : HashMap κ ν)
  | dropped (copy : HashMap κ ν)

/-- The copy that the sweeping thread has. -/
def Sweep.copy? {κ ν : Type} : Sweep κ ν → Option (HashMap κ ν)
  | .idle => none
  | .copied copy => some copy
  | .dropped copy => some copy

/-- A sweep with a copy is under way. -/
theorem Sweep.copied_ne_idle {κ ν : Type} (copy : HashMap κ ν) : Sweep.copied copy ≠ .idle := by
  intro h
  cases h

/-- It is so until the copy is published. -/
theorem Sweep.dropped_ne_idle {κ ν : Type} (copy : HashMap κ ν) : Sweep.dropped copy ≠ .idle := by
  intro h
  cases h

/-- The published map, with the sweep. -/
structure SweptMap (κ ν : Type) where
  map : HashMap κ ν
  sweep : Sweep κ ν

namespace SweptMap

variable {κ ν : Type}

/-! ## Steps -/

/-- `map.put(k, v)` on the published map. -/
def insert [DecidableEq κ] (m : SweptMap κ ν) (k : κ) (v : ν) : SweptMap κ ν :=
  { m with map := m.map.put k v }

/-- The sweeping thread copies the published map. -/
def copy (m : SweptMap κ ν) : SweptMap κ ν :=
  match m.sweep with
  | .idle => { m with sweep := .copied m.map }
  | _ => m

/-- The sweeping thread drops entries from its copy. -/
def drop (drops : ν → Bool) (m : SweptMap κ ν) : SweptMap κ ν :=
  match m.sweep with
  | .copied copy => { m with sweep := .dropped (copy.removeIf fun _ v => drops v) }
  | _ => m

/-- The sweeping thread publishes its copy. -/
def publish (m : SweptMap κ ν) : SweptMap κ ν :=
  match m.sweep with
  | .dropped copy => ⟨copy, .idle⟩
  | _ => m

/-- Nothing is seen of a sweep before it publishes its copy. -/
@[simp] theorem copy_map (m : SweptMap κ ν) : m.copy.map = m.map := by
  unfold copy
  split
  · rfl
  · rfl

/-- What is dropped from the copy stays in the map. -/
@[simp] theorem drop_map (drops : ν → Bool) (m : SweptMap κ ν) : (m.drop drops).map = m.map := by
  unfold drop
  split
  · rfl
  · rfl

/-- A sweep that nothing comes in between of drops the entries from the map. -/
theorem publish_drop_copy (drops : ν → Bool) (map : HashMap κ ν) :
    ((SweptMap.mk map .idle).copy.drop drops).publish =
      ⟨map.removeIf fun _ v => drops v, .idle⟩ := rfl

/-! ## Entries that are kept -/

section
variable [DecidableEq κ]

/-- The published map has the entry, and so has the copy, if there is one. -/
structure Holds (m : SweptMap κ ν) (k : κ) (v : ν) : Prop where
  published : m.map.get k = some v
  copied : ∀ copy, m.sweep.copy? = some copy → copy.get k = some v

variable {m : SweptMap κ ν} {k k' : κ} {v v' : ν} {drops : ν → Bool}

/-- Between two sweeps there is no copy. -/
theorem Holds.of_idle (h : m.sweep = .idle) (hk : m.map.get k = some v) : m.Holds k v where
  published := hk
  copied copy hc := by
    rw [h] at hc
    cases hc

/-- An entry stays when another one is put. -/
theorem Holds.insert (h : m.Holds k v) (hne : k ≠ k') : (m.insert k' v').Holds k v where
  published := (HashMap.get_put_ne v' hne).trans h.published
  copied := h.copied

/-- It is copied. -/
theorem Holds.copy (h : m.Holds k v) : m.copy.Holds k v := by
  unfold SweptMap.copy
  split
  · refine ⟨h.published, fun copy hc => ?_⟩
    cases hc
    exact h.published
  · exact h

/-- It stays in the copy, unless the sweep drops it. -/
theorem Holds.drop (h : m.Holds k v) (hkeep : ∀ copy, m.sweep = .copied copy → drops v = false) :
    (m.drop drops).Holds k v := by
  unfold SweptMap.drop
  split
  · next copied hs =>
    refine ⟨h.published, fun copy hc => ?_⟩
    cases hc
    have hget : copied.get k = some v := h.copied copied (by rw [hs]; rfl)
    exact (HashMap.get_removeIf _ _ _ _).2 ⟨hget, hkeep copied hs⟩
  · exact h

/-- It is published with the copy. -/
theorem Holds.publish (h : m.Holds k v) : m.publish.Holds k v := by
  unfold SweptMap.publish
  split
  · next copy hs => exact .of_idle rfl (h.copied copy (by rw [hs]; rfl))
  · exact h

/-! ## Entries that are lost -/

/-- The copy has only entries of the published map. -/
def CopyWithin (m : SweptMap κ ν) : Prop :=
  ∀ copy, m.sweep.copy? = some copy → ∀ k v, copy.get k = some v → m.map.get k = some v

/-- Without a sweep there is no copy. -/
theorem CopyWithin.of_idle (h : m.sweep = .idle) : m.CopyWithin := by
  intro copy hc
  rw [h] at hc
  cases hc

/-- A new key of the map makes no difference to the copy. -/
theorem CopyWithin.insert (h : m.CopyWithin) (hk : m.map.get k = none) :
    (m.insert k v).CopyWithin := by
  intro copy hc k' v' hget
  have hold : m.map.get k' = some v' := h copy hc k' v' hget
  exact HashMap.get_put_of_get v hold hk

/-- A copy has what the map has. -/
theorem CopyWithin.copy (h : m.CopyWithin) : m.copy.CopyWithin := by
  unfold SweptMap.copy
  split
  · intro copy hc k v hget
    cases hc
    exact hget
  · exact h

/-- Nothing comes into the copy. -/
theorem CopyWithin.drop (h : m.CopyWithin) : (m.drop drops).CopyWithin := by
  unfold SweptMap.drop
  split
  · next copied hs =>
    intro copy hc k v hget
    cases hc
    exact h copied (by rw [hs]; rfl) k v ((HashMap.get_removeIf _ _ _ _).1 hget).1
  · exact h

/-- When the copy is published there is none. -/
theorem CopyWithin.publish (h : m.CopyWithin) : m.publish.CopyWithin := by
  unfold SweptMap.publish
  split
  · exact .of_idle rfl
  · exact h

/-- What a publication leaves was there before. -/
theorem CopyWithin.get_publish (h : m.CopyWithin) (hget : m.publish.map.get k = some v) :
    m.map.get k = some v := by
  unfold SweptMap.publish at hget
  split at hget
  · next copy hs => exact h copy (by rw [hs]; rfl) k v hget
  · exact hget

/-- There is a copy, and it lacks the key. -/
def Lacks (m : SweptMap κ ν) (k : κ) : Prop :=
  ∃ copy, m.sweep.copy? = some copy ∧ copy.get k = none

/-- A new key is not in the copy. -/
theorem CopyWithin.lacks_insert {copy : HashMap κ ν} (h : m.CopyWithin)
    (hc : m.sweep.copy? = some copy) (hk : m.map.get k = none) : (m.insert k v).Lacks k := by
  refine ⟨copy, hc, ?_⟩
  cases hget : copy.get k with
  | none => rfl
  | some v =>
    rw [h copy hc k v hget] at hk
    cases hk

/-- No second copy is made during a sweep. -/
theorem Lacks.copy (h : m.Lacks k) : m.copy.Lacks k := by
  unfold SweptMap.copy
  split
  · next hs =>
    obtain ⟨copy, hc, -⟩ := h
    rw [hs] at hc
    cases hc
  · exact h

/-- What the copy lacks does not come into it. -/
theorem Lacks.drop (h : m.Lacks k) : (m.drop drops).Lacks k := by
  unfold SweptMap.drop
  split
  · next copied hs =>
    obtain ⟨copy, hc, hget⟩ := h
    rw [hs] at hc
    cases hc
    exact ⟨_, rfl, HashMap.get_removeIf_eq_none hget⟩
  · exact h

/-- The publication loses the key, unless the thread still has to drop entries. -/
theorem Lacks.publish (h : m.Lacks k) : m.publish.map.get k = none ∨ m.publish.Lacks k := by
  unfold SweptMap.publish
  split
  · next copy hs =>
    obtain ⟨copy', hc, hget⟩ := h
    rw [hs] at hc
    cases hc
    exact .inl hget
  · exact .inr h

end

end SweptMap

end Java
