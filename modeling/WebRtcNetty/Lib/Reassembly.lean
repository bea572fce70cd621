import Mathlib.Data.List.Nodup
import Mathlib.Data.List.Perm.Subperm
import Mathlib.Data.List.Range

/-!
# Reassembly

A message `k` has `size k` parts, and its parts are numbered. The parts of many messages arrive in
any order, each of them at most once, and what puts them together only counts the parts of each
message: the last one completes it. So every message is completed at most once (`nodup_completed`),
and it is completed if and only if all of its parts have arrived (`mem_completed`).
-/

namespace Reassembly

section
variable {K : Type} {size size' : K → Nat} {arrived : List (K × Nat)} {k : K}

/-- The parts have numbers below the size of their message, and none has arrived twice. -/
structure Parts (size : K → Nat) (arrived : List (K × Nat)) : Prop where
  nodup : arrived.Nodup
  lt : ∀ p ∈ arrived, p.2 < size p.1

/-- The parts that had arrived before the last one. -/
theorem Parts.tail {p : K × Nat} (h : Parts size (p :: arrived)) : Parts size arrived where
  nodup := h.nodup.of_cons
  lt q hq := h.lt q (List.mem_cons_of_mem p hq)

variable [DecidableEq K]

/-- The number of parts of a message that have arrived. -/
def count (k : K) (arrived : List (K × Nat)) : Nat := arrived.countP (·.1 = k)

/-- The messages that have been completed. The part that has arrived last comes first, and so does
the message completed last. -/
def completed (size : K → Nat) : List (K × Nat) → List K
  | [] => []
  | (k, _) :: arrived =>
    if count k arrived + 1 = size k then k :: completed size arrived else completed size arrived

/-- The numbers of the parts of a message. -/
def numbers (k : K) (arrived : List (K × Nat)) : List Nat :=
  (arrived.filter (·.1 = k)).map (·.2)

/-- A number is one of those of a part of the message. -/
theorem mem_numbers {i : Nat} : i ∈ numbers k arrived ↔ (k, i) ∈ arrived := by
  simp [numbers]

/-- A message has as many numbers as parts that have arrived. -/
theorem length_numbers (k : K) (arrived : List (K × Nat)) :
    (numbers k arrived).length = count k arrived := by
  rw [numbers, List.length_map, count, List.countP_eq_length_filter]

/-- The numbers are some of those below the size, each of them once. -/
theorem Parts.numbers_subperm (h : Parts size arrived) (k : K) :
    (numbers k arrived).Subperm (List.range (size k)) := by
  refine (List.Nodup.map_on ?_ (h.nodup.filter _)).subperm fun i hi => ?_
  · rintro ⟨k₁, i⟩ h₁ ⟨k₂, j⟩ h₂ (rfl : i = j)
    have hk₁ : k₁ = k := by simpa using (List.mem_filter.1 h₁).2
    have hk₂ : k₂ = k := by simpa using (List.mem_filter.1 h₂).2
    rw [hk₁, hk₂]
  · exact List.mem_range.2 (h.lt (k, i) (mem_numbers.1 hi))

/-- No more parts arrive than a message has. -/
theorem Parts.count_le (h : Parts size arrived) (k : K) : count k arrived ≤ size k := by
  rw [← length_numbers]
  simpa using (h.numbers_subperm k).length_le

/-- As many parts as the message has are all of them. -/
theorem Parts.count_eq_iff (h : Parts size arrived) (k : K) :
    count k arrived = size k ↔ ∀ i < size k, (k, i) ∈ arrived := by
  constructor
  · intro heq i hi
    have hperm := (h.numbers_subperm k).perm_of_length_le (by simp [length_numbers, heq])
    exact mem_numbers.1 (hperm.mem_iff.2 (List.mem_range.2 hi))
  · intro hall
    have hsub : (List.range (size k)).Subperm (numbers k arrived) :=
      List.nodup_range.subperm fun i hi => mem_numbers.2 (hall i (List.mem_range.1 hi))
    have hle := hsub.length_le
    rw [List.length_range, length_numbers] at hle
    exact le_antisymm (h.count_le k) hle

/-- A part of the message counts. -/
theorem count_cons_self (k : K) (i : Nat) (arrived : List (K × Nat)) :
    count k ((k, i) :: arrived) = count k arrived + 1 := by
  simp [count]

/-- A part of another message does not. -/
theorem count_cons_of_ne {k' : K} (hne : k' ≠ k) (i : Nat) (arrived : List (K × Nat)) :
    count k ((k', i) :: arrived) = count k arrived := by
  simp [count, hne]

/-- A message is completed when as many parts have arrived as it has. -/
theorem Parts.mem_completed_iff_count (h : Parts size arrived) :
    k ∈ completed size arrived ↔ 0 < size k ∧ count k arrived = size k := by
  induction arrived with
  | nil =>
    simp only [completed, count, List.countP_nil, List.not_mem_nil, false_iff]
    omega
  | cons p arrived ih =>
    obtain ⟨k', i⟩ := p
    have hle := h.count_le k
    have hih := ih h.tail
    rw [completed]
    rcases eq_or_ne k' k with rfl | hne
    · rw [count_cons_self] at hle ⊢
      split
      · exact iff_of_true List.mem_cons_self (by omega)
      · rw [hih]
        omega
    · rw [count_cons_of_ne hne]
      split
      · rw [List.mem_cons, or_iff_right hne.symm, hih]
      · exact hih

/-- A message is completed if and only if all of its parts have arrived. -/
theorem mem_completed (h : Parts size arrived) :
    k ∈ completed size arrived ↔ 0 < size k ∧ ∀ i < size k, (k, i) ∈ arrived := by
  rw [h.mem_completed_iff_count, h.count_eq_iff]

/-- No message is completed twice. -/
theorem nodup_completed (h : Parts size arrived) : (completed size arrived).Nodup := by
  induction arrived with
  | nil => exact List.nodup_nil
  | cons p arrived ih =>
    rw [completed]
    split
    · next heq =>
      refine List.nodup_cons.2 ⟨fun hmem => ?_, ih h.tail⟩
      have := (h.tail.mem_completed_iff_count.1 hmem).2
      omega
    · exact ih h.tail

/-- Messages of which nothing has arrived make no difference. -/
theorem completed_congr (h : ∀ p ∈ arrived, size p.1 = size' p.1) :
    completed size arrived = completed size' arrived := by
  induction arrived with
  | nil => rfl
  | cons p arrived ih =>
    obtain ⟨k, i⟩ := p
    rw [completed, completed, ih fun q hq => h q (List.mem_cons_of_mem _ hq),
      h (k, i) List.mem_cons_self]

end

end Reassembly
