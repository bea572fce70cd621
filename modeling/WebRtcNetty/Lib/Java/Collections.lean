import Mathlib.Data.List.AList

/-!
# Collections

`HashMap κ ν` is a map from keys to values with the operations of `java.util.HashMap` and
`ConcurrentHashMap`: an association list whose keys are distinct. The order of its entries stands
for one order in which Java may iterate over them. `LinkedBlockingQueue α n` is a queue of at most
`n` elements; the bound is part of the type.
-/

namespace Java

/-! ## Maps -/

/-- `java.util.Map<κ, ν>`, an association list with distinct keys. -/
abbrev HashMap (κ ν : Type) := AList (fun _ : κ => ν)

namespace HashMap

variable {κ ν : Type} [DecidableEq κ]

/-- `map.get(k)`, `none` for `null`. -/
def get (m : HashMap κ ν) (k : κ) : Option ν := m.lookup k

/-- `map.containsKey(k)`. -/
def containsKey (m : HashMap κ ν) (k : κ) : Bool := (m.get k).isSome

/-- `map.put(k, v)`. -/
def put (m : HashMap κ ν) (k : κ) (v : ν) : HashMap κ ν := m.insert k v

/-- `map.remove(k)`: the value that was there, and the map without it. -/
def remove (m : HashMap κ ν) (k : κ) : Option ν × HashMap κ ν := (m.get k, m.erase k)

omit [DecidableEq κ] in
/-- `map.size()`. -/
def size (m : HashMap κ ν) : Nat := m.entries.length

omit [DecidableEq κ] in
/-- `map.values()`. -/
def values (m : HashMap κ ν) : List ν := m.entries.map (·.2)

/-- `map.entrySet().removeIf(p)`. -/
def removeIf (m : HashMap κ ν) (p : κ → ν → Bool) : HashMap κ ν where
  entries := m.entries.filter fun e => !p e.1 e.2
  nodupKeys := m.nodupKeys.sublist List.filter_sublist

/-- `map.computeIfPresent(k, f)`: no entry is made for an absent key. -/
def computeIfPresent (m : HashMap κ ν) (k : κ) (f : ν → ν) : HashMap κ ν :=
  match m.get k with
  | some w => m.put k (f w)
  | none => m

@[simp] theorem get_empty (k : κ) : get (∅ : HashMap κ ν) k = none := AList.lookup_empty k

@[simp] theorem get_put (m : HashMap κ ν) (k : κ) (v : ν) : (m.put k v).get k = some v :=
  AList.lookup_insert m

theorem get_put_ne {m : HashMap κ ν} {k k' : κ} (v : ν) (h : k' ≠ k) :
    (m.put k v).get k' = m.get k' :=
  AList.lookup_insert_ne h

theorem get_put_eq (m : HashMap κ ν) (k k' : κ) (v : ν) :
    (m.put k v).get k' = if k' = k then some v else m.get k' := by
  split
  · next h => subst h; exact get_put m _ v
  · next h => exact get_put_ne v h

/-- A key that the map has is not one that it lacks. -/
theorem ne_of_get {m : HashMap κ ν} {k k' : κ} {v : ν} (h : m.get k = some v)
    (h' : m.get k' = none) : k ≠ k' := by
  rintro rfl
  rw [h] at h'
  cases h'

/-- A new key leaves the entries that there are. -/
theorem get_put_of_get {m : HashMap κ ν} {k k' : κ} {v : ν} (v' : ν) (h : m.get k = some v)
    (h' : m.get k' = none) : (m.put k' v').get k = some v :=
  (get_put_ne v' (ne_of_get h h')).trans h

@[simp] theorem get_remove (m : HashMap κ ν) (k : κ) : (m.remove k).2.get k = none :=
  AList.lookup_erase k m

theorem get_remove_ne {m : HashMap κ ν} {k k' : κ} (h : k' ≠ k) :
    (m.remove k).2.get k' = m.get k' :=
  AList.lookup_erase_ne h

theorem get_remove_eq (m : HashMap κ ν) (k k' : κ) :
    (m.remove k).2.get k' = if k' = k then none else m.get k' := by
  split
  · next h => subst h; exact get_remove m _
  · next h => exact get_remove_ne h

/-- Removing what is not there changes nothing. -/
theorem remove_of_get_none {m : HashMap κ ν} {k : κ} (h : m.get k = none) : (m.remove k).2 = m := by
  have hk : k ∉ m.entries.keys := fun hk => by
    have hsome : (m.get k).isSome = true := AList.lookup_isSome.2 (AList.mem_keys.2 hk)
    rw [h] at hsome
    cases hsome
  exact AList.ext (List.kerase_of_notMem_keys hk)

theorem get_eq_some_iff {m : HashMap κ ν} {k : κ} {v : ν} :
    m.get k = some v ↔ (⟨k, v⟩ : Sigma fun _ : κ => ν) ∈ m.entries :=
  AList.mem_lookup_iff

/-- A value of the map is the value of some key. -/
theorem mem_values {m : HashMap κ ν} {v : ν} : v ∈ m.values ↔ ∃ k, m.get k = some v := by
  simp only [values, List.mem_map, get_eq_some_iff]
  constructor
  · rintro ⟨⟨k, w⟩, h, rfl⟩; exact ⟨k, h⟩
  · rintro ⟨k, h⟩; exact ⟨⟨k, v⟩, h, rfl⟩

/-- A value that replaces another makes the map no larger. -/
theorem size_put_of_containsKey {m : HashMap κ ν} {k : κ} (v : ν) (h : m.containsKey k = true) :
    (m.put k v).size = m.size := by
  have hk : k ∈ m.entries.keys := AList.mem_keys.1 (AList.lookup_isSome.1 h)
  obtain ⟨w, l₁, l₂, -, hentries, hkerase⟩ := List.exists_of_kerase hk
  show (⟨k, v⟩ :: m.entries.kerase k).length = m.entries.length
  rw [hkerase, hentries]
  simp only [List.length_cons, List.length_append, Nat.add_assoc]

/-- A value makes the map larger by one at most. -/
theorem size_put_le (m : HashMap κ ν) (k : κ) (v : ν) : (m.put k v).size ≤ m.size + 1 :=
  Nat.succ_le_succ (List.kerase_sublist k m.entries).length_le

theorem size_remove_le (m : HashMap κ ν) (k : κ) : (m.remove k).2.size ≤ m.size :=
  (List.kerase_sublist k m.entries).length_le

/-- The key of every value is what `f` says of the value. -/
def KeyedBy (f : ν → κ) (m : HashMap κ ν) : Prop := ∀ k v, m.get k = some v → f v = k

namespace KeyedBy

variable {f : ν → κ} {m : HashMap κ ν}

theorem empty (f : ν → κ) : KeyedBy f ∅ := fun k v h => by
  rw [get_empty] at h
  cases h

theorem put (h : KeyedBy f m) (v : ν) : KeyedBy f (m.put (f v) v) := fun k v' hget => by
  rw [get_put_eq] at hget
  split at hget
  · next hk =>
    cases hget
    exact hk.symm
  · exact h k v' hget

theorem remove (h : KeyedBy f m) (k : κ) : KeyedBy f (m.remove k).2 := fun k' v hget => by
  rw [get_remove_eq] at hget
  split at hget
  · cases hget
  · exact h k' v hget

/-- Each key is that of one value. -/
theorem nodup (h : KeyedBy f m) : (m.values.map f).Nodup := by
  have hkeys : m.values.map f = m.entries.keys := by
    rw [values, List.map_map, List.keys]
    exact List.map_congr_left fun e he => h e.1 e.2 (get_eq_some_iff.2 he)
  rw [hkeys]
  exact m.nodupKeys

end KeyedBy

/-- What `removeIf` leaves. -/
theorem get_removeIf (m : HashMap κ ν) (p : κ → ν → Bool) (k : κ) (v : ν) :
    (m.removeIf p).get k = some v ↔ m.get k = some v ∧ p k v = false := by
  simp [get_eq_some_iff, removeIf]

/-- `removeIf` leaves no entry that was not there. -/
theorem get_removeIf_eq_none {m : HashMap κ ν} {p : κ → ν → Bool} {k : κ} (h : m.get k = none) :
    (m.removeIf p).get k = none := by
  cases hv : (m.removeIf p).get k with
  | none => rfl
  | some v => rw [((get_removeIf m p k v).1 hv).1] at h; cases h

/-- `computeIfPresent` leaves the map alone where the key is absent. -/
theorem computeIfPresent_of_none {m : HashMap κ ν} {k : κ} (f : ν → ν) (h : m.get k = none) :
    m.computeIfPresent k f = m := by
  rw [computeIfPresent, h]

end HashMap

/-! ## Queues -/

/-- `java.util.concurrent.LinkedBlockingQueue` of capacity `n`: never more than `n` elements. -/
structure LinkedBlockingQueue (α : Type) (n : Nat) where
  items : List α
  bound : items.length ≤ n

namespace LinkedBlockingQueue

variable {α : Type} {n : Nat}

/-- `new LinkedBlockingQueue<>(n)`. -/
def empty : LinkedBlockingQueue α n := ⟨[], Nat.zero_le n⟩

/-- `queue.offer(a)`: refused when the queue is full. -/
def offer (q : LinkedBlockingQueue α n) (a : α) : Bool × LinkedBlockingQueue α n :=
  if h : q.items.length < n then
    (true, ⟨q.items ++ [a], by simpa using Nat.succ_le_of_lt h⟩)
  else
    (false, q)

/-- `queue.poll()`: the oldest element, `none` for `null`. -/
def poll (q : LinkedBlockingQueue α n) : Option α × LinkedBlockingQueue α n :=
  match h : q.items with
  | [] => (none, q)
  | a :: rest => (some a, ⟨rest, by have := q.bound; rw [h] at this; exact Nat.le_of_succ_le this⟩)

/-- Polling an empty queue changes nothing. -/
theorem poll_of_nil {q : LinkedBlockingQueue α n} (h : q.items = []) : q.poll = (none, q) := by
  unfold poll
  split <;> simp_all

/-- Polling another queue takes its head. -/
theorem poll_of_cons {q : LinkedBlockingQueue α n} {a : α} {rest : List α}
    (h : q.items = a :: rest) : q.poll.1 = some a ∧ q.poll.2.items = rest := by
  unfold poll
  split <;> simp_all

end LinkedBlockingQueue

end Java
