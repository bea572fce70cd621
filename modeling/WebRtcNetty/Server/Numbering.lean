import WebRtcNetty.Server.RoomRegistry

/-!
# The ids of the rooms

The counter of the room ids goes up with every creation, so the rooms get the ids from 1 on in the
order of their creation, until the counter wraps around. Until then no two rooms have the same id,
whether the registry still has them or not, and the id 0, which is the current room of a character
that has entered none, is no room's.
-/

namespace WebRtcNetty

open Java Proto2 Command Runs Server

namespace RoomRegistry

/-- The rooms' ids are the numbers from 1 on, the counter is the next one, and the registry has a
room under its own id. With a capacity that is refused there is no room. -/
structure Listing.Numbered (l : Listing) (idCounter : BitVec 64) : Prop where
  idCounter : 8 ≤ l.capacity → idCounter = BitVec.ofNat 64 (l.count + 1)
  noRoom : ¬ 8 ≤ l.capacity → l.count = 0
  id : ∀ r < l.count, l.id r = BitVec.ofNat 64 (r + 1)
  registered : ∀ k r, l.map.get k = some r → r < l.count ∧ l.id r = k

section
variable {l : Listing} {k : BitVec 64}

/-- Numbers below `2 ^ 64` are different ids. -/
theorem ofNat_injective {a b : Nat} (ha : a < 2 ^ 64) (hb : b < 2 ^ 64)
    (h : BitVec.ofNat 64 a = BitVec.ofNat 64 b) : a = b := by
  have hnat := congrArg BitVec.toNat h
  rwa [BitVec.toNat_ofNat, BitVec.toNat_ofNat, Nat.mod_eq_of_lt ha, Nat.mod_eq_of_lt hb] at hnat

/-- No two rooms have the same id. -/
theorem Listing.Numbered.id_injective (h : l.Numbered k) (hcount : l.count < 2 ^ 63) {r r' : Nat}
    (hr : r < l.count) (hr' : r' < l.count) (he : l.id r = l.id r') : r = r' := by
  rw [h.id r hr, h.id r' hr'] at he
  have := ofNat_injective (by omega) (by omega) he
  omega

/-- No room has the id 0. -/
theorem Listing.Numbered.id_ne_zero (h : l.Numbered k) (hcount : l.count < 2 ^ 63) {r : Nat}
    (hr : r < l.count) : l.id r ≠ 0 := by
  intro he
  rw [h.id r hr] at he
  have := ofNat_injective (b := 0) (by omega) (by omega) he
  omega

/-- The registry has no room under the counter's id. -/
theorem Listing.Numbered.get_idCounter (h : l.Numbered k) (hcap : 8 ≤ l.capacity)
    (hcount : l.count < 2 ^ 63) : l.map.get k = none := by
  cases hget : l.map.get k with
  | none => rfl
  | some r =>
    obtain ⟨hr, hid⟩ := h.registered k r hget
    have hbound : ∀ n ≤ l.count, n + 1 < 2 ^ 64 := fun n hn => by omega
    rw [h.id r hr, h.idCounter hcap] at hid
    have hsame := ofNat_injective (hbound r hr.le) (hbound l.count (le_refl _)) hid
    exact absurd (Nat.succ.inj hsame) (Nat.ne_of_lt hr)

/-- A new room gets the counter's id. -/
theorem Listing.Numbered.add (h : l.Numbered k) (hcap : 8 ≤ l.capacity) :
    (l.add k).Numbered (k + 1) where
  idCounter _ := by
    show k + 1 = BitVec.ofNat 64 (l.count + 1 + 1)
    rw [h.idCounter hcap]
    exact (BitVec.ofNat_add (l.count + 1) 1).symm
  noRoom hno := absurd hcap hno
  id r (hr : r < l.count + 1) := by
    show Function.update l.id l.count k r = _
    by_cases hnew : r = l.count
    · rw [hnew, Function.update_self, h.idCounter hcap]
    · rw [Function.update_of_ne hnew]
      exact h.id r (lt_of_le_of_ne (Nat.lt_succ_iff.1 hr) hnew)
  registered k' r hget := by
    show r < l.count + 1 ∧ Function.update l.id l.count k r = k'
    have hput : (l.map.put k l.count).get k' = some r := hget
    rw [HashMap.get_put_eq] at hput
    split at hput
    · next hk =>
      cases hput
      exact ⟨Nat.lt_succ_self _, by rw [Function.update_self, hk]⟩
    · obtain ⟨hr, hid⟩ := h.registered k' r hput
      exact ⟨Nat.lt_succ_of_lt hr, by rw [Function.update_of_ne (Nat.ne_of_lt hr), hid]⟩

end

/-! ## What keeps the numbers -/

/-- The frame of code that gives the rooms their numbers, as long as there are fewer than `2 ^ 63`.
-/
def numbering : Frame Server where
  rel s s' := s.roomCount ≤ s'.roomCount ∧ (s'.roomCount < 2 ^ 63 →
    (listing s).Numbered s.idCounter → (listing s').Numbered s'.idCounter)
  refl _ := ⟨le_refl _, fun _ h => h⟩
  trans h₁ h₂ := ⟨h₁.1.trans h₂.1, fun hcount h =>
    h₂.2 hcount (h₁.2 (h₂.1.trans_lt hcount) h)⟩

section
variable {p : Platform} {s s' : Server}

/-- The numbering goes on if the registry and the counter are the same. -/
theorem numbering_of_eq (hlisting : listing s' = listing s)
    (hcounter : s'.idCounter = s.idCounter) : numbering.rel s s' := by
  have hcount : s'.roomCount = s.roomCount := congrArg Listing.count hlisting
  refine ⟨hcount.ge, fun _ h => ?_⟩
  rw [hlisting, hcounter]
  exact h

/-- What does not concern the registry, and makes no room, keeps the numbers. -/
theorem numbering_of_listing {α : Type} {m : Exec Server α} (h : Within (.keeping listing) m)
    (hcounter : Within (.keeping Server.idCounter) m) : Within numbering m := fun s =>
  numbering_of_eq (h s) (hcounter s)

/-- The rooms do not give ids. -/
theorem idCounter_inRoom {α : Type} (r : RoomRef) (m : Exec Room α) :
    Within (.keeping Server.idCounter) (inRoom r m) :=
  .zoom_keeping fun _ _ => rfl

/-- Neither do the sessions and characters. -/
theorem idCounter_inWorld {α : Type} (m : Exec World α) :
    Within (.keeping Server.idCounter) (inWorld m) :=
  .zoom_keeping fun _ _ => rfl

/-- Every creation takes a number. -/
theorem idCounter_create (c : Character) (config : RoomStateConfig) (s : Server) :
    (endState (RoomStateGroupFactory.create p c config) s).idCounter = s.idCounter + 1 := by
  unfold endState RoomStateGroupFactory.create
  dsimp only
  cases s.stateGroupMap.get s.idCounter with
  | some r => rfl
  | none =>
    dsimp only
    cases RoomStateGroup.create p s.idCounter c config s.roomCapacity s.world with
    | none => rfl
    | some room => rfl

/-- The factory gives the next id to a room. -/
theorem create_numbering (c : Character) (config : RoomStateConfig) :
    Within numbering (RoomStateGroupFactory.create p c config) := by
  intro s
  have hcounter := idCounter_create (p := p) c config s
  rcases create_cases (p := p) c config s with
    ⟨e, s', hc, hcap, hs'⟩ | ⟨r, s', hc, hget, hs'⟩ | ⟨s', hc, -, hcap, hs'⟩
  · rw [endState_error hc] at hcounter ⊢
    refine ⟨(congrArg Listing.count hs').ge, fun _ h => ?_⟩
    rw [hs']
    exact ⟨fun hcap' => absurd hcap' hcap, h.noRoom, h.id, h.registered⟩
  · -- Such a room would have the number that the next one gets.
    rw [endState_ok hc]
    have hcount : s'.roomCount = s.roomCount := congrArg Listing.count hs'
    refine ⟨hcount.ge, fun hlt h => ?_⟩
    by_cases hcap : 8 ≤ s.roomCapacity
    · rw [hcount] at hlt
      cases hget.symm.trans (h.get_idCounter hcap hlt)
    · have hno : s.roomCount = 0 := h.noRoom hcap
      obtain ⟨hr, -⟩ : r < s.roomCount ∧ _ := h.registered _ _ hget
      rw [hno] at hr
      exact absurd hr (Nat.not_lt_zero r)
  · rw [endState_ok hc] at hcounter ⊢
    have hcount : s'.roomCount = s.roomCount + 1 := congrArg Listing.count hs'
    refine ⟨hcount ▸ Nat.le_succ _, fun _ h => ?_⟩
    rw [hs', hcounter]
    exact h.add hcap

/-- What the handlers do in rooms keeps the numbers. -/
theorem allowsRooms_numbering : Frame.AllowsRooms p numbering where
  sending _ := ⟨fun _ _ _ => numbering_of_eq rfl rfl, fun _ => numbering_of_eq rfl rfl⟩
  entering r c := numbering_of_listing (enter_listing r c) (idCounter_inRoom r _)
  queueing r c k :=
    numbering_of_listing (allowsEntries_listing (p := p).queueing r c k) (idCounter_inRoom r _)
  creating c config := create_numbering c config
  adding _ := .modify fun _ => numbering_of_eq rfl rfl

/-- Characters that are found or created get no room id. -/
theorem allowsCharacters_numbering : Frame.AllowsCharacters numbering where
  finding session userId := numbering_of_listing (allowsCharacters_listing.finding session userId)
    fun s => by
      unfold endState ChatterFactory.findOrCreate
      cases s.characterMap.get userId with
      | some c => rfl
      | none => rfl
  attributing _ _ := numbering_of_listing (inWorld_listing _) (idCounter_inWorld _)
  displacing _ _ := numbering_of_listing (inWorld_listing _) (idCounter_inWorld _)

/-- The registry only loses rooms besides the handlers. -/
theorem background_numbering (b : Background) : Within numbering (b.run p) := by
  cases b with
  | update r =>
    refine .bind .read fun _ => .ite (numbering_of_listing (inRoom_listing fun room => ?_)
      (idCounter_inRoom r _)) (.pure ())
    exact congrArg (·.1) (AbstractStateGroup.update_config room)
  | removeOffLine => exact .modify fun _ => numbering_of_eq rfl rfl
  | removeDeposedStateGroup =>
    refine .modify fun s => ⟨le_refl _, fun _ h => ⟨h.idCounter, h.noRoom, h.id, fun k r hr => ?_⟩⟩
    exact h.registered k r ((HashMap.get_removeIf _ _ k r).1 hr).1
  | removeWorker => exact .modify fun _ => numbering_of_eq rfl rfl
  | removeDeposedGroup worker => exact .modify fun _ => numbering_of_eq rfl rfl
  | close session => exact numbering_of_listing (inWorld_listing _) (idCounter_inWorld _)

/-- At the start no room has an id. -/
theorem numbered_initial (w : World) (roomCapacity : Int) (m : WorkerManager RoomRef) :
    (listing (Server.initial w roomCapacity m)).Numbered (Server.initial w roomCapacity m).idCounter
    where
  idCounter _ := rfl
  noRoom _ := rfl
  id r hr := absurd hr (Nat.not_lt_zero r)
  registered k r hr := by
    cases (HashMap.get_empty k).symm.trans hr

end

end RoomRegistry

end WebRtcNetty
