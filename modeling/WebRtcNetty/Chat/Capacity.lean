import Mathlib.Algebra.Order.Floor.Ring
import Mathlib.Data.Rat.Floor
import WebRtcNetty.Chat.Reconnect

/-!
# How many members a room has

Whatever happens to a room, its member map holds every character under its own id, and has at most
three quarters of the room's capacity in it, rounded up. An entry is refused when three quarters
are taken already, and then it does nothing at all (`run_holds`).
-/

namespace WebRtcNetty

open Java Proto2 Command Runs

/-! ## The steps of the specification -/

/-- Every member is there under its own id. -/
def RoomData.Keyed (d : RoomData) : Prop := HashMap.KeyedBy Character.getId d.characterMap

namespace RoomSpec

/-- The members of a room that holds so many characters. -/
structure Holds (roomCapacity : Int) (s : RoomSpec) : Prop where
  capacity : s.capacity = roomCapacity
  keyed : s.data.Keyed
  size : 4 * (s.data.characterSize : Int) < 3 * roomCapacity + 4

section
variable {p : Platform} {s s' : RoomSpec} {op : RoomStateGroup.Op} {roomCapacity : Int}

/-- No command adds a member. -/
theorem keyed_after {d : RoomData} (h : d.Keyed) (ph : Phase) (c : Character) (k : Cmd) :
    (d.after p ph c k).Keyed ∧ (d.after p ph c k).characterSize ≤ d.characterSize := by
  rcases RoomData.after_cases p d ph c k with he | ⟨-, -, he⟩ | ⟨id, -, -, he⟩
  · rw [he]
    exact ⟨h, le_rfl⟩
  · rw [he]
    exact ⟨h, le_rfl⟩
  · rw [he]
    exact ⟨h.remove id, HashMap.size_remove_le _ _⟩

theorem Step.holds (h : Step p s op s') (hs : s.Holds roomCapacity) : s'.Holds roomCapacity := by
  cases h with
  | enter c =>
    cases hfull : s.isFull with
    | true => exact hs
    | false =>
      -- A member is added where three quarters are not taken yet.
      have hroom : ¬ 3 * s.capacity ≤ 4 * (s.data.characterSize : Int) := of_decide_eq_false hfull
      have hcapacity := hs.capacity
      have hsize : (s.data.addCharacter c).characterSize ≤ s.data.characterSize + 1 :=
        HashMap.size_put_le _ _ _
      exact ⟨hs.capacity, hs.keyed.put c, by
        show 4 * ((s.data.addCharacter c).characterSize : Int) < _
        omega⟩
  | addCharacterCmd c k => exact ⟨hs.capacity, hs.keyed, hs.size⟩
  | idle hq => exact hs
  | @handle pair rest ph hq hphase =>
    obtain ⟨hkeyed, hle⟩ := keyed_after (p := p) hs.keyed s.phase pair.character pair.cmd
    have hsize := hs.size
    exact ⟨hs.capacity, hkeyed, by
      show 4 * ((s.data.after p s.phase pair.character pair.cmd).characterSize : Int) < _
      omega⟩
  | environment w => exact hs

end

end RoomSpec

/-! ## Runs -/

namespace RoomStateGroup

/-- The members of a room with a capacity. -/
structure Holds (p : Platform) (roomCapacity : Int) (r : Room) : Prop where
  keys : ∀ id c, r.roomData.getCharacter id = some c → c.getId = id
  once : (r.roomData.characterMap.values.map Character.getId).Nodup
  ceiling : (r.roomData.characterSize : Int) ≤ ⌈(3 * roomCapacity : ℚ) / 4⌉
  below : (r.roomData.characterSize : Int) < roomCapacity
  refuses : ∀ c, (∃ r', enter p c r = .ok false r') ↔
    3 * roomCapacity ≤ 4 * (r.roomData.characterSize : Int)
  unchanged : ∀ c r', enter p c r = .ok false r' → r' = r
  admits : ∀ c, 4 * (r.roomData.characterSize : Int) < 3 * roomCapacity →
    (∀ s, (r.world.channels s).remoteAddress ≠ none) → (∀ n, r.world.sendFails n = false) →
    ∃ r', enter p c r = .ok true r'

variable {p : Platform} {id : BitVec 64} {creator : Character} {config : RoomStateConfig}
variable {roomCapacity : Int} {w : World} {r₀ r : Room} {ts : List (Transition Room Op)}

/-- What a run keeps of the specification. -/
theorem run_spec (hc : create p id creator config roomCapacity w = some r₀)
    (hr : Run (Step p) r₀ ts r) {I : RoomSpec → Prop}
    (h0 : I ⟨.waiting, .new creator config, roomCapacity, [], []⟩)
    (hstep : ∀ s op s', I s → RoomSpec.Step p s op s' → I s') :
    ∃ ph, r.InPhase p ph ∧ I (r.toSpec ph) := by
  obtain ⟨hphase, hspec, -⟩ := create_spec hc
  exact hr.invariant (I := fun r => ∃ ph, r.InPhase p ph ∧ I (r.toSpec ph))
    ⟨_, hphase, hspec ▸ h0⟩ fun _ _ _ ⟨_, h, hI⟩ hs => by
      obtain ⟨ph', h', hspec⟩ := refines h hs
      exact ⟨ph', h', hstep _ _ _ hI hspec⟩

/-- A run keeps the members under their ids, and no more of them than there is room for. -/
theorem run_holds_spec (hc : create p id creator config roomCapacity w = some r₀)
    (hr : Run (Step p) r₀ ts r) : ∃ ph, r.InPhase p ph ∧ (r.toSpec ph).Holds roomCapacity := by
  have hcap : 8 ≤ roomCapacity := by
    have hcapacity : r₀.group.characterCapacity = roomCapacity :=
      congrArg RoomSpec.capacity (create_spec hc).2.1
    have hbound := r₀.group.capacity_ge
    rwa [hcapacity] at hbound
  refine run_spec hc hr ⟨rfl, HashMap.KeyedBy.empty _, ?_⟩ fun s op s' hs hstep => hstep.holds hs
  show 4 * ((0 : Nat) : Int) < 3 * roomCapacity + 4
  omega

/-- The members of a room in every state of a run. -/
theorem run_holds (hc : create p id creator config roomCapacity w = some r₀)
    (hr : Run (Step p) r₀ ts r) : Holds p roomCapacity r := by
  obtain ⟨ph, -, hspec⟩ := run_holds_spec hc hr
  have hcapacity : r.group.characterCapacity = roomCapacity := hspec.capacity
  have hcap : 8 ≤ roomCapacity := hcapacity ▸ r.group.capacity_ge
  have hsize : 4 * (r.roomData.characterSize : Int) < 3 * roomCapacity + 4 := hspec.size
  have hfull : r.group.isFullCharacter r.roomData.characterSize =
      decide (3 * roomCapacity ≤ 4 * (r.roomData.characterSize : Int)) := by
    rw [AbstractStateGroup.isFullCharacter, hcapacity]
  refine ⟨hspec.keyed, hspec.keyed.nodup, ?_, by omega, fun c => ?_, fun c r' h => ?_, ?_⟩
  · rw [← Int.sub_one_lt_iff, Int.lt_ceil, lt_div_iff₀ (by norm_num)]
    have hlt : ((r.roomData.characterSize : Int) - 1) * 4 < 3 * roomCapacity := by omega
    exact_mod_cast hlt
  · constructor
    · rintro ⟨r', h⟩
      by_contra hroom
      rw [decide_eq_false hroom] at hfull
      exact Bool.false_ne_true (enter_value hfull h)
    · intro hroom
      rw [decide_eq_true hroom] at hfull
      exact ⟨r, enter_full hfull⟩
  · cases hroom : r.group.isFullCharacter r.roomData.characterSize with
    | true =>
      rw [enter_full hroom] at h
      cases h
      rfl
    | false => exact absurd (enter_value hroom h) Bool.false_ne_true
  · intro c hroom haddress hsends
    rw [decide_eq_false (Int.not_le.2 hroom)] at hfull
    obtain ⟨b, r', h⟩ := (enter_returns_iff (p := p) (c := c) hfull).2
      ⟨fun _ _ _ => haddress _, fun _ _ => hsends _⟩
    cases enter_value hfull h
    exact ⟨r', h⟩

/-- Seven others enter alice's room. -/
theorem run_holds_aliceRoom :
    ∃ ts, Run (Step .standard) aliceRoom ts (aliceRoomWith ["b", "c", "d", "e", "f", "g", "h"]) ∧
      (aliceRoomWith ["b", "c", "d", "e", "f", "g", "h"]).roomData.characterSize = 8 ∧
      Holds .standard 10 (aliceRoomWith ["b", "c", "d", "e", "f", "g", "h"]) := by
  have hr := run_transitions .standard (entries ["b", "c", "d", "e", "f", "g", "h"]) aliceRoom
  exact ⟨_, hr, by decide +kernel, run_holds create_aliceRoom hr⟩

end RoomStateGroup

end WebRtcNetty
