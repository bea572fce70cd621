import Mathlib.Data.List.Dedup
import WebRtcNetty.Lib.Java.Collections
import WebRtcNetty.Lib.Java.Platform
import WebRtcNetty.Chat.World

/-!
# Room data

The state data of a room (`RoomData`): its members by id, its master, and its flags.
-/

namespace WebRtcNetty

open Java

/-- Reference: `RoomStateConfig` (`RoomStateConfig.java:5`). -/
structure RoomStateConfig where
  hasAudio : Bool
  hasVideo : Bool

/-- Reference: `RoomData` (`RoomData.java:12`). -/
structure RoomData where
  characterMap : HashMap String Character
  master : Character
  isClosed : Bool
  hasAudio : Bool
  hasVideo : Bool

namespace RoomData

/-- A new room's data with its master. Reference: the constructor and `setMaster`
(`RoomData.java:24`, `RoomData.java:43`). -/
def new (master : Character) (config : RoomStateConfig) : RoomData where
  characterMap := ∅
  master := master
  isClosed := false
  hasAudio := config.hasAudio
  hasVideo := config.hasVideo

/-- Reference: `close` (`RoomData.java:31`). -/
def close (d : RoomData) : RoomData := { d with isClosed := true }

/-- Reference: `addCharacter` (`RoomData.java:64`). -/
def addCharacter (d : RoomData) (c : Character) : RoomData :=
  { d with characterMap := d.characterMap.put c.getId c }

/-- Reference: `getCharacter` (`RoomData.java:70`). -/
def getCharacter (d : RoomData) (id : String) : Option Character := d.characterMap.get id

/-- Reference: `removeCharacter` (`RoomData.java:75`). -/
def removeCharacter (d : RoomData) (id : String) : Bool × RoomData :=
  let r := d.characterMap.remove id
  (r.1.isSome, { d with characterMap := r.2 })

/-- The members that are online, in an order that the platform decides. Reference: `characterSet`
(`RoomData.java:79`). -/
def characterSet (p : Platform) (w : World) (d : RoomData) : List Character :=
  p.iterate (d.characterMap.values.filter fun c => !c.isOffLine w).dedup

/-- Reference: `isEmpty` (`RoomData.java:85`). -/
def isEmpty (p : Platform) (w : World) (d : RoomData) : Bool := (d.characterSet p w).isEmpty

/-- Reference: `characterSize` (`RoomData.java:90`). -/
def characterSize (d : RoomData) : Nat := d.characterMap.size

/-- There is nothing to remove under an id that is no member's. -/
theorem removeCharacter_of_getCharacter_none {d : RoomData} {id : String}
    (h : d.getCharacter id = none) : (d.removeCharacter id).2 = d := by
  have hmap : (d.characterMap.remove id).2 = d.characterMap := HashMap.remove_of_get_none h
  rw [removeCharacter, hmap]

/-- The room broadcasts to the members that are online. -/
theorem mem_characterSet {p : Platform} {w : World} {d : RoomData} {c : Character} :
    c ∈ d.characterSet p w ↔
      (∃ id, d.getCharacter id = some c) ∧ c.isOffLine w = false := by
  rw [characterSet, (p.iterate_perm _).mem_iff, List.mem_dedup, List.mem_filter,
    HashMap.mem_values]
  simp only [getCharacter, Bool.not_eq_eq_eq_not, Bool.not_true]

/-- The room is empty when no member is online. -/
theorem isEmpty_iff {p : Platform} {w : World} {d : RoomData} :
    d.isEmpty p w = true ↔ ∀ id c, d.getCharacter id = some c → c.isOffLine w = true := by
  rw [isEmpty, List.isEmpty_iff, List.eq_nil_iff_forall_not_mem]
  simp only [mem_characterSet, not_and, Bool.not_eq_false, forall_exists_index]
  exact ⟨fun h id c hc => h c id hc, fun h c id hc => h id c hc⟩

end RoomData

end WebRtcNetty
