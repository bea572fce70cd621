import WebRtcNetty.Chat.Capacity

/-!
# Snapshots

The answers to a CREATE_ROOM and to an ENTER_ROOM show the room's data, and both encode the same
picture of it. Who decodes one of them finds the flags and the master of the room, and one entry for
each member that is online and has an id and an address (`snapshots_agree`). That an id is listed
once rests on the keys of the member map, which are its characters' ids.
-/

namespace WebRtcNetty

open Java Proto2 Command Runs

/-! ## Reading a snapshot -/

namespace Entity.RoomData

/-! The fields of `message RoomData` (`Entity.proto:17`). -/

def isClosed (v : Entity.roomData.Val) : Option Bool := v.2.1

def hasAudio (v : Entity.roomData.Val) : Option Bool := v.2.2.1

def hasVideo (v : Entity.roomData.Val) : Option Bool := v.2.2.2.1

def master (v : Entity.roomData.Val) : Option ByteString := v.2.2.2.2.1

def characters (v : Entity.roomData.Val) : List Entity.character.Val := v.2.2.2.2.2.1

/-- The same but for the order of the characters. -/
def SameUpToOrder : Entity.roomData.Val → Entity.roomData.Val → Prop
  | (id, isClosed, hasAudio, hasVideo, master, characters, _),
    (id', isClosed', hasAudio', hasVideo', master', characters', _) =>
    id = id' ∧ isClosed = isClosed' ∧ hasAudio = hasAudio' ∧ hasVideo = hasVideo' ∧
      master = master' ∧ characters.Perm characters'

end Entity.RoomData

/-- The content of a group of one package. -/
def Command.PackageGroup.content (g : PackageGroup) : Option ByteString :=
  match g.val.1 with
  | [(_, _, content, _)] => content
  | _ => none

/-- The room data in the answer to a CREATE_ROOM. -/
def createdRoom (g : PackageGroup) : Option Entity.roomData.Val :=
  g.content.bind fun bs => (UserCmd.createRoomResult.parseFrom bs).bind fun m => m.val.2.1

/-- The room data in the answer to an ENTER_ROOM. -/
def enteredRoom (g : PackageGroup) : Option Entity.roomData.Val :=
  g.content.bind fun bs => (UserCmd.enterRoomResult.parseFrom bs).bind fun m => m.val.2.1

/-- A byte string has less than 2 ^ 31 bytes. -/
def Command.PackageGroup.Fits (g : PackageGroup) : Prop := ∀ bs, g.content = some bs →
  bs.length < 2 ^ 31

/-! ## What a snapshot owes its reader -/

/-- The member is online and has an id and an address. -/
structure RoomData.Lists (w : World) (d : RoomData) (c : Character) : Prop where
  member : ∃ id, d.getCharacter id = some c
  onLine : c.isOffLine w = false
  id : c.getId ≠ ""
  address : ∃ address, (w.channels (w.chatters c).session).remoteAddress = some address ∧
    address ≠ ""

/-- The entry is the character's: its id, its address, and its nickname unless that is empty. -/
structure Character.Entry (w : World) (c : Character) (e : Entity.character.Val) : Prop where
  id : e.1 = some (utf8Bytes c.getId)
  nickName : e.2.1 = (c.getNickName.filter fun nickName => nickName ≠ "").map utf8Bytes
  address : e.2.2.1 = (w.channels (w.chatters c).session).remoteAddress.map utf8Bytes

/-- A faithful picture of a room's data. -/
structure RoomData.Shows (w : World) (d : RoomData) (v : Entity.roomData.Val) : Prop where
  isClosed : Entity.RoomData.isClosed v = some d.isClosed
  hasAudio : Entity.RoomData.hasAudio v = some d.hasAudio
  hasVideo : Entity.RoomData.hasVideo v = some d.hasVideo
  master : Entity.RoomData.master v = some (utf8Bytes d.master.getId)
  entries : ∀ e, e ∈ Entity.RoomData.characters v ↔ ∃ c, d.Lists w c ∧ c.Entry w e
  once : ((Entity.RoomData.characters v).map fun e => e.1).Nodup

section
variable {p p' : Platform} {w : World} {c : Character} {d : RoomData} {e : Entity.character.Val}

/-- There is a text, and it is not the empty one. -/
theorem isNullOrEmpty_eq_false {s : Option String} :
    isNullOrEmpty s = false ↔ ∃ t, s = some t ∧ t ≠ "" := by
  cases s with
  | none => simp [isNullOrEmpty]
  | some t => simp [isNullOrEmpty]

/-- An id is always there. -/
theorem isNullOrEmpty_getId : isNullOrEmpty c.getId = false ↔ c.getId ≠ "" := by
  simp [isNullOrEmpty]

/-- A character is described if it has an id and an address. -/
theorem Character.entry_eq_some : c.entry w = some e ↔ c.getId ≠ "" ∧
    (∃ address, (w.channels (w.chatters c).session).remoteAddress = some address ∧ address ≠ "") ∧
      c.Entry w e := by
  have hnick : (if isNullOrEmpty c.getNickName then none else c.getNickName.map utf8Bytes) =
      (c.getNickName.filter fun nickName => nickName ≠ "").map utf8Bytes := by
    cases c.getNickName with
    | none => rfl
    | some nickName => by_cases hempty : nickName = "" <;> simp [isNullOrEmpty, hempty]
  rw [← isNullOrEmpty_getId, ← isNullOrEmpty_eq_false, Character.entry, hnick]
  constructor
  · intro h
    split at h
    · cases h
    · next hlisted =>
      rw [Bool.or_eq_true, not_or, Bool.not_eq_true, Bool.not_eq_true] at hlisted
      cases h
      exact ⟨hlisted.1, hlisted.2, rfl, rfl, rfl⟩
  · rintro ⟨hid, haddress, he⟩
    rw [if_neg (by simp [hid, haddress])]
    exact congrArg some (Prod.ext he.id.symm (Prod.ext he.nickName.symm
      (Prod.ext he.address.symm rfl)))

/-- The ids of the members that are told about a room differ. -/
theorem RoomData.Keyed.nodup_characterSet (h : d.Keyed) :
    ((d.characterSet p w).map Character.getId).Nodup := by
  have hvalues : (d.characterMap.values.map Character.getId).Nodup := HashMap.KeyedBy.nodup h
  have hperm := p.iterate_perm (d.characterMap.values.filter fun c => !c.isOffLine w).dedup
  refine (hperm.map Character.getId).nodup_iff.2 (hvalues.sublist ?_)
  exact ((List.dedup_sublist _).trans List.filter_sublist).map _

/-- The snapshot of a room whose members are there under their ids shows the room. -/
theorem RoomData.Keyed.shows (h : d.Keyed) : d.Shows w (d.snapshot p w) := by
  refine ⟨rfl, rfl, rfl, rfl, fun e => ?_, ?_⟩
  · show e ∈ (d.characterSet p w).filterMap (Character.entry w) ↔ _
    rw [List.mem_filterMap]
    constructor
    · rintro ⟨c, hc, he⟩
      obtain ⟨hid, haddress, hentry⟩ := Character.entry_eq_some.1 he
      obtain ⟨hmember, honLine⟩ := RoomData.mem_characterSet.1 hc
      exact ⟨c, ⟨hmember, honLine, hid, haddress⟩, hentry⟩
    · rintro ⟨c, hlists, hentry⟩
      exact ⟨c, RoomData.mem_characterSet.2 ⟨hlists.member, hlists.onLine⟩,
        Character.entry_eq_some.2 ⟨hlists.id, hlists.address, hentry⟩⟩
  · -- Members with different ids have entries with different ids.
    have hids := h.nodup_characterSet (p := p) (w := w)
    show (((d.characterSet p w).filterMap (Character.entry w)).map fun e => e.1).Nodup
    rw [List.Nodup, List.pairwise_map] at hids ⊢
    rw [List.pairwise_filterMap]
    refine hids.imp fun {c c'} hne e he e' he' heq => hne ?_
    rw [(Character.entry_eq_some.1 he).2.2.id, (Character.entry_eq_some.1 he').2.2.id] at heq
    exact p.utf8Bytes_injective (Option.some.inj heq)

/-- The order of the members is all that snapshots differ in. -/
theorem sameUpToOrder_snapshot :
    Entity.RoomData.SameUpToOrder (d.snapshot p w) (d.snapshot p' w) := by
  have hperm : (d.characterSet p w).Perm (d.characterSet p' w) :=
    (p.iterate_perm _).trans (p'.iterate_perm _).symm
  exact ⟨rfl, rfl, rfl, rfl, rfl, hperm.filterMap _⟩

end

/-! ## The two encoders -/

section
variable {p : Platform} {w w' : World} {d : RoomData} {code : BitVec 32} {msg : Option String}
variable {roomId : BitVec 64} {g : PackageGroup}

/-- The members that are online have addresses, or no id. -/
theorem RoomData.addressed_iff : d.Addressed p w ↔ ∀ id c, d.getCharacter id = some c →
    c.isOffLine w = false → c.getId ≠ "" →
      (w.channels (w.chatters c).session).remoteAddress ≠ none := by
  simp only [RoomData.Addressed, Character.Addressed, mem_characterSet, isNullOrEmpty_getId]
  exact ⟨fun h id c hc honLine => h c ⟨⟨id, hc⟩, honLine⟩,
    fun h c hc => hc.1.elim fun id hid => h id c hid hc.2⟩

/-- The result of a CREATE_ROOM can be built if the members that are online have addresses. -/
theorem createRoomResult_returns_iff :
    Returns (CmdUtil.createRoomResult p ResultCode.ok msg roomId (some d)) w ↔
      d.Addressed p w :=
  ⟨fun ⟨_, _, h⟩ => CmdUtil.addressed_of_createRoomResult rfl h d rfl,
    fun h => ⟨_, _, CmdUtil.createRoomResult_ok rfl fun _ hd => by cases hd; exact h⟩⟩

/-- So can the result of an entry. -/
theorem enterRoomResult_returns_iff :
    Returns (CmdUtil.enterRoomResult p code msg roomId (some d)) w ↔ d.Addressed p w :=
  ⟨fun ⟨_, _, h⟩ => CmdUtil.addressed_of_enterRoomResult h d rfl,
    fun h => ⟨_, _, CmdUtil.enterRoomResult_ok fun _ hd => by cases hd; exact h⟩⟩

/-- The answer to a CREATE_ROOM carries the snapshot. -/
theorem createdRoom_eq
    (h : CmdUtil.createRoomResult p ResultCode.ok msg roomId (some d) w = .ok g w')
    (hfits : g.Fits) : createdRoom g = some (d.snapshot p w) := by
  have haddressed := createRoomResult_returns_iff.1 ⟨g, w', h⟩
  cases h.symm.trans (CmdUtil.createRoomResult_ok rfl fun _ hd => by cases hd; exact haddressed)
  have hparse := Fields.parseFrom_toByteArray
    ⟨_, CmdUtil.createRoomResult_isInitialized roomId (some (d.snapshot p w))⟩
    (by decide) (by decide) (hfits _ rfl)
  exact congrArg (fun m => Option.bind m fun m => m.val.2.1) hparse

/-- The answer to an ENTER_ROOM carries the snapshot, whatever its code is. -/
theorem enteredRoom_resultOf {v : Entity.roomData.Val}
    (hfits : (CmdUtil.resultOf UserCmd.enterRoomResult CmdType.enterRoom code msg
      (some roomId, some v, ())).Fits) :
    enteredRoom (CmdUtil.resultOf UserCmd.enterRoomResult CmdType.enterRoom code msg
      (some roomId, some v, ())) = some v := by
  let m : Message UserCmd.enterRoomResult :=
    ⟨(some roomId, some v, ()), Fields.isInitialized_of_allOptional (by decide) _⟩
  have hparse := Fields.parseFrom_toByteArray m (by decide) (by decide) (hfits _ rfl)
  exact congrArg (fun m => Option.bind m fun m => m.val.2.1) hparse

/-- What the result of an entry says of the room is its snapshot. -/
theorem enteredRoom_eq (h : CmdUtil.enterRoomResult p code msg roomId (some d) w = .ok g w')
    (hfits : g.Fits) : enteredRoom g = some (d.snapshot p w) := by
  have haddressed := enterRoomResult_returns_iff.1 ⟨g, w', h⟩
  cases h.symm.trans (CmdUtil.enterRoomResult_ok fun _ hd => by cases hd; exact haddressed)
  exact enteredRoom_resultOf hfits

end

/-- The two encoders return for the same rooms, those whose members' addresses are known, and their
results show the room and differ at most in the order of the members. The two may go through the
members in different orders. -/
structure SnapshotsAgree (p p' : Platform) (r : Room) (code : BitVec 32) (msg : Option String)
    (roomId : BitVec 64) : Prop where
  created : Returns (CmdUtil.createRoomResult p ResultCode.ok msg roomId (some r.roomData))
    r.world ↔ ∀ id c, r.roomData.getCharacter id = some c → c.isOffLine r.world = false →
      c.getId ≠ "" → (r.world.channels (r.world.chatters c).session).remoteAddress ≠ none
  entered : Returns (CmdUtil.enterRoomResult p' code msg roomId (some r.roomData)) r.world ↔
    Returns (CmdUtil.createRoomResult p ResultCode.ok msg roomId (some r.roomData)) r.world
  agree : ∀ g w g' w', CmdUtil.createRoomResult p ResultCode.ok msg roomId (some r.roomData)
      r.world = .ok g w →
    CmdUtil.enterRoomResult p' code msg roomId (some r.roomData) r.world = .ok g' w' →
    g.Fits → g'.Fits → ∃ v v', createdRoom g = some v ∧ enteredRoom g' = some v' ∧
      Entity.RoomData.SameUpToOrder v v' ∧ r.roomData.Shows r.world v ∧
      r.roomData.Shows r.world v'

namespace RoomStateGroup

variable {p : Platform} {id : BitVec 64} {creator : Character} {config : RoomStateConfig}
variable {roomCapacity : Int} {w : World} {r₀ r : Room} {ts : List (Transition Room Op)}

/-- In every state of a run, both encoders show the room. -/
theorem snapshots_agree (hc : create p id creator config roomCapacity w = some r₀)
    (hr : Run (Step p) r₀ ts r) (p₁ p₂ : Platform) (code : BitVec 32) (msg : Option String)
    (roomId : BitVec 64) : SnapshotsAgree p₁ p₂ r code msg roomId := by
  obtain ⟨ph, -, hspec⟩ := run_holds_spec hc hr
  have hkeyed : r.roomData.Keyed := hspec.keyed
  refine ⟨createRoomResult_returns_iff.trans RoomData.addressed_iff, ?_, ?_⟩
  · rw [createRoomResult_returns_iff, enterRoomResult_returns_iff, RoomData.addressed_iff,
      RoomData.addressed_iff]
  · intro g w g' w' hcreate henter hfits hfits'
    exact ⟨_, _, createdRoom_eq hcreate hfits, enteredRoom_eq henter hfits',
      sameUpToOrder_snapshot, hkeyed.shows, hkeyed.shows⟩

/-- Both encoders show alice's room with her and bob in it. -/
theorem snapshots_agree_aliceRoom : ∃ ts,
    Run (Step .standard) aliceRoom ts (aliceRoomWith ["bob"]) ∧
      SnapshotsAgree .standard .standard (aliceRoomWith ["bob"]) ResultCode.ok none 1 := by
  have hr := run_transitions .standard (entries ["bob"]) aliceRoom
  exact ⟨_, hr, snapshots_agree create_aliceRoom hr .standard .standard ResultCode.ok none 1⟩

end RoomStateGroup

end WebRtcNetty
