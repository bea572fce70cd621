import WebRtcNetty.Chat.Broadcast
import WebRtcNetty.Chat.Results
import WebRtcNetty.Chat.RoomAuthority

/-!
# Coming back to a room

A character whose id is in the member map, after its connection or the character itself has been
replaced, enters the room again. `enter_reconnects_iff` says exactly when the room takes it back: a
room counts its members before it looks whether the character is one of them, so a full room turns
its own members away; and an entry that lets a character in may throw while it tells the members.
-/

namespace WebRtcNetty

open Java Proto2 Command Runs

namespace RoomStateGroup

/-- From `r` to `r'` the room has taken the character back. -/
structure Reconnects (c : Character) (r r' : Room) : Prop where
  getCharacter : r'.roomData.getCharacter c.getId = some c
  characterSize : r'.roomData.characterSize = r.roomData.characterSize
  currentRoomId : c.getCurrentRoomId r'.world = r.group.id

section
variable {p : Platform} {c : Character} {d : RoomData} {r r' : Room} {w : World}

/-! ## What an entry sends -/

theorem addressed_of_reach {w' : World} (h : w'.reach = w.reach) :
    d.Addressed p w' ↔ d.Addressed p w := by
  have hchannels : w'.channels = w.channels := congrArg Prod.fst h
  simp only [RoomData.Addressed, Character.Addressed, characterSet_of_reach h, session_of_reach h,
    hchannels]

theorem others_of_reach {w' : World} (h : w'.reach = w.reach) :
    others p w' d c = others p w d c := by
  rw [others, others, characterSet_of_reach h]

/-- The snapshot of a room whose members' addresses are known can be sent. -/
theorem snapshotResult_ok (h : d.Addressed p w) (msg : Option String) (roomId : BitVec 64) :
    CmdUtil.enterRoomResult p ResultCode.ok msg roomId d w =
      .ok (CmdUtil.resultOf UserCmd.enterRoomResult CmdType.enterRoom ResultCode.ok msg
        (some roomId, some (d.snapshot p w), ())) w :=
  CmdUtil.enterRoomResult_ok fun _ hd => by
    cases hd
    exact h

/-- The others are told when no call of `send` fails. -/
theorem tellOthers_returns_iff (msg : PackageGroup) :
    Returns (tellOthers c msg (d.characterSet p w)) w ↔ w.Sends (others p w d c).length := by
  rw [Returns, tellOthers_characterSet]
  exact Session.sendEach_returns_iff.trans (by rw [List.length_map])

/-- The character gets a snapshot, and the others get another one. Reference: `enter`
(`RoomStateGroup.java:29-40`). -/
def announce (p : Platform) (c : Character) (roomId : BitVec 64) (msg : Option String)
    (d : RoomData) : Exec World Unit := do
  let reply ← CmdUtil.enterRoomResult p ResultCode.ok "进入房间成功" roomId d
  c.sendMsg (.message reply)
  let otherMsg ← CmdUtil.enterRoomResult p ResultCode.ok msg roomId d
  let w ← get
  tellOthers c otherMsg (d.characterSet p w)

theorem announce_returns_iff (roomId : BitVec 64) (msg : Option String) :
    Returns (announce p c roomId msg d) w ↔
      d.Addressed p w ∧ w.Sends ((others p w d c).length + 1) := by
  rw [announce]
  by_cases haddr : d.Addressed p w
  · rw [returns_bind_ok (snapshotResult_ok haddr (some "进入房间成功") roomId),
      and_iff_right haddr]
    generalize CmdUtil.resultOf UserCmd.enterRoomResult CmdType.enterRoom ResultCode.ok
      (some "进入房间成功") (some roomId, some (d.snapshot p w), ()) = reply
    rw [World.sends_succ (w.chatters c).session (.message reply)]
    cases hsend : w.sendFails w.sends with
    | true =>
      refine iff_of_false ?_ fun h => by cases h.1
      rintro ⟨_, w', h⟩
      rw [run_bind_error (Character.sendMsg_error hsend)] at h
      cases h
    | false =>
      have hreach : (w.sentTo [(w.chatters c).session] (.message reply)).reach = w.reach := rfl
      have hother := snapshotResult_ok ((addressed_of_reach hreach).2 haddr) msg roomId
      rw [returns_bind_ok (Character.sendMsg_ok hsend), returns_bind_ok hother,
        returns_bind_ok (run_get _), tellOthers_returns_iff, others_of_reach hreach]
      exact (and_iff_right rfl).symm
  · refine iff_of_false ?_ fun h => haddr h.1
    rintro ⟨_, w', h⟩
    obtain ⟨reply, w₁, hreply, -⟩ := bind_eq_ok h
    exact haddr (CmdUtil.addressed_of_enterRoomResult hreply d rfl)

/-! ## Entering again -/

/-- A room that is not full lets the character in, and may throw while it tells the members. -/
theorem enter_returns_iff (hfull : r.group.isFullCharacter r.roomData.characterSize = false) :
    Returns (enter p c) r ↔ (r.roomData.addCharacter c).Addressed p r.world ∧
      r.world.Sends ((others p r.world (r.roomData.addCharacter c) c).length + 1) := by
  obtain ⟨msg, w, hreenter, hreach, hsends, hfails, -⟩ := reach_reenter c r.group.id r.world
  have hset : inWorld (reenter c r.group.id) { r with mem.roomData := r.roomData.addCharacter c } =
      .ok msg { r with mem.roomData := r.roomData.addCharacter c, mem.world := w } :=
    zoom_ok (zoom_ok hreenter)
  have hsame : ∀ n, w.Sends n ↔ r.world.Sends n := fun n => by
    rw [World.Sends, World.Sends, hsends, hfails]
  rw [enter, returns_bind_ok (superEnter_ok hfull), if_pos rfl, returns_bind_ok (run_get _)]
  dsimp only
  rw [returns_bind_ok hset, returns_bind_pure, inWorld, returns_zoom, RoomMem.inWorld, returns_zoom]
  have hannounce := announce_returns_iff (p := p) (c := c) (d := r.roomData.addCharacter c) (w := w)
    r.group.id msg
  rw [addressed_of_reach hreach, others_of_reach hreach, hsame] at hannounce
  exact hannounce

/-- An entry that lets the character in says so. -/
theorem enter_value {b : Bool}
    (hfull : r.group.isFullCharacter r.roomData.characterSize = false)
    (h : enter p c r = .ok b r') : b = true := by
  rw [enter, run_bind_ok (superEnter_ok hfull), if_pos rfl] at h
  obtain ⟨r₁, _, -, h⟩ := bind_eq_ok h
  obtain ⟨msg, _, -, h⟩ := bind_eq_ok h
  obtain ⟨_, _, -, h⟩ := bind_eq_ok h
  cases h
  rfl

/-- A full room turns every character away. -/
theorem enter_full (hfull : r.group.isFullCharacter r.roomData.characterSize = true) :
    enter p c r = .ok false r := by
  rw [enter, run_bind_ok (superEnter_full hfull)]
  rfl

/-- A member is taken back exactly when the room is not full, the addresses of its members that are
online are known, and no call of `send` fails while they are told. -/
theorem enter_reconnects_iff (h : Member r c.getId) :
    (∃ r', enter p c r = .ok true r' ∧ Reconnects c r r') ↔
      r.group.isFullCharacter r.roomData.characterSize = false ∧
      (r.roomData.addCharacter c).Addressed p r.world ∧
      r.world.Sends ((others p r.world (r.roomData.addCharacter c) c).length + 1) := by
  cases hfull : r.group.isFullCharacter r.roomData.characterSize with
  | true =>
    refine iff_of_false ?_ fun h => by cases h.1
    rintro ⟨r', hr', -⟩
    rw [enter_full hfull] at hr'
    cases hr'
  | false =>
    rw [and_iff_right rfl, ← enter_returns_iff hfull]
    constructor
    · rintro ⟨r', hr', -⟩
      exact ⟨true, r', hr'⟩
    · rintro ⟨b, r', hr'⟩
      have hdata := roomData_enter (p := p) c r
      have hcurrent := currentRooms_enter (p := p) c hfull
      rw [endState_ok hr', hfull] at hdata
      rw [endState_ok hr'] at hcurrent
      have hentered : r'.roomData = r.roomData.addCharacter c := hdata
      obtain rfl := enter_value hfull hr'
      refine ⟨r', hr', ?_, ?_, ?_⟩
      · rw [hentered]
        exact HashMap.get_put _ _ _
      · rw [hentered]
        exact HashMap.size_put_of_containsKey c h
      · exact (congrFun hcurrent c).trans (Function.update_self ..)

end

/-! ## A full room -/

/-- Every character is on line, by one open channel. -/
def allOnLine : World :=
  { World.initial (fun _ => some "/127.0.0.1:50000") fun _ => false with
    chatters := fun _ => ⟨0, true, 0⟩ }

/-- Alice and the characters with the given ids enter her room. -/
def entries (ids : List String) : List Op :=
  .environment allOnLine :: .enter alice :: ids.map fun id => .enter ⟨1, id, none⟩

/-- Her room after that. -/
def aliceRoomWith (ids : List String) : Room :=
  (entries ids).foldl (fun r op => endState (op.run .standard) r) aliceRoom

/-- She comes back to the room that she is in with bob. -/
theorem enter_reconnects_iff_alice : ∃ r', enter .standard alice (aliceRoomWith ["bob"]) =
    .ok true r' ∧ Reconnects alice (aliceRoomWith ["bob"]) r' := by
  have hmember : Member (aliceRoomWith ["bob"]) alice.getId := by
    show _ = _
    decide +kernel
  refine (enter_reconnects_iff hmember).2 ⟨by decide +kernel, fun c _ _ => ?_, fun _ _ => rfl⟩
  exact Option.some_ne_none "/127.0.0.1:50000"

/-- With seven others in it, her room is full, and turns her away. -/
theorem enter_reconnects_counterexample : ∃ (ts : List (Transition Room Op)) (r : Room),
    Run (Step .standard) aliceRoom ts r ∧ Member r alice.getId ∧
      ¬ ∃ r', enter .standard alice r = .ok true r' ∧ Reconnects alice r r' := by
  refine ⟨_, _, run_transitions .standard (entries ["b", "c", "d", "e", "f", "g", "h"]) aliceRoom,
    ?_, ?_⟩
  · show _ = _
    decide +kernel
  · rintro ⟨r', hr', -⟩
    rw [enter_full (by decide +kernel)] at hr'
    cases hr'

end RoomStateGroup

end WebRtcNetty
