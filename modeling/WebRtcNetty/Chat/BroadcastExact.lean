import WebRtcNetty.Chat.RoomPhases
import WebRtcNetty.Chat.Snapshots

/-!
# Who is told, and how often

A room tells everybody who has to know of an entry, and of its closing, exactly once, and nobody
else (`broadcast_exact`). Messages are counted for each character, since characters may share a
session. The loops that tell the others leave a character out by its id; that nobody else is left
out rests on the keys of the member map, which are its characters' ids.
-/

namespace WebRtcNetty

open Java Proto2 Command Runs

/-! ## Counting messages -/

/-- From `w` to `w'` these messages have gone out, in this order, each through the session of the
character it is for. -/
def World.Delivers (w w' : World) (ds : List (Character × PackageGroup)) : Prop :=
  w'.sent = w.sent ++ ds.map fun x => ((w.chatters x.1).session, .message x.2)

/-- The messages for a character. -/
def messagesFor (ds : List (Character × PackageGroup)) (c : Character) : List PackageGroup :=
  (ds.filter fun x => x.1 = c).map Prod.snd

/-- The character and the others have been sent one good message each, and nobody else has been
sent anything. -/
def World.TellsOnce (w w' : World) (c : Character) (others : Character → Prop)
    (good : PackageGroup → Prop) : Prop :=
  ∃ ds, w.Delivers w' ds ∧ (∃ g, messagesFor ds c = [g] ∧ good g) ∧
    (∀ o, o ≠ c → others o → ∃ g, messagesFor ds o = [g] ∧ good g) ∧
    ∀ o, o ≠ c → ¬ others o → messagesFor ds o = []

section
variable {w w' : World} {c o : Character} {os : List Character} {g g' : PackageGroup}

/-- A message to the character is one of its messages. -/
theorem messagesFor_cons_self (ds : List (Character × PackageGroup)) :
    messagesFor ((c, g) :: ds) c = g :: messagesFor ds c := by
  rw [messagesFor, List.filter_cons_of_pos (by simp)]
  rfl

/-- A message to another one is not. -/
theorem messagesFor_cons_ne (h : o ≠ c) (ds : List (Character × PackageGroup)) :
    messagesFor ((c, g) :: ds) o = messagesFor ds o := by
  rw [messagesFor, List.filter_cons_of_neg (by simpa using h.symm)]
  rfl

/-- Who is not among those that are told gets nothing. -/
theorem messagesFor_of_notMem (h : o ∉ os) (g : PackageGroup) :
    messagesFor (os.map (·, g)) o = [] := by
  induction os with
  | nil => rfl
  | cons o' os ih =>
    obtain ⟨hne, hos⟩ := not_or.1 (mt List.mem_cons.2 h)
    rw [List.map_cons, messagesFor_cons_ne hne, ih hos]

/-- Who is among them gets the message once. -/
theorem messagesFor_of_mem (hos : os.Nodup) (h : o ∈ os) (g : PackageGroup) :
    messagesFor (os.map (·, g)) o = [g] := by
  induction os with
  | nil => cases h
  | cons o' os ih =>
    obtain ⟨hnew, hos⟩ := List.nodup_cons.1 hos
    rw [List.map_cons]
    by_cases hne : o = o'
    · subst hne
      rw [messagesFor_cons_self, messagesFor_of_notMem hnew]
    · rw [messagesFor_cons_ne hne]
      exact ih hos ((List.mem_cons.1 h).resolve_left hne)

/-- A message to the character, and then another one to the others. -/
theorem World.TellsOnce.of_sent {others : Character → Prop} {good : PackageGroup → Prop}
    (hos : os.Nodup) (hc : c ∉ os) (hothers : ∀ o, o ≠ c → (o ∈ os ↔ others o)) (hg : good g)
    (hg' : good g') (hsent : w'.sent = w.sent ++ ((w.chatters c).session, .message g) ::
      os.map fun o => ((w.chatters o).session, .message g')) : w.TellsOnce w' c others good := by
  refine ⟨(c, g) :: os.map (·, g'), ?_, ⟨g, ?_, hg⟩, fun o hne ho => ⟨g', ?_, hg'⟩,
    fun o hne ho => ?_⟩
  · rw [World.Delivers, hsent, List.map_cons, List.map_map]
    rfl
  · rw [messagesFor_cons_self, messagesFor_of_notMem hc]
  · rw [messagesFor_cons_ne hne, messagesFor_of_mem hos ((hothers o hne).2 ho)]
  · rw [messagesFor_cons_ne hne, messagesFor_of_notMem fun h => ho ((hothers o hne).1 h)]

end

/-! ## The others -/

/-- The character is a member of the room and online. -/
def RoomData.OnLine (w : World) (d : RoomData) (c : Character) : Prop :=
  (∃ id, d.getCharacter id = some c) ∧ c.isOffLine w = false

namespace RoomStateGroup

section
variable {p : Platform} {w w' : World} {c o : Character} {d : RoomData}

/-- The others are the members that are online, but for the character itself. -/
theorem mem_others : o ∈ others p w d c ↔ d.OnLine w o ∧ o.getId ≠ c.getId := by
  rw [others, List.mem_filter, RoomData.mem_characterSet, decide_eq_true_iff, ne_comm]
  rfl

/-- The character is not among the others. -/
theorem notMem_others : c ∉ others p w d c := fun h => (mem_others.1 h).2 rfl

/-- Members are told once. -/
theorem nodup_others (h : d.Keyed) : (others p w d c).Nodup :=
  (List.Nodup.of_map _ h.nodup_characterSet).filter _

/-- Among the members, the others are those other than the character. -/
theorem mem_others_iff_of_member (h : d.Keyed) (hc : ∃ id, d.getCharacter id = some c)
    (hne : o ≠ c) : o ∈ others p w d c ↔ d.OnLine w o := by
  rw [mem_others, and_iff_left_iff_imp]
  rintro ⟨⟨id, ho⟩, -⟩ hid
  obtain ⟨id', hc⟩ := hc
  have hsame : id = id' := (h id o ho).symm.trans (hid.trans (h id' c hc))
  rw [hsame, hc] at ho
  exact hne (Option.some.inj ho).symm

/-! ## Entering -/

/-- The answer to an ENTER_ROOM that shows the room, with the character that enters it in it if it
is online and has an id and an address. -/
structure AnnouncesEntry (w : World) (d : RoomData) (c : Character) (g : PackageGroup) : Prop where
  result : Data.result (.message g) = some (CmdType.enterRoom, ResultCode.ok)
  snapshot : g.Fits → ∃ v, enteredRoom g = some v ∧ d.Shows w v ∧
    (c.isOffLine w = false → c.getId ≠ "" →
      (∃ address, (w.channels (w.chatters c).session).remoteAddress = some address ∧
        address ≠ "") → ∃ e ∈ Entity.RoomData.characters v, c.Entry w e)

/-- What a room tells of an entry. -/
def entryMsg (p : Platform) (w : World) (d : RoomData) (roomId : BitVec 64)
    (msg : Option String) : PackageGroup :=
  CmdUtil.resultOf UserCmd.enterRoomResult CmdType.enterRoom ResultCode.ok msg
    (some roomId, some (d.snapshot p w), ())

/-- A snapshot depends on who is online, and where. -/
theorem snapshot_of_reach (h : w'.reach = w.reach) : d.snapshot p w' = d.snapshot p w := by
  have hchannels : w'.channels = w.channels := congrArg Prod.fst h
  have hentry : Character.entry w' = Character.entry w := funext fun c => by
    rw [Character.entry, Character.entry, hchannels, session_of_reach h]
  rw [RoomData.snapshot, RoomData.snapshot, characterSet_of_reach h, hentry]

/-- What the members are told of an entry announces it. -/
theorem announcesEntry (h : d.Keyed) (hc : ∃ id, d.getCharacter id = some c)
    (roomId : BitVec 64) (msg : Option String) :
    AnnouncesEntry w d c (entryMsg p w d roomId msg) := by
  refine ⟨rfl, fun hfits => ⟨d.snapshot p w, enteredRoom_resultOf hfits, h.shows, ?_⟩⟩
  intro honLine hid haddress
  let e : Entity.character.Val := (some (utf8Bytes c.getId),
    (c.getNickName.filter fun nickName => nickName ≠ "").map utf8Bytes,
    (w.channels (w.chatters c).session).remoteAddress.map utf8Bytes, ())
  have he : c.Entry w e := ⟨rfl, rfl, rfl⟩
  exact ⟨e, (h.shows.entries e).2 ⟨c, ⟨hc, honLine, hid, haddress⟩, he⟩, he⟩

/-- What an entry sends: one message to the character, and another one to each of the others. -/
theorem announce_ok (haddress : d.Addressed p w)
    (hsends : w.Sends ((others p w d c).length + 1)) (roomId : BitVec 64) (msg : Option String) :
    ∃ w', announce p c roomId msg d w = .ok () w' ∧ w'.sent = w.sent ++
        ((w.chatters c).session, .message (entryMsg p w d roomId (some "进入房间成功"))) ::
          (others p w d c).map fun o =>
            ((w.chatters o).session, .message (entryMsg p w d roomId msg)) := by
  obtain ⟨reply, hreply⟩ : ∃ g, g = entryMsg p w d roomId (some "进入房间成功") := ⟨_, rfl⟩
  obtain ⟨hsend, hsends⟩ := (World.sends_succ (w.chatters c).session (.message reply)).1 hsends
  -- The first message changes neither how the others are reached nor the snapshot.
  obtain ⟨w₁, hw₁⟩ : ∃ w₁, w₁ = w.sentTo [(w.chatters c).session] (.message reply) := ⟨_, rfl⟩
  have hreach : w₁.reach = w.reach := by rw [hw₁]; rfl
  have hother := snapshotResult_ok ((addressed_of_reach hreach).2 haddress) msg roomId
  rw [snapshot_of_reach hreach] at hother
  rw [← hw₁, ← List.length_map (fun o => (w.chatters o).session)] at hsends
  have htell := tellOthers_characterSet p c (entryMsg p w d roomId msg) d w₁
  rw [others_of_reach hreach, sessions_of_reach hreach, Session.sendEach_ok hsends] at htell
  refine ⟨w₁.sentTo ((others p w d c).map fun o => (w.chatters o).session)
    (.message (entryMsg p w d roomId msg)), ?_, ?_⟩
  · rw [announce, run_bind_ok (snapshotResult_ok haddress (some "进入房间成功") roomId)]
    rw [← entryMsg, ← hreply, run_bind_ok (Character.sendMsg_ok hsend), ← hw₁, run_bind_ok hother,
      run_bind_ok (run_get w₁)]
    exact htell
  · rw [World.sentTo, hw₁, World.sentTo, ← hreply, List.append_assoc, List.map_map]
    rfl

/-- An entry that lets the character in. -/
theorem enter_sent {r r' : Room} (h : enter p c r = .ok true r') :
    r'.roomData = r.roomData.addCharacter c ∧ ∃ msg, r'.world.sent = r.world.sent ++
      ((r.world.chatters c).session,
        .message (entryMsg p r.world r'.roomData r.group.id (some "进入房间成功"))) ::
      (others p r.world r'.roomData c).map fun o =>
        ((r.world.chatters o).session,
          .message (entryMsg p r.world r'.roomData r.group.id msg)) := by
  cases hfull : r.group.isFullCharacter r.roomData.characterSize with
  | true =>
    rw [enter_full hfull] at h
    cases h
  | false =>
    obtain ⟨haddress, hsends⟩ := (enter_returns_iff hfull).1 ⟨true, r', h⟩
    obtain ⟨msg, w, hreenter, hreach, hcount, hfails, hsent⟩ :=
      reach_reenter c r.group.id r.world
    have hsends' : w.Sends ((others p w (r.roomData.addCharacter c) c).length + 1) := by
      rw [World.Sends, hcount, hfails, others_of_reach hreach]
      exact hsends
    obtain ⟨w', hannounce, hsent'⟩ := announce_ok ((addressed_of_reach hreach).2 haddress) hsends'
      r.group.id (some msg)
    have henter : enter p c r = .ok true
        { r with mem.roomData := r.roomData.addCharacter c, mem.world := w' } := by
      rw [enter, run_bind_ok (superEnter_ok hfull), if_pos rfl, run_bind_ok (run_get _)]
      dsimp only
      have hset : inWorld (reenter c r.group.id)
          { r with mem.roomData := r.roomData.addCharacter c } =
          .ok msg { r with mem.roomData := r.roomData.addCharacter c, mem.world := w } :=
        zoom_ok (zoom_ok hreenter)
      rw [run_bind_ok hset]
      exact run_bind_ok (zoom_ok (zoom_ok hannounce))
    cases h.symm.trans henter
    refine ⟨rfl, some msg, hsent'.trans ?_⟩
    have hentry : ∀ m, entryMsg p w (r.roomData.addCharacter c) r.group.id m =
        entryMsg p r.world (r.roomData.addCharacter c) r.group.id m := fun m => by
      rw [entryMsg, entryMsg, snapshot_of_reach hreach]
    simp only [hsent, hentry, session_of_reach hreach, others_of_reach hreach]
    rfl

/-! ## Closing -/

/-- The answer to a CLOSE_ROOM. -/
def closeMsg (code : BitVec 32) (msg : String) : PackageGroup :=
  CmdUtil.resultOf UserCmd.closeRoomResult CmdType.closeRoom code msg
    UserCmd.closeRoomResult.newBuilder

/-- The result of closing a room can be built. -/
theorem closeRoomResult_ok (code : BitVec 32) (msg : String) :
    CmdUtil.closeRoomResult code msg = .ok (closeMsg code msg) :=
  CmdUtil.emptyResult_ok (by rfl) _ _ _

/-- When sends succeed, a character is sent a result. -/
theorem sendResult_ok (hsends : ∀ n, w.sendFails n = false) (g : PackageGroup) :
    c.sendResult (.ok g) w = .ok () (w.sentTo [(w.chatters c).session] (.message g)) :=
  (run_bind_ok (run_pure g w)).trans (Character.sendMsg_ok (hsends _))

variable {m : RoomMem} {k : Cmd}

/-- The master's CLOSE_ROOM is answered, and then told to the others. -/
theorem closeRoomCmd_master (hc : c.getId = m.roomData.master.getId)
    (hsends : ∀ n, m.world.sendFails n = false) : ∃ m',
    RoomStateAdapter.closeRoomCmd p c k m = .ok () m' ∧ m'.world.sent = m.world.sent ++
      ((m.world.chatters c).session, .message (closeMsg ResultCode.ok "关闭房间")) ::
        (others p m.world m.roomData c).map fun o =>
          ((m.world.chatters o).session, .message (closeMsg ResultCode.ok "房主已关闭房间")) := by
  obtain ⟨w, hw⟩ : ∃ w, w = m.world.sentTo [(m.world.chatters c).session]
    (.message (closeMsg ResultCode.ok "关闭房间")) := ⟨_, rfl⟩
  have hreach : w.reach = m.world.reach := by rw [hw]; rfl
  have hreply : RoomMem.inWorld (c.sendResult (CmdUtil.closeRoomResult ResultCode.ok "关闭房间"))
      { m with roomData := m.roomData.close } =
        .ok () { m with roomData := m.roomData.close, world := w } := by
    rw [closeRoomResult_ok, hw]
    exact zoom_ok (sendResult_ok hsends _)
  -- Neither the closing nor the reply changes who the others are and how they are reached.
  have hothers : (others p w m.roomData.close c).map (fun o => (w.chatters o).session) =
      (others p m.world m.roomData c).map fun o => (m.world.chatters o).session := by
    have hset : others p w m.roomData.close c = others p m.world m.roomData c :=
      others_of_reach hreach
    rw [hset, sessions_of_reach hreach]
  have hsends' : w.Sends ((others p m.world m.roomData c).map
      fun o => (m.world.chatters o).session).length := fun _ _ => by
    rw [hw]
    exact hsends _
  refine ⟨{ m with
    roomData := m.roomData.close
    world := w.sentTo ((others p m.world m.roomData c).map fun o => (m.world.chatters o).session)
      (.message (closeMsg ResultCode.ok "房主已关闭房间")) }, ?_, ?_⟩
  · rw [RoomStateAdapter.closeRoomCmd, run_bind_ok (run_get m), if_neg (not_not.2 hc),
      RoomMem.setRoomData, run_bind_ok (run_modify _ m), run_bind_ok hreply,
      RoomStateAdapter.broadCastResult, closeRoomResult_ok]
    refine (run_bind_ok (run_pure _ _)).trans ((broadCastData_others p c _ _).trans ?_)
    dsimp only
    rw [hothers]
    exact zoom_ok (Session.sendEach_ok hsends')
  · rw [World.sentTo, hw, World.sentTo, List.append_assoc, List.map_map]
    rfl

/-- Nobody but the sender is told when a CLOSE_ROOM of somebody else is handled. -/
theorem handleCmd_closeRoom_other (ph : Phase) (c : Character)
    (hk : k.getCmdType = CmdType.closeRoom) : ∃ g, ∀ m : RoomMem,
      c.getId ≠ m.roomData.master.getId → (∀ n, m.world.sendFails n = false) →
        ∃ m', (ph.state p).handleCmd c k m = .ok () m' ∧
          m'.world.sent = m.world.sent ++ [((m.world.chatters c).session, .message g)] := by
  by_cases hph : ph = .error
  · subst hph
    exact ⟨_, fun m hc hsends => ⟨_, zoom_ok (Character.sendMsg_ok (hsends _)), rfl⟩⟩
  · have hstart : k.getCmdType ≠ CmdType.startChatting := by rw [hk]; decide
    refine ⟨closeMsg ResultCode.fail "非房主不能关闭房间", fun m hc hsends => ?_⟩
    rw [handleCmd_state hph hstart, RoomStateAdapter.handleCmd, if_pos hk,
      RoomStateAdapter.closeRoomCmd, run_bind_ok (run_get m), if_pos hc, closeRoomResult_ok]
    exact ⟨_, zoom_ok (sendResult_ok hsends _), rfl⟩

/-- An update sends what its command's handler sends. -/
theorem sent_update {r : Room} {ph : Phase} (h : r.InPhase p ph)
    {pair : CharacterCmdPair Character Cmd} {rest : List (CharacterCmdPair Character Cmd)}
    (hq : r.pending = pair :: rest) {more : List (SessionRef × Data)}
    (hhandle : ∀ m, m.roomData = r.roomData → m.world = r.world → ∃ m',
      (ph.state p).handleCmd pair.character pair.cmd m = .ok () m' ∧
        m'.world.sent = r.world.sent ++ more) :
    (Room.world (endState AbstractStateGroup.update r)).sent = r.world.sent ++ more := by
  obtain ⟨m, hdata, hworld, hupdate⟩ := world_update h hq
  obtain ⟨m', hm', hsent⟩ := hhandle m hdata hworld
  have hstage : AbstractStateGroup.handleStage (ph.state p) pair m = .ok () m' := catching_ok hm'
  rw [hupdate, endState_ok hstage, hsent]

end

/-! ## Runs -/

/-- Whom a room tells of an entry and of its closing. While no call of `send` fails, an update sends
what its command's handler does. -/
structure BroadcastExact (p : Platform) (r : Room) : Prop where
  entered : ∀ c r', enter p c r = .ok true r' → r.world.TellsOnce r'.world c
    (r'.roomData.OnLine r.world) (AnnouncesEntry r.world r'.roomData c)
  refused : ∀ c r', enter p c r = .ok false r' → r'.world.sent = r.world.sent
  closed : (∀ n, r.world.sendFails n = false) → ∀ ph pair rest, r.InPhase p ph → ph ≠ .error →
    r.pending = pair :: rest → Closes r.roomData pair →
      r.world.TellsOnce (Room.world (endState AbstractStateGroup.update r)) pair.character
        (fun o => r.roomData.OnLine r.world o ∧ o.getId ≠ pair.character.getId)
        fun g => Data.result (.message g) = some (CmdType.closeRoom, ResultCode.ok)
  notClosed : (∀ n, r.world.sendFails n = false) → ∀ ph pair rest, r.InPhase p ph →
    r.pending = pair :: rest → pair.cmd.getCmdType = CmdType.closeRoom →
      pair.character.getId ≠ r.roomData.master.getId →
        ∃ ds, r.world.Delivers (Room.world (endState AbstractStateGroup.update r)) ds ∧
          ∀ o, o ≠ pair.character → messagesFor ds o = []

section
variable {p : Platform} {r : Room}

/-- An entry is told to the member that enters, and to the others once. -/
theorem tellsOnce_enter (h : r.roomData.Keyed) {c : Character} {r' : Room}
    (henter : enter p c r = .ok true r') : r.world.TellsOnce r'.world c
      (r'.roomData.OnLine r.world) (AnnouncesEntry r.world r'.roomData c) := by
  obtain ⟨hdata, msg, hsent⟩ := enter_sent henter
  have hkeyed : r'.roomData.Keyed := by
    rw [hdata]
    exact HashMap.KeyedBy.put h c
  have hmember : ∃ id, r'.roomData.getCharacter id = some c := by
    rw [hdata]
    exact ⟨c.getId, HashMap.get_put _ _ _⟩
  exact .of_sent (nodup_others hkeyed) notMem_others
    (fun o hne => mem_others_iff_of_member hkeyed hmember hne) (announcesEntry hkeyed hmember _ _)
    (announcesEntry hkeyed hmember _ _) hsent

/-- The closing of a room is told to its creator, and to the others once. -/
theorem tellsOnce_close (h : r.roomData.Keyed) (hsends : ∀ n, r.world.sendFails n = false)
    {ph : Phase} {pair : CharacterCmdPair Character Cmd}
    {rest : List (CharacterCmdPair Character Cmd)} (hphase : r.InPhase p ph) (hne : ph ≠ .error)
    (hq : r.pending = pair :: rest) (hcloses : Closes r.roomData pair) :
    r.world.TellsOnce (Room.world (endState AbstractStateGroup.update r)) pair.character
      (fun o => r.roomData.OnLine r.world o ∧ o.getId ≠ pair.character.getId)
      fun g => Data.result (.message g) = some (CmdType.closeRoom, ResultCode.ok) := by
  have hstart : pair.cmd.getCmdType ≠ CmdType.startChatting := by rw [hcloses.1]; decide
  have hsent := sent_update hphase hq fun m hdata hworld => by
    rw [handleCmd_state hne hstart, RoomStateAdapter.handleCmd, if_pos hcloses.1, ← hworld]
    have hmaster : pair.character.getId = m.roomData.master.getId := hdata ▸ hcloses.2
    have hclose := closeRoomCmd_master (p := p) (k := pair.cmd) hmaster fun n => by
      rw [hworld]
      exact hsends n
    rw [hdata] at hclose
    rw [hworld] at hclose ⊢
    exact hclose
  exact .of_sent (nodup_others h) notMem_others (fun o _ => mem_others) rfl rfl hsent

end

variable {p : Platform} {id : BitVec 64} {creator : Character} {config : RoomStateConfig}
variable {roomCapacity : Int} {w : World} {r₀ r : Room} {ts : List (Transition Room Op)}

/-- In every state of a run, the room tells everybody who has to know, once, and nobody else. -/
theorem broadcast_exact (hc : create p id creator config roomCapacity w = some r₀)
    (hr : Run (Step p) r₀ ts r) : BroadcastExact p r := by
  obtain ⟨_, -, hspec⟩ := run_holds_spec hc hr
  have hkeyed : r.roomData.Keyed := hspec.keyed
  refine ⟨fun c r' h => tellsOnce_enter hkeyed h, fun c r' h => ?_, ?_, ?_⟩
  · rw [(run_holds hc hr).unchanged c r' h]
  · intro hsends ph pair rest hphase hne hq hcloses
    exact tellsOnce_close hkeyed hsends hphase hne hq hcloses
  · intro hsends ph pair rest hphase hq hk hmaster
    obtain ⟨g, hg⟩ := handleCmd_closeRoom_other (p := p) ph pair.character hk
    refine ⟨[(pair.character, g)], sent_update hphase hq fun m hdata hworld => ?_, fun o hne => ?_⟩
    · rw [← hworld]
      exact hg m (by rw [hdata]; exact hmaster) (by rw [hworld]; exact hsends)
    · rw [messagesFor_cons_ne hne]
      rfl

/-- Alice is in her room with bob. -/
theorem broadcast_exact_aliceRoom : ∃ ts,
    Run (Step .standard) aliceRoom ts (aliceRoomWith ["bob"]) ∧
      BroadcastExact .standard (aliceRoomWith ["bob"]) := by
  have hr := run_transitions .standard (entries ["bob"]) aliceRoom
  exact ⟨_, hr, broadcast_exact create_aliceRoom hr⟩

end RoomStateGroup

end WebRtcNetty
