import WebRtcNetty.Chat.Broadcast
import WebRtcNetty.Chat.Results
import WebRtcNetty.Chat.RoomAuthority
import WebRtcNetty.Server.Membership

/-!
# Kicking a member off

What the update that processes the master's KICK_OFF owes the room (`KicksOff`). The handler removes
the character before it looks it up, so it never finds whom to tell, and it tells the members that
somebody was kicked whether somebody was or not (`update_kicksOff_iff`).
-/

namespace WebRtcNetty

open Java Proto2 Command Runs Server

/-! ## What the room sends -/

section
variable {p : Platform} {ph : Phase} {pair : CharacterCmdPair Character Cmd} {m : RoomMem}
variable {id : String}

/-- The notice of a kick that a member gets. -/
def kickOffNotice (msg : String) : PackageGroup :=
  CmdUtil.resultOf UserCmd.kickOffCharacterResult CmdType.kickOff ResultCode.ok msg
    UserCmd.kickOffCharacterResult.newBuilder

/-- The kicked character is looked up in vain. -/
theorem kickOut_eq (id : String) (m : RoomMem) : RoomStateAdapter.kickOut id m =
    .ok none { m with roomData := (m.roomData.removeCharacter id).2 } := by
  have hget : (m.roomData.removeCharacter id).2.getCharacter id = none := HashMap.get_remove _ _
  rw [RoomStateAdapter.kickOut, run_bind_ok (run_get m)]
  simp only [RoomMem.setRoomData, run_bind_ok (run_modify _ m), hget]
  split
  · rfl
  · rfl

/-- The master's KICK_OFF removes the id that it names, and tells the members that are left. -/
theorem clickOutCharacter_eq {c : Character} {k : Cmd} (h : m.roomData.kicks p c k = some id) :
    RoomStateAdapter.clickOutCharacter p c k m =
      RoomStateAdapter.broadCastData p none (kickOffNotice "用户已被踢出")
        { m with roomData := (m.roomData.removeCharacter id).2 } := by
  obtain ⟨hc, ⟨kick, hparse, hid⟩, hne⟩ := RoomData.kicks_eq_some h
  rw [RoomStateAdapter.clickOutCharacter, run_bind_ok (run_get m)]
  simp only [if_neg (not_not.2 hc), hparse, hid, if_neg hne]
  rw [run_bind_ok (kickOut_eq id m), RoomStateAdapter.broadCastResult,
    CmdUtil.kickOffCharacterResult, CmdUtil.emptyResult_ok (by rfl)]
  rfl

theorem after_kickOff {d : RoomData} {c : Character} {k : Cmd} (hne : ph ≠ .error)
    (hcmd : k.getCmdType = CmdType.kickOff) (hkicks : d.kicks p c k = some id) :
    d.after p ph c k = (d.removeCharacter id).2 := by
  have hclose : k.getCmdType ≠ CmdType.closeRoom := by rw [hcmd]; decide
  have hafter : d.afterCmd p c k = (d.removeCharacter id).2 := by
    rw [RoomData.afterCmd, if_neg hclose, if_pos hcmd]
    simp only [hkicks]
  cases ph with
  | waiting => exact hafter
  | chatting => exact hafter
  | finish => exact hafter
  | error => exact absurd rfl hne

theorem handleCmd_kickOff {c : Character} {k : Cmd} (hne : ph ≠ .error)
    (hcmd : k.getCmdType = CmdType.kickOff) :
    (ph.state p).handleCmd c k = RoomStateAdapter.clickOutCharacter p c k := by
  have hclose : k.getCmdType ≠ CmdType.closeRoom := by rw [hcmd]; decide
  have hstart : k.getCmdType ≠ CmdType.startChatting := by rw [hcmd]; decide
  rw [handleCmd_state hne hstart, RoomStateAdapter.handleCmd, if_neg hclose, if_pos hcmd]

/-- What the report of an error sends is no result with the code `OK`. -/
theorem errorMsg_result (msg : Option String) (k cmdType : BitVec 32) :
    Data.result (.message (CmdUtil.errorMsg msg k)) ≠ some (cmdType, ResultCode.ok) := by
  intro h
  have hval : (CmdUtil.errorMsg msg k).val.1 = [(some (CmdUtil.resultMsg ResultCode.error msg).val,
    if (0#32).slt k then some k else none, none, ())] := rfl
  simp only [Data.result, hval, CmdUtil.resultMsg] at h
  split at h
  · next heq =>
      cases h
      have hresult := Option.some.inj (Prod.mk.inj (List.singleton_inj.1 heq)).1
      have hcode : some ResultCode.error = some ResultCode.ok := (Prod.mk.inj hresult).1
      exact absurd hcode (by decide)
  · cases h

theorem sent_handleCmdOnError (c : Character) (k : Cmd) (e : Throwable) (m : RoomMem)
    (cmdType : BitVec 32) :
    ∃ more, (endState (StateAdapter.handleCmdOnError c k e) m).world.sent = m.world.sent ++ more ∧
      (more.filter fun x => decide (x.2.result = some (cmdType, ResultCode.ok))) = [] := by
  rw [StateAdapter.handleCmdOnError, RoomMem.inWorld, endState_zoom]
  obtain ⟨more, hmore, herror⟩ := c.sent_sendMsg _ m.world
  refine ⟨more, hmore, List.filter_eq_nil_iff.2 fun x hx => ?_⟩
  rw [herror x hx]
  simp only [errorMsg_result, decide_false, Bool.false_eq_true, not_false_eq_true]

/-- The sessions of the members that are online. -/
def RoomData.sessions (p : Platform) (w : World) (d : RoomData) : List SessionRef :=
  (d.characterSet p w).map fun c => (w.chatters c).session

/-- The members that are left are told, one after another, until a call of `send` fails. -/
theorem toldBy_handleStage (hne : ph ≠ .error) (hcmd : pair.cmd.getCmdType = CmdType.kickOff)
    (hkicks : m.roomData.kicks p pair.character pair.cmd = some id) {ss : List SessionRef}
    (hss : ss = (m.roomData.removeCharacter id).2.sessions p m.world) :
    ∃ n ≤ ss.length, m.world.toldBy
        (endState (AbstractStateGroup.handleStage (ph.state p) pair) m).world
          CmdType.kickOff ResultCode.ok = ss.take n ∧
      m.world.Sends n ∧ (n < ss.length → m.world.sendFails (m.world.sends + n) = true) := by
  have hnotice : Data.result (.message (kickOffNotice "用户已被踢出")) =
      some (CmdType.kickOff, ResultCode.ok) := rfl
  have hall : ((m.roomData.removeCharacter id).2.characterSet p m.world).filter
      (fun c => decide (Option.map (·.getId) (none : Option Character) ≠ some c.getId)) =
        (m.roomData.removeCharacter id).2.characterSet p m.world :=
    List.filter_eq_self.2 fun c _ => rfl
  have hhandle : (ph.state p).handleCmd pair.character pair.cmd m = RoomMem.inWorld
      (Session.sendEach ss (.message (kickOffNotice "用户已被踢出")))
        { m with roomData := (m.roomData.removeCharacter id).2 } := by
    rw [handleCmd_kickOff hne hcmd, clickOutCharacter_eq hkicks, broadCastData_eq, hall, hss]
    rfl
  by_cases hsends : m.world.Sends ss.length
  · have hok : AbstractStateGroup.handleStage (ph.state p) pair m = .ok () { m with
        roomData := (m.roomData.removeCharacter id).2
        world := m.world.sentTo ss (.message (kickOffNotice "用户已被踢出")) } :=
      catching_ok (hhandle.trans (zoom_ok (Session.sendEach_ok hsends)))
    refine ⟨ss.length, le_refl _, ?_, hsends, fun h => absurd h (Nat.lt_irrefl _)⟩
    rw [endState_ok hok, List.take_length]
    exact (World.toldBy_of_sent rfl _ _).trans (filter_result hnotice ss)
  · obtain ⟨n, hn, hsent, hfails, he⟩ :=
      Session.sendEach_error (.message (kickOffNotice "用户已被踢出")) hsends
    refine ⟨n, hn.le, ?_, hsent, fun _ => hfails⟩
    obtain ⟨more, hmore, hnone⟩ := sent_handleCmdOnError pair.character pair.cmd
      ⟨"RuntimeException"⟩ { m with
        roomData := (m.roomData.removeCharacter id).2
        world := { m.world.sentTo (ss.take n) (.message (kickOffNotice "用户已被踢出")) with
          sends := m.world.sends + n + 1 } } CmdType.kickOff
    have hsent : (endState (AbstractStateGroup.handleStage (ph.state p) pair) m).world.sent =
        m.world.sent ++ ((ss.take n).map (·, .message (kickOffNotice "用户已被踢出")) ++ more) := by
      rw [AbstractStateGroup.handleStage, Phase.handleCmdOnError_state,
        endState_catching_error (hhandle.trans (zoom_error he)), ← List.append_assoc]
      exact hmore
    rw [World.toldBy_of_sent hsent, List.filter_append, hnone, List.append_nil]
    exact filter_result hnotice _

/-- Nobody is told when there is nobody to tell, or the first call of `send` fails. -/
theorem take_eq_nil_iff_of_sends {w : World} {ss : List SessionRef} {n : Nat} (hn : n ≤ ss.length)
    (hsends : w.Sends n) (hfails : n < ss.length → w.sendFails (w.sends + n) = true) :
    ss.take n = [] ↔ ss = [] ∨ w.sendFails w.sends = true := by
  rw [List.take_eq_nil_iff]
  constructor
  · rintro (rfl | hnil)
    · cases ss with
      | nil => exact .inl rfl
      | cons => exact .inr (hfails (Nat.succ_pos _))
    · exact .inl hnil
  · rintro (hnil | hfail)
    · exact .inr hnil
    · cases n with
      | zero => exact .inl rfl
      | succ n => exact absurd ((hsends 0 (Nat.succ_pos n)).symm.trans hfail) (by decide)

/-- The update that processes the master's KICK_OFF removes the id that it names and tells the
members that are left, until a call of `send` fails. -/
theorem toldBy_update {r : Room} {rest : List (CharacterCmdPair Character Cmd)}
    (h : r.InPhase p ph) (hne : ph ≠ .error) (hq : r.pending = pair :: rest)
    (hcmd : pair.cmd.getCmdType = CmdType.kickOff)
    (hkicks : r.roomData.kicks p pair.character pair.cmd = some id) {ss : List SessionRef}
    (hss : ss = (r.roomData.removeCharacter id).2.sessions p r.world) :
    ∃ n ≤ ss.length, r.world.toldBy (Room.world (endState AbstractStateGroup.update r))
        CmdType.kickOff ResultCode.ok = ss.take n ∧
      r.world.Sends n ∧ (n < ss.length → r.world.sendFails (r.world.sends + n) = true) := by
  obtain ⟨m, hdata, hworld, hupdate⟩ := world_update h hq
  have htold := toldBy_handleStage (m := m) hne hcmd (by rw [hdata]; exact hkicks) rfl
  rw [hdata, hworld, ← hss] at htold
  rw [hupdate]
  exact htold

end

/-! ## What the room owes -/

/-- From `s` to `s'` the id has been kicked off the room. A member under the id is removed, it is
told, and so is each other member that is online, once; and from then on no command of it is put in
the room's queue before it enters the room again. If there is no member under the id, nothing
happens. -/
structure KicksOff (p : Platform) (r : RoomRef) (id : String) (s s' : Server) : Prop where
  removed : s'.member r id = none
  kept : ∀ id' ≠ id, s'.member r id' = s.member r id'
  told : ∀ c, s.member r id = some c →
    (s.world.toldBy s'.world CmdType.kickOff ResultCode.ok).Perm
      ((s.world.chatters c).session ::
        ((s.rooms r).roomData.removeCharacter id).2.sessions p s.world)
  notRouted : ∀ c, s.member r id = some c → ∀ ts s'', Run (Step p) s' ts s'' →
    ∀ us t vs, ts = us ++ t :: vs → Queues c r t → ∃ u ∈ us, Enters p c r u
  notTold : s.member r id = none → s.world.toldBy s'.world CmdType.kickOff ResultCode.ok = []

section
variable {p : Platform} {ph : Phase} {pair : CharacterCmdPair Character Cmd}
variable {rest : List (CharacterCmdPair Character Cmd)} {s s' : Server} {r : RoomRef} {id : String}

/-- What the update that processes the master's KICK_OFF does to the room, and what it sends. -/
theorem step_kickOff (hr : r < s.roomCount) (h : ((Server.room r).get s).InPhase p ph)
    (hne : ph ≠ .error) (hq : ((Server.room r).get s).pending = pair :: rest)
    (hcmd : pair.cmd.getCmdType = CmdType.kickOff)
    (hkicks : (s.rooms r).roomData.kicks p pair.character pair.cmd = some id)
    (hs : Step p s (.background (.update r)) s') {ss : List SessionRef}
    (hss : ss = ((s.rooms r).roomData.removeCharacter id).2.sessions p s.world) :
    (s'.rooms r).roomData = ((s.rooms r).roomData.removeCharacter id).2 ∧ ∃ n ≤ ss.length,
      s.world.toldBy s'.world CmdType.kickOff ResultCode.ok = ss.take n ∧ s.world.Sends n ∧
        (n < ss.length → s.world.sendFails (s.world.sends + n) = true) := by
  have hrun : s' = endState (inRoom r AbstractStateGroup.update) s :=
    hs.trans (endState_update (p := p) hr)
  constructor
  · have hafter : ((room r).get s).roomData.after p ph pair.character pair.cmd =
        ((s.rooms r).roomData.removeCharacter id).2 := after_kickOff hne hcmd hkicks
    rw [hrun, rooms_inRoom_self, ← hafter]
    exact (update_handles h hq).roomData
  · rw [hrun, world_inRoom]
    exact toldBy_update h hne hq hcmd hkicks hss

/-- The update that processes the master's KICK_OFF of another id does what it owes the room exactly
when the id is no member's, and there is nobody to tell, or the first call of `send` fails. -/
theorem update_kicksOff_iff (hr : r < s.roomCount) (h : ((Server.room r).get s).InPhase p ph)
    (hne : ph ≠ .error) (hq : ((Server.room r).get s).pending = pair :: rest)
    (hkick : RoomStateGroup.Kicks p pair.cmd id)
    (hmaster : pair.character.getId = (s.rooms r).roomData.master.getId)
    (hother : id ≠ (s.rooms r).roomData.master.getId)
    (hs : Step p s (.background (.update r)) s') : KicksOff p r id s s' ↔
      s.member r id = none ∧ ((s.rooms r).roomData.sessions p s.world = [] ∨
        s.world.sendFails s.world.sends = true) := by
  have hkicks : (s.rooms r).roomData.kicks p pair.character pair.cmd = some id :=
    RoomData.kicks_of_master hmaster hkick.2 hother
  obtain ⟨ss, hss⟩ : ∃ ss, ss = ((s.rooms r).roomData.removeCharacter id).2.sessions p s.world :=
    ⟨_, rfl⟩
  obtain ⟨hdata, n, hn, htold, hsends, hfails⟩ := step_kickOff hr h hne hq hkick.1 hkicks hs hss
  cases hm : s.member r id with
  | some c =>
    -- Those that are left are told at most, and so the character that was kicked is not.
    refine iff_of_false (fun hk => ?_) fun h => by cases h.1
    have hlength := (hk.told c hm).length_eq
    rw [htold, ← hss, List.length_take, List.length_cons] at hlength
    omega
  | none =>
    rw [and_iff_right rfl, ← RoomData.removeCharacter_of_getCharacter_none hm, ← hss,
      ← take_eq_nil_iff_of_sends hn hsends hfails, ← htold]
    refine ⟨fun hk => hk.notTold hm, fun hnil => ⟨?_, fun id' hid' => ?_, fun c hc => ?_,
      fun c hc => ?_, fun _ => hnil⟩⟩
    · rw [Server.member, hdata]
      exact HashMap.get_remove _ _
    · rw [Server.member, hdata]
      exact HashMap.get_remove_ne hid'
    · cases hm.symm.trans hc
    · cases hm.symm.trans hc

end

/-! ## Alice kicks bob off -/

/-- Alice's KICK_OFF of bob. -/
def kickBob : Cmd := .of CmdType.kickOff [10, 3, 98, 111, 98]

/-- Alice creates a room, kicks off bob, who is not in it, and goes. -/
def kicksNobody : List Op := createOnce ++ [.handle 0 kickBob, .background (.close 0)]

/-- Alice creates a room, bob enters it, and she kicks him off. -/
def kicksGuest : List Op := createOnce ++
  [.handle 1 (.of CmdType.login [10, 3, 98, 111, 98, 18, 0]),
    .handle 1 (.of CmdType.enterRoom [10, 3, 98, 111, 98, 16, 1]), .handle 0 kickBob]

/-- The server after the operations, and after an update of the first room. -/
def afterOps (ops : List Op) : Server := ops.foldl (fun s op => endState (op.run .standard) s) start

def afterUpdate (ops : List Op) : Server :=
  endState ((Op.background (.update 0)).run .standard) (afterOps ops)

/-- The first room waits for its master while it has not been updated. -/
theorem afterOps_inPhase (ops : List Op) (hr : 0 < (afterOps ops).roomCount)
    (hcode : ((room 0).get (afterOps ops)).currentCode = some "waiting") :
    ∃ ph, ((room 0).get (afterOps ops)).InPhase .standard ph ∧ ph ≠ .error := by
  have hwf : (afterOps ops).WellFormed .standard :=
    (run_transitions .standard ops start).invariant (wellFormed_initial _ _ _)
      fun _ _ _ h hs => h.step hs
  obtain ⟨ph, hph⟩ := hwf.inPhase 0 hr
  refine ⟨ph, hph, ?_⟩
  rintro rfl
  rw [hph.currentCode] at hcode
  revert hcode
  decide

/-- Nobody is told that bob has been kicked off, since nobody is there. -/
theorem update_kicksOff_iff_alice :
    KicksOff .standard 0 "bob" (afterOps kicksNobody) (afterUpdate kicksNobody) := by
  obtain ⟨ph, hph, hne⟩ := afterOps_inPhase kicksNobody (by decide +kernel) (by decide +kernel)
  have hhead : ((room 0).get (afterOps kicksNobody)).pending.head?.map
      (fun pair => (pair.character.getId, pair.cmd.getCmdType, pair.cmd.getContent)) =
        some ("alice", CmdType.kickOff, [10, 3, 98, 111, 98]) := by decide +kernel
  cases hq : ((room 0).get (afterOps kicksNobody)).pending with
  | nil => rw [hq] at hhead; cases hhead
  | cons pair rest =>
    rw [hq, List.head?_cons, Option.map_some, Option.some.injEq, Prod.mk.injEq, Prod.mk.injEq]
      at hhead
    obtain ⟨hid, hcmd, hcontent⟩ := hhead
    have hkicks : RoomStateGroup.Kicks .standard pair.cmd "bob" := by
      refine ⟨hcmd, ?_⟩
      rw [hcontent]
      exact ⟨_, rfl, by decide +kernel⟩
    have hmaster : ((afterOps kicksNobody).rooms 0).roomData.master.getId = "alice" := by
      decide +kernel
    exact (update_kicksOff_iff (by decide +kernel) hph hne hq hkicks (hid.trans hmaster.symm)
      (by rw [hmaster]; decide) rfl).2 ⟨by decide +kernel, .inl (by decide +kernel)⟩

/-- Bob is kicked off, and alice is told, but he is not. -/
theorem kicksOff_counterexample : (afterOps kicksGuest).member 0 "bob" = some ⟨1, "bob", none⟩ ∧
    ¬ KicksOff .standard 0 "bob" (afterOps kicksGuest) (afterUpdate kicksGuest) := by
  have hmember : (afterOps kicksGuest).member 0 "bob" = some ⟨1, "bob", none⟩ := by decide +kernel
  refine ⟨hmember, fun h => ?_⟩
  have htold := h.told ⟨1, "bob", none⟩ hmember
  revert htold
  decide +kernel

end WebRtcNetty
