import WebRtcNetty.Chat.Broadcast
import WebRtcNetty.Chat.RoomAuthority

/-!
# Logging out

What the update that processes a member's LOGIN_OUT owes the members (`LogsOut`). It never gives it
(`update_not_logsOut`): the reply to the member comes first and cannot be built, so the handler
throws before it removes the member.
-/

namespace WebRtcNetty

open Java Proto2 Command Runs

namespace RoomStateGroup

/-- From `r` to `r'` the member has logged out: it is no member any more, the other members are as
before, and the room has sent the code `OK` to it and to each other member that is online, once. A
room without other members can then be deposed. -/
structure LogsOut (p : Platform) (c : Character) (r r' : Room) : Prop where
  removed : ¬ Member r' c.getId
  kept : ∀ id ≠ c.getId, r'.roomData.getCharacter id = r.roomData.getCharacter id
  sent : (r.world.toldBy r'.world CmdType.loginOut ResultCode.ok).Perm
    ((r.world.chatters c).session :: (others p r.world r.roomData c).map
      fun o => (r.world.chatters o).session)
  deposable : (∀ id ≠ c.getId, ¬ Member r id) → canDepose p r' = true

/-- In no room does the update that processes a member's LOGIN_OUT log the member out. -/
theorem update_not_logsOut {p : Platform} {r : Room} {ph : Phase}
    {pair : CharacterCmdPair Character Cmd} {rest : List (CharacterCmdPair Character Cmd)}
    (h : r.InPhase p ph) (hq : r.pending = pair :: rest)
    (hcmd : pair.cmd.getCmdType = CmdType.loginOut) (hm : Member r pair.character.getId) :
    ¬ LogsOut p pair.character r (endState AbstractStateGroup.update r) := by
  intro hlogs
  have hsame : r.roomData.after p ph pair.character pair.cmd = r.roomData := by
    rcases RoomData.after_cases p r.roomData ph pair.character pair.cmd with
      he | ⟨hk, -, -⟩ | ⟨id, hk, -, -⟩
    · exact he
    · rw [hcmd] at hk
      exact absurd hk (by decide)
    · rw [hcmd] at hk
      exact absurd hk (by decide)
  have hdata := (update_handles h hq).roomData
  rw [hsame] at hdata
  refine hlogs.removed ?_
  rw [Member, hdata]
  exact hm

/-- Alice's LOGIN_OUT waits in her room. -/
def aliceLeaving : Room :=
  ([.enter alice, .addCharacterCmd alice (.of CmdType.loginOut [])] : List Op).foldl
    (fun r op => endState (op.run .standard) r) aliceRoom

/-- Alice is a member. -/
theorem aliceLeaving_member : Member aliceLeaving alice.getId := by
  show _ = _
  rfl

/-- Her room is waiting. -/
theorem aliceLeaving_inPhase : aliceLeaving.InPhase .standard .waiting := ⟨rfl, rfl⟩

/-- The update does not log her out. -/
theorem update_not_logsOut_alice :
    ¬ LogsOut .standard alice aliceLeaving (endState AbstractStateGroup.update aliceLeaving) :=
  update_not_logsOut aliceLeaving_inPhase rfl rfl aliceLeaving_member

/-- She is still a member after the update that processes it. -/
theorem logsOut_counterexample : Member aliceLeaving alice.getId ∧
    ¬ LogsOut .standard alice aliceLeaving (endState AbstractStateGroup.update aliceLeaving) := by
  refine ⟨aliceLeaving_member, fun h => h.removed ?_⟩
  show _ = _
  rfl

end RoomStateGroup

end WebRtcNetty
