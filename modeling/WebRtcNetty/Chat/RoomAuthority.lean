import WebRtcNetty.Chat.RoomRefinement

/-!
# Who may change a room

The room's master is its creator, for good. Only the creator's commands close the room or remove
members, and none removes the creator (`room_authorized`). The step lemmas are about the
specification: `RoomData.after_cases` says everything that a command may do to the data, and an
entry only adds a member.
-/

namespace WebRtcNetty

open Java Proto2 Command Runs

/-! ## The steps of the specification -/

namespace RoomSpec

variable {p : Platform} {s s' : RoomSpec} {op : RoomStateGroup.Op} {id : String}

/-- No step changes the master or the flags the room was created with. -/
theorem Step.config (h : RoomSpec.Step p s op s') : s'.data.master = s.data.master ∧
    s'.data.hasAudio = s.data.hasAudio ∧ s'.data.hasVideo = s.data.hasVideo := by
  cases h with
  | enter c =>
    dsimp only
    split
    · exact ⟨rfl, rfl, rfl⟩
    · exact ⟨rfl, rfl, rfl⟩
  | addCharacterCmd c k => exact ⟨rfl, rfl, rfl⟩
  | idle hq => exact ⟨rfl, rfl, rfl⟩
  | handle hq hphase => exact RoomData.after_config
  | environment w => exact ⟨rfl, rfl, rfl⟩

/-- A step that closes the room handles the master's CLOSE_ROOM. -/
theorem Step.closes (h : RoomSpec.Step p s op s') (ho : s.data.isClosed = false)
    (hc : s'.data.isClosed = true) : op = .update ∧ ∃ pair rest, s.pending = pair :: rest ∧
      pair.cmd.getCmdType = CmdType.closeRoom ∧
      pair.character.getId = s.data.master.getId := by
  cases h with
  | enter c =>
    dsimp only at hc
    split at hc
    · rw [ho] at hc; cases hc
    · exact absurd (ho.symm.trans hc) (by decide)
  | addCharacterCmd c k => exact absurd (ho.symm.trans hc) (by decide)
  | idle hq => exact absurd (ho.symm.trans hc) (by decide)
  | @handle pair rest ph hq hphase =>
    refine ⟨rfl, pair, rest, hq, ?_⟩
    dsimp only at hc
    rcases RoomData.after_cases p s.data s.phase pair.character pair.cmd with
      he | ⟨hk, hm, -⟩ | ⟨id, -, -, he⟩
    · rw [he, ho] at hc; cases hc
    · exact ⟨hk, hm⟩
    · rw [he] at hc; exact absurd (ho.symm.trans hc) (by decide)
  | environment w => exact absurd (ho.symm.trans hc) (by decide)

/-- A closed room stays closed. -/
theorem Step.closed (h : RoomSpec.Step p s op s') (hc : s.data.isClosed = true) :
    s'.data.isClosed = true := by
  cases h with
  | enter c =>
    dsimp only
    split
    · exact hc
    · exact hc
  | addCharacterCmd c k => exact hc
  | idle hq => exact hc
  | @handle pair rest ph hq hphase =>
    dsimp only
    rcases RoomData.after_cases p s.data s.phase pair.character pair.cmd with
      he | ⟨-, -, he⟩ | ⟨id, -, -, he⟩
    · rw [he]; exact hc
    · rw [he]; rfl
    · rw [he]; exact hc
  | environment w => exact hc

/-- A step that removes a member handles a KICK_OFF of the master that names the member. -/
theorem Step.removes (h : RoomSpec.Step p s op s')
    (hm : s.data.characterMap.containsKey id = true)
    (hm' : s'.data.characterMap.containsKey id = false) :
    op = .update ∧ ∃ pair rest, s.pending = pair :: rest ∧
      pair.cmd.getCmdType = CmdType.kickOff ∧
      s.data.kicks p pair.character pair.cmd = some id := by
  cases h with
  | enter c =>
    dsimp only at hm'
    split at hm'
    · exact absurd (hm.symm.trans hm') (by decide)
    · have hget : (s.data.addCharacter c).characterMap.containsKey id = true := by
        simp only [RoomData.addCharacter, HashMap.containsKey, HashMap.get_put_eq]
        split
        · rfl
        · exact hm
      exact absurd (hget.symm.trans hm') (by decide)
  | addCharacterCmd c k => exact absurd (hm.symm.trans hm') (by decide)
  | idle hq => exact absurd (hm.symm.trans hm') (by decide)
  | @handle pair rest ph hq hphase =>
    exact ⟨rfl, pair, rest, hq, RoomData.containsKey_after hm hm'⟩
  | environment w => exact absurd (hm.symm.trans hm') (by decide)

end RoomSpec

/-! ## Runs of a room -/

namespace RoomStateGroup

variable {p : Platform} {id : BitVec 64} {creator : Character} {config : RoomStateConfig}
variable {roomCapacity : Int} {w : World} {r₀ r : Room} {ts : List (Transition Room Op)}

/-- The transition is an update that processes the pair. -/
def Processes (t : Transition Room Op) (pair : CharacterCmdPair Character Cmd) : Prop :=
  t.label = .update ∧ t.before.pending.head? = some pair

/-- The member map has an entry for the id. -/
def Member (r : Room) (id : String) : Prop := r.roomData.characterMap.containsKey id = true

/-- The command is a KICK_OFF that names the id. -/
def Kicks (p : Platform) (cmd : Cmd) (id : String) : Prop :=
  cmd.getCmdType = CmdType.kickOff ∧
    ∃ m, UserCmd.kickOffCharacter.parseFrom cmd.getContent = some m ∧
      UserCmd.KickOffCharacter.getCharacterId p m = id

/-- What a transition may do to the data of a room with this creator and configuration. -/
structure Authorized (p : Platform) (creator : Character) (config : RoomStateConfig)
    (t : Transition Room Op) : Prop where
  closes : t.before.roomData.isClosed = false → t.after.roomData.isClosed = true →
    ∃ pair, Processes t pair ∧ pair.cmd.getCmdType = CmdType.closeRoom ∧
      pair.character.getId = creator.getId
  closed : t.before.roomData.isClosed = true → t.after.roomData.isClosed = true
  removes : ∀ id, Member t.before id → ¬ Member t.after id → ∃ pair, Processes t pair ∧
    (Kicks p pair.cmd id ∧ pair.character.getId = creator.getId ∨
      pair.cmd.getCmdType = CmdType.loginOut ∧ pair.character.getId = id)
  keepsCreator : ∀ pair, Processes t pair → pair.cmd.getCmdType = CmdType.kickOff →
    Member t.before creator.getId → Member t.after creator.getId
  master : t.after.roomData.master = creator
  hasAudio : t.after.roomData.hasAudio = config.hasAudio
  hasVideo : t.after.roomData.hasVideo = config.hasVideo

/-- What no run changes. -/
theorem run_config (hc : create p id creator config roomCapacity w = some r₀)
    (hr : Run (Step p) r₀ ts r) : r.roomData.master = creator ∧
      r.roomData.hasAudio = config.hasAudio ∧ r.roomData.hasVideo = config.hasVideo := by
  induction hr with
  | nil =>
    have hdata := congrArg RoomSpec.data (create_spec hc).2.1
    rw [show r₀.roomData = _ from hdata]
    exact ⟨rfl, rfl, rfl⟩
  | snoc hrun hs ih =>
    obtain ⟨ph, h⟩ := run_inPhase hc hrun
    obtain ⟨ph', -, hspec⟩ := refines h hs
    obtain ⟨hm, ha, hv⟩ := hspec.config
    exact ⟨hm.trans ih.1, ha.trans ih.2.1, hv.trans ih.2.2⟩

/-- In every run of a room that was created, only the creator's commands close the room or remove a
member, the creator is never removed by a KICK_OFF, and the master and the flags stay. -/
theorem room_authorized (hc : create p id creator config roomCapacity w = some r₀)
    (hr : Run (Step p) r₀ ts r) : ∀ t ∈ ts, Authorized p creator config t := by
  intro t ht
  obtain ⟨us, vs, rfl, hrun, hs⟩ := hr.mem ht
  obtain ⟨ph, h⟩ := run_inPhase hc hrun
  obtain ⟨ph', -, hspec⟩ := refines h hs
  have hmaster : t.before.roomData.master = creator := (run_config hc hrun).1
  obtain ⟨ham, haa, hav⟩ := run_config hc (hrun.snoc hs)
  have hprocesses : ∀ {pair rest}, t.label = .update → t.before.pending = pair :: rest →
      Processes t pair := fun hl hq => ⟨hl, by rw [hq]; rfl⟩
  have hremoves : ∀ id, Member t.before id → ¬ Member t.after id → ∃ pair, Processes t pair ∧
      Kicks p pair.cmd id ∧ pair.character.getId = creator.getId ∧ creator.getId ≠ id := by
    intro id hm hm'
    obtain ⟨hl, pair, rest, hq, hk, hkick⟩ := hspec.removes hm (Bool.eq_false_of_not_eq_true hm')
    obtain ⟨hsender, hnames, hne⟩ := RoomData.kicks_eq_some hkick
    have hdata : (t.before.toSpec ph).data.master = creator := hmaster
    rw [hdata] at hsender hne
    exact ⟨pair, hprocesses hl hq, ⟨hk, hnames⟩, hsender, hne⟩
  exact {
    closes := fun ho hclosed => by
      obtain ⟨hl, pair, rest, hq, hk, hsender⟩ := hspec.closes ho hclosed
      have hdata : (t.before.toSpec ph).data.master = creator := hmaster
      rw [hdata] at hsender
      exact ⟨pair, hprocesses hl hq, hk, hsender⟩
    closed := hspec.closed
    removes := fun id hm hm' => by
      obtain ⟨pair, hp, hk, hsender, -⟩ := hremoves id hm hm'
      exact ⟨pair, hp, .inl ⟨hk, hsender⟩⟩
    keepsCreator := fun pair _ _ hm => by
      by_contra hm'
      obtain ⟨-, -, -, -, hne⟩ := hremoves _ hm hm'
      exact hne rfl
    master := ham
    hasAudio := haa
    hasVideo := hav }

/-- The update in which alice closes her room. -/
theorem room_authorized_aliceRoom : ∃ t ∈ transitions .standard aliceRoom
    [.addCharacterCmd alice (Cmd.of CmdType.closeRoom []), .update],
    t.after.roomData.isClosed = true ∧ Authorized .standard alice ⟨true, true⟩ t :=
  ⟨_, .tail _ (.head _), by decide,
    room_authorized create_aliceRoom
      (run_transitions .standard [.addCharacterCmd alice (Cmd.of CmdType.closeRoom []), .update] _)
      _ (.tail _ (.head _))⟩

end RoomStateGroup

end WebRtcNetty
