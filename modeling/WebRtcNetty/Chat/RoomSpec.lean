import WebRtcNetty.Chat.RoomStateGroup

/-!
# What a room is

The purpose of a room, apart from sessions, replies and exceptions: it goes through four phases, it
has members, a master and a closed flag, and it handles the commands of its queue one after another.
`RoomSpec.Step` says what an entry, a command put in the queue and an update may do to it. Which
phase an update ends in is left open between staying and moving on, since it depends on whether the
replies can be sent; the data do not.
-/

namespace WebRtcNetty

open Java Proto2 Command

/-! ## Phases -/

/-- The phases of a room. -/
inductive Phase
  | waiting
  | chatting
  | finish
  | error
  deriving DecidableEq, Repr

namespace Phase

/-- The code of a phase's state. -/
def code : Phase → String
  | waiting => "waiting"
  | chatting => "chatting"
  | finish => "finish"
  | error => "ERROR"

/-- The phase after a phase. -/
def next : Phase → Option Phase
  | waiting => some chatting
  | chatting => some finish
  | finish => some error
  | error => none

theorem code_injective {a b : Phase} (h : a.code = b.code) : a = b := by
  revert h
  cases a <;> cases b <;> decide

end Phase

/-! ## What a command does to the data -/

namespace RoomData

/-- The id that a KICK_OFF of the character removes: the master's command has to name another id. -/
def kicks (p : Platform) (d : RoomData) (c : Character) (k : Cmd) : Option String :=
  if c.getId = d.master.getId then
    match UserCmd.kickOffCharacter.parseFrom k.getContent with
    | some m =>
      let id := UserCmd.KickOffCharacter.getCharacterId p m
      if d.master.getId = id then none else some id
    | none => none
  else
    none

/-- The data after a command: the master may close the room and remove another member. A LOGIN_OUT
removes nobody, since the reply that comes first cannot be built. -/
def afterCmd (p : Platform) (d : RoomData) (c : Character) (k : Cmd) : RoomData :=
  if k.getCmdType = CmdType.closeRoom then
    if c.getId = d.master.getId then d.close else d
  else if k.getCmdType = CmdType.kickOff then
    match d.kicks p c k with
    | some id => (d.removeCharacter id).2
    | none => d
  else
    d

/-- The data after a command in a phase. -/
def after (p : Platform) (d : RoomData) (phase : Phase) (c : Character) (k : Cmd) : RoomData :=
  match phase with
  | .error => d
  | .waiting | .chatting | .finish => d.afterCmd p c k

section
variable {p : Platform} {d : RoomData} {phase : Phase} {c : Character} {k : Cmd} {id : String}

/-- A KICK_OFF that removes an id is the master's, and names that id, which is not the master's. -/
theorem kicks_eq_some (h : d.kicks p c k = some id) : c.getId = d.master.getId ∧
    (∃ m, UserCmd.kickOffCharacter.parseFrom k.getContent = some m ∧
      UserCmd.KickOffCharacter.getCharacterId p m = id) ∧ d.master.getId ≠ id := by
  unfold kicks at h
  split at h
  · next hc =>
    cases hk : UserCmd.kickOffCharacter.parseFrom k.getContent with
    | none => rw [hk] at h; cases h
    | some m =>
      simp only [hk] at h
      split at h
      · cases h
      · next hne => cases h; exact ⟨hc, ⟨m, rfl, rfl⟩, hne⟩
  · cases h

theorem kicks_of_master (hc : c.getId = d.master.getId)
    (hk : ∃ m, UserCmd.kickOffCharacter.parseFrom k.getContent = some m ∧
      UserCmd.KickOffCharacter.getCharacterId p m = id) (hne : id ≠ d.master.getId) :
    d.kicks p c k = some id := by
  obtain ⟨m, hparse, hid⟩ := hk
  simp only [kicks, if_pos hc, hparse, hid, if_neg hne.symm]

/-- The three things that a command may do to the data. -/
theorem after_cases (p : Platform) (d : RoomData) (phase : Phase) (c : Character) (k : Cmd) :
    d.after p phase c k = d ∨
    (k.getCmdType = CmdType.closeRoom ∧ c.getId = d.master.getId ∧
      d.after p phase c k = d.close) ∨
    (∃ id, k.getCmdType = CmdType.kickOff ∧ d.kicks p c k = some id ∧
      d.after p phase c k = (d.removeCharacter id).2) := by
  have h : d.after p phase c k = d ∨ d.after p phase c k = d.afterCmd p c k := by
    cases phase with
    | error => exact .inl rfl
    | waiting => exact .inr rfl
    | chatting => exact .inr rfl
    | finish => exact .inr rfl
  rcases h with h | h
  · exact .inl h
  rw [h, afterCmd]
  split
  · next hk =>
    split
    · next hc => exact .inr (.inl ⟨hk, hc, rfl⟩)
    · exact .inl rfl
  split
  · next hk =>
    cases hkick : d.kicks p c k with
    | none => exact .inl rfl
    | some id => exact .inr (.inr ⟨id, hk, rfl, rfl⟩)
  · exact .inl rfl

/-- No command changes the master or the two flags the room was created with. -/
theorem after_config : (d.after p phase c k).master = d.master ∧
    (d.after p phase c k).hasAudio = d.hasAudio ∧ (d.after p phase c k).hasVideo = d.hasVideo := by
  rcases after_cases p d phase c k with
    h | ⟨-, -, h⟩ | ⟨id, -, -, h⟩
  all_goals rw [h]; exact ⟨rfl, rfl, rfl⟩

/-- A room is closed after a command when it was, or when the command is the master's CLOSE_ROOM. -/
theorem isClosed_after : (d.after p phase c k).isClosed = true ↔ d.isClosed = true ∨
    phase ≠ .error ∧ k.getCmdType = CmdType.closeRoom ∧ c.getId = d.master.getId := by
  constructor
  · intro h
    cases phase with
    | error => exact .inl h
    | _ =>
      rcases after_cases p d _ c k with he | ⟨hk, hc, -⟩ | ⟨id, -, -, he⟩
      · rw [he] at h; exact .inl h
      · exact .inr ⟨by decide, hk, hc⟩
      · rw [he] at h; exact .inl h
  · rintro (h | ⟨hne, hk, hc⟩)
    · rcases after_cases p d phase c k with
        he | ⟨-, -, he⟩ | ⟨id, -, -, he⟩
      · rw [he]; exact h
      · rw [he]; rfl
      · rw [he]; exact h
    · have he : d.after p phase c k = d.close := by
        cases phase with
        | error => exact absurd rfl hne
        | _ => simp only [after, afterCmd, if_pos hk, if_pos hc]
      rw [he]
      rfl

/-- A member that a command removes is not the master, and is named by the master's KICK_OFF. -/
theorem containsKey_after (h : d.characterMap.containsKey id = true)
    (h' : (d.after p phase c k).characterMap.containsKey id = false) :
    k.getCmdType = CmdType.kickOff ∧ d.kicks p c k = some id := by
  rcases after_cases p d phase c k with
    he | ⟨-, -, he⟩ | ⟨id', hk, hkick, he⟩
  · rw [he, h] at h'; cases h'
  · rw [he] at h'; exact absurd (h.symm.trans h') (by decide)
  · refine ⟨hk, ?_⟩
    rw [he] at h'
    by_cases hid : id = id'
    · rw [hid, hkick]
    · have hget : (d.removeCharacter id').2.characterMap.get id = d.characterMap.get id :=
        HashMap.get_remove_ne hid
      rw [HashMap.containsKey, hget] at h'
      exact absurd (h.symm.trans h') (by decide)

end

end RoomData

/-! ## Steps -/

/-- A room as its users see it. `handled` is the history of the pairs handled, oldest first, each
with the code of the phase it was handled in. -/
structure RoomSpec where
  phase : Phase
  data : RoomData
  capacity : Int
  handled : List (String × CharacterCmdPair Character Cmd)
  pending : List (CharacterCmdPair Character Cmd)

namespace RoomSpec

/-- Three quarters of the capacity are taken. -/
def isFull (s : RoomSpec) : Bool := 3 * s.capacity ≤ 4 * (s.data.characterSize : Int)

/-- What may happen to a room. -/
inductive Step (p : Platform) : RoomSpec → RoomStateGroup.Op → RoomSpec → Prop
  /-- A character becomes a member unless the room is full. -/
  | enter (s : RoomSpec) (c : Character) : Step p s (.enter c)
      { s with data := if s.isFull then s.data else s.data.addCharacter c }
  /-- A command is put in the queue unless 1000 are pending. -/
  | addCharacterCmd (s : RoomSpec) (c : Character) (k : Cmd) : Step p s (.addCharacterCmd c k)
      { s with pending := s.pending ++ if s.pending.length < 1000 then [⟨c, k⟩] else [] }
  /-- An update of a room with an empty queue does nothing. -/
  | idle {s : RoomSpec} : s.pending = [] → Step p s .update s
  /-- Any other update handles the oldest pair, and then stays in its phase or moves on. -/
  | handle {s : RoomSpec} {pair : CharacterCmdPair Character Cmd}
      {rest : List (CharacterCmdPair Character Cmd)} {phase : Phase} :
      s.pending = pair :: rest → phase = s.phase ∨ s.phase.next = some phase →
      Step p s .update { s with
        phase := phase
        data := s.data.after p s.phase pair.character pair.cmd
        handled := s.handled ++ [(s.phase.code, pair)]
        pending := rest }
  /-- What happens elsewhere does not concern the room. -/
  | environment (s : RoomSpec) (w : World) : Step p s (.environment w) s

/-- Only an update changes the phase or handles a pair. -/
theorem Step.of_ne_update {p : Platform} {s s' : RoomSpec} {op : RoomStateGroup.Op}
    (h : Step p s op s') (hop : op ≠ .update) : s'.phase = s.phase ∧ s'.handled = s.handled := by
  cases h with
  | enter c => exact ⟨rfl, rfl⟩
  | addCharacterCmd c k => exact ⟨rfl, rfl⟩
  | idle hq => exact absurd rfl hop
  | handle hq hphase => exact absurd rfl hop
  | environment w => exact ⟨rfl, rfl⟩

end RoomSpec

end WebRtcNetty
