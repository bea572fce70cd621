import WebRtcNetty.Chat.RoomAuthority
import WebRtcNetty.Chat.RoomQueue
import WebRtcNetty.Chat.Waiting
import WebRtcNetty.Server.RoomRuns

/-!
# The server's account of its rooms

What has passed through a room's queue in a run of the server is what its sessions have sent it, in
the order of sending (`run_deposits`), and a command that waits in it waits for its turn alone
(`run_waits`). So whatever has been done to a room can be traced back to what was sent: a room is
closed, or loses a member, only after its creator has sent it the command for that, while being
routed to the room (`run_accounted`).
-/

namespace WebRtcNetty

open Java Proto2 Command Runs Server

/-- A member that a step adds enters in it. -/
theorem RoomSpec.Step.adds {p : Platform} {s s' : RoomSpec} {op : RoomStateGroup.Op} {id : String}
    (h : RoomSpec.Step p s op s') (hm : ¬ s.data.characterMap.containsKey id = true)
    (hm' : s'.data.characterMap.containsKey id = true) : ∃ c, op = .enter c ∧ c.getId = id := by
  cases h with
  | enter c =>
    refine ⟨c, rfl, ?_⟩
    by_contra hne
    dsimp only at hm'
    split at hm'
    · exact hm hm'
    · refine hm ?_
      rw [RoomData.addCharacter, HashMap.containsKey, HashMap.get_put_ne _ (Ne.symm hne)] at hm'
      exact hm'
  | addCharacterCmd c k => exact absurd hm' hm
  | idle hq => exact absurd hm' hm
  | @handle pair rest ph hq hphase =>
    obtain ⟨c, hc⟩ := Option.isSome_iff_exists.1 hm'
    exact absurd (Option.isSome_iff_exists.2 ⟨c, RoomData.member_after hc⟩) hm
  | environment w => exact absurd hm' hm

namespace Routing

/-! ## What is sent to a room -/

/-- The pair that the step offers to the queue of the room. -/
def offer (r : RoomRef) (t : Transition Server Op) : Option (CharacterCmdPair Character Cmd) :=
  match t.label.onRoom r t.before with
  | some (.addCharacterCmd c k) => some ⟨c, k⟩
  | some (.enter _) | some .update | some (.environment _) | none => none

/-- The pair that the step puts in the queue of the room, unless it is full. -/
def deposit (r : RoomRef) (t : Transition Server Op) : Option (CharacterCmdPair Character Cmd) :=
  if ((Server.room r).get t.before).pending.length < 1000 then offer r t else none

/-- The pairs that a run puts in the queue of the room, in order. -/
def deposits (r : RoomRef) (ts : List (Transition Server Op)) :
    List (CharacterCmdPair Character Cmd) :=
  ts.filterMap (deposit r)

/-- The pairs that the room's states have been handed, and then those still pending. -/
def ledger (s : Server) (r : RoomRef) : List (CharacterCmdPair Character Cmd) :=
  ((Server.room r).get s).handled.map (·.2) ++ ((Server.room r).get s).pending

section
variable {p : Platform} {s s' : Server} {r : RoomRef} {op : Op} {t : Transition Server Op}

/-- A room is updated by a worker. -/
theorem eq_update_of_onRoom (h : op.onRoom r s = some .update) :
    op = .background (.update r) := by
  unfold Op.onRoom at h
  split at h
  · split at h <;> cases h
  · split at h
    · split at h <;> cases h
    · cases h
  · split at h
    · next hsame => rw [hsame.1]
    · cases h
  all_goals cases h

/-- A character enters in a step of its own. -/
theorem eq_enter_of_onRoom {c : Character} (h : op.onRoom r s = some (.enter c)) :
    op = .enter c r := by
  unfold Op.onRoom at h
  split at h
  · split at h
    · next hsame => cases h; rw [hsame.1]
    · cases h
  · split at h
    · split at h <;> cases h
    · cases h
  · split at h <;> cases h
  all_goals cases h

/-- What is offered to a queue is a command that no other handler takes, of a character that is
routed there. -/
theorem eq_other_of_onRoom {c : Character} {k : Cmd}
    (h : op.onRoom r s = some (.addCharacterCmd c k)) :
    ∃ session, op = .other session k ∧ WebChatDispatcher.route s session = some (c, r) := by
  unfold Op.onRoom at h
  split at h
  · split at h <;> cases h
  · next session cmd =>
    split at h
    · next c' r' hroute =>
      split at h
      · next hsame => cases h; exact ⟨session, rfl, hsame ▸ hroute⟩
      · cases h
    · cases h
  · split at h <;> cases h
  all_goals cases h

theorem offer_eq_some {pair : CharacterCmdPair Character Cmd} (h : offer r t = some pair) :
    ∃ session, t.label = .other session pair.cmd ∧
      WebChatDispatcher.route t.before session = some (pair.character, r) := by
  unfold offer at h
  split at h
  · next c k hop => cases h; exact eq_other_of_onRoom hop
  all_goals cases h

/-- What is put in the queue has been sent in the step, by a character that was routed there. -/
theorem deposit_eq_some {pair : CharacterCmdPair Character Cmd} (h : deposit r t = some pair) :
    ∃ session, t.label = .other session pair.cmd ∧
      WebChatDispatcher.route t.before session = some (pair.character, r) := by
  unfold deposit at h
  split at h
  · exact offer_eq_some h
  · cases h

/-- What is called on the room accepts what the step puts in its queue. -/
theorem deposit_toList (op : Op) (ph : Phase) :
    (deposit r ⟨s, op, s'⟩).toList = match op.onRoom r s with
      | some op' => (((Server.room r).get s).toSpec ph).accepts op'
      | none => [] := by
  unfold deposit offer
  dsimp only
  cases op.onRoom r s with
  | none => rw [ite_self]; rfl
  | some op' =>
    cases op' with
    | addCharacterCmd c k => exact apply_ite Option.toList _ _ _
    | enter c => dsimp only; rw [ite_self]; rfl
    | update => dsimp only; rw [ite_self]; rfl
    | environment w => dsimp only; rw [ite_self]; rfl

/-- What a step does to a room, as the room's specification has it. -/
theorem spec_step (hwf : s.WellFormed p) (hs : Step p s op s') (hr : r < s.roomCount) :
    match op.onRoom r s with
    | some op' => ∃ ph ph', ((Server.room r).get s).InPhase p ph ∧
        ((Server.room r).get s').InPhase p ph' ∧
        RoomSpec.Step p (((Server.room r).get s).toSpec ph) op'
          (((Server.room r).get s').toSpec ph')
    | none => s'.rooms r = s.rooms r := by
  obtain ⟨ph, hph⟩ := hwf.inPhase r hr
  have hdoes := does_step hs hr
  cases hop : op.onRoom r s with
  | none =>
    rw [hop] at hdoes
    exact hdoes
  | some op' =>
    rw [hop] at hdoes
    obtain ⟨ph', hph', hspec⟩ := refines hph hdoes
    exact ⟨ph, ph', hph, hph', hspec⟩

/-- A step appends to the ledger of a room what it puts in its queue. -/
theorem ledger_step (hwf : s.WellFormed p) (hs : Step p s op s') (hr : r < s.roomCount) :
    ledger s' r = ledger s r ++ (deposit r ⟨s, op, s'⟩).toList := by
  have hspec := spec_step hwf hs hr
  cases hop : op.onRoom r s with
  | none =>
    rw [hop] at hspec
    have hsame : ledger s' r = ledger s r :=
      congrArg (fun o : RoomObject => o.handled.map (·.2) ++ o.group.cmdQueue.items) hspec
    rw [deposit_toList op .waiting, hop, List.append_nil, hsame]
  | some op' =>
    rw [hop] at hspec
    obtain ⟨ph, ph', -, -, hspec⟩ := hspec
    rw [deposit_toList op ph, hop]
    exact hspec.ledger

/-- A room that there is not yet is sent nothing. -/
theorem deposit_of_not_lt (hwf : s.WellFormed p) (hr : ¬ r < s.roomCount) (op : Op) :
    deposit r ⟨s, op, s'⟩ = none := by
  rw [← Option.toList_eq_nil_iff, deposit_toList op .waiting, onRoom_of_not_lt hwf hr]

theorem deposits_append (us vs : List (Transition Server Op)) :
    deposits r (us ++ vs) = deposits r us ++ deposits r vs :=
  List.filterMap_append

theorem deposits_singleton : deposits r [t] = (deposit r t).toList := by
  rw [deposits, List.filterMap_cons]
  cases deposit r t with
  | none => rfl
  | some pair => rfl

end

/-! ## Runs -/

section
variable {p : Platform} {remoteAddress : SessionRef → Option String} {sendFails : Nat → Bool}
variable {roomCapacity : Int} {m : WorkerManager RoomRef} {ts us vs : List (Transition Server Op)}
variable {s s' : Server} {r : RoomRef} {t : Transition Server Op}

/-- What holds of no room in a run is nothing that has been sent to one. -/
theorem deposits_of_run
    (hr : Run (Step p) (initial (.initial remoteAddress sendFails) roomCapacity m) ts s)
    (hnot : ¬ r < s.roomCount) : deposits r ts = [] := by
  induction hr with
  | nil => rfl
  | @snoc ts s₁ s₂ op hrun hs ih =>
    have hnot₁ : ¬ r < s₁.roomCount := fun h => hnot (h.trans_le (numbering_step hs).1)
    rw [deposits_append, ih hnot₁, deposits_singleton,
      deposit_of_not_lt (run_wellFormed hrun) hnot₁]
    rfl

/-- In every run of the server, what the states of a room have been handed, and then what is pending
there, is what the sessions have sent the room while its queue was not full, in this order. -/
theorem run_deposits
    (hr : Run (Step p) (initial (.initial remoteAddress sendFails) roomCapacity m) ts s)
    (hlt : r < s.roomCount) : ledger s r = deposits r ts := by
  induction hr with
  | nil => exact absurd hlt (Nat.not_lt_zero r)
  | @snoc ts s₁ s₂ op hrun hs ih =>
    have hwf := run_wellFormed hrun
    rw [deposits_append, deposits_singleton]
    by_cases hold : r < s₁.roomCount
    · rw [ledger_step hwf hs hold, ih hold]
    · obtain ⟨creator, r₀, hcreates⟩ := creates_step hs hold hlt
      have hroom := hcreates.built.2.2
      obtain ⟨_, _, _, -, -, -, hc, -⟩ := hcreates
      have hledger : ledger s₂ r = [] := by
        rw [ledger, hroom]
        exact congrArg RoomSpec.ledger (create_spec hc).2.1
      rw [hledger, deposits_of_run hrun hold, deposit_of_not_lt hwf hold]
      rfl

/-! ## How long a command waits -/

/-- What happens to the rest of the server makes no command wait longer: in every run that goes on
from a reachable state, a pair at position `i` of a room's queue moves forward by one in each update
of the room, and is the one handed over in the update after the first `i`. -/
theorem run_waits
    (hr : Run (Step p) (initial (.initial remoteAddress sendFails) roomCapacity m) ts s)
    (hlt : r < s.roomCount) {i : Nat} {pair : CharacterCmdPair Character Cmd}
    (hi : ((Server.room r).get s).pending[i]? = some pair) (hr' : Run (Step p) s vs s') :
    RoomStateGroup.Waits ((Server.room r).get s) i pair (RoomStateGroup.updates (onRoom r vs))
      ((Server.room r).get s') := by
  obtain ⟨ph, hph⟩ := (run_wellFormed hr).inPhase r hlt
  obtain ⟨ws, hws, hcalls⟩ := run_onRoom hr' hlt
  rw [← hcalls]
  exact RoomStateGroup.waits_of_run hph hws hi

/-! ## Who has done what to a room -/

/-- The character has made the room. -/
def Creator (p : Platform) (ts : List (Transition Server Op)) (r : RoomRef) (c : Character) :
    Prop :=
  ∃ t ∈ ts, ∃ r₀, Creates p c r r₀ t

/-- The character's session has sent the command, the character being routed to the room. -/
def Sent (ts : List (Transition Server Op)) (r : RoomRef) (c : Character) (cmd : Cmd) : Prop :=
  ∃ t ∈ ts, ∃ session, t.label = .other session cmd ∧
    WebChatDispatcher.route t.before session = some (c, r)

/-- What has to have been before a step changes the room that a character has made. -/
structure Accounted (p : Platform) (us : List (Transition Server Op)) (t : Transition Server Op)
    (r : RoomRef) (creator : Character) : Prop where
  closes : ((Server.room r).get t.before).roomData.isClosed = false →
    ((Server.room r).get t.after).roomData.isClosed = true →
    t.label = .background (.update r) ∧ ∃ c cmd, Sent us r c cmd ∧ c.getId = creator.getId ∧
      cmd.getCmdType = CmdType.closeRoom
  closed : ((Server.room r).get t.before).roomData.isClosed = true →
    ((Server.room r).get t.after).roomData.isClosed = true
  removes : ∀ id, RoomStateGroup.Member ((Server.room r).get t.before) id →
    ¬ RoomStateGroup.Member ((Server.room r).get t.after) id →
    t.label = .background (.update r) ∧ id ≠ creator.getId ∧
      ∃ c cmd, Sent us r c cmd ∧ c.getId = creator.getId ∧ RoomStateGroup.Kicks p cmd id
  adds : ∀ id, ¬ RoomStateGroup.Member ((Server.room r).get t.before) id →
    RoomStateGroup.Member ((Server.room r).get t.after) id →
    ∃ c, t.label = .enter c r ∧ c.getId = id

/-- What is pending in a room has been sent to it. -/
theorem sent_of_pending
    (hr : Run (Step p) (initial (.initial remoteAddress sendFails) roomCapacity m) ts s)
    (hlt : r < s.roomCount) {pair : CharacterCmdPair Character Cmd}
    {rest : List (CharacterCmdPair Character Cmd)}
    (hq : ((Server.room r).get s).pending = pair :: rest) : Sent ts r pair.character pair.cmd := by
  have hmem : pair ∈ deposits r ts := by
    rw [← run_deposits hr hlt, ledger, hq]
    simp
  obtain ⟨t, ht, hdeposit⟩ := List.mem_filterMap.1 hmem
  obtain ⟨session, hl, hroute⟩ := deposit_eq_some hdeposit
  exact ⟨t, ht, session, hl, hroute⟩

/-- The master of a room is the character that has made it. -/
theorem run_master
    (hr : Run (Step p) (initial (.initial remoteAddress sendFails) roomCapacity m) ts s) :
    ∀ creator, Creator p ts r creator →
      r < s.roomCount ∧ ((Server.room r).get s).roomData.master = creator := by
  induction hr with
  | nil =>
    rintro creator ⟨t, ht, -⟩
    cases ht
  | @snoc ts s₁ s₂ op hrun hs ih =>
    rintro creator ⟨t, ht, r₀, hcreates⟩
    rcases List.mem_append.1 ht with ht | ht
    · obtain ⟨hlt, hmaster⟩ := ih creator ⟨t, ht, r₀, hcreates⟩
      refine ⟨hlt.trans_le (numbering_step hs).1, ?_⟩
      have hspec := spec_step (run_wellFormed hrun) hs hlt
      cases hop : op.onRoom r s₁ with
      | none =>
        rw [hop] at hspec
        exact (congrArg (fun o : RoomObject => o.roomData.master) hspec).trans hmaster
      | some op' =>
        rw [hop] at hspec
        obtain ⟨ph, ph', -, -, hspec⟩ := hspec
        exact hspec.config.1.trans hmaster
    · cases List.mem_singleton.1 ht
      obtain ⟨-, hlt, hroom⟩ := hcreates.built
      obtain ⟨_, _, _, -, -, -, hc, -⟩ := hcreates
      refine ⟨hlt, ?_⟩
      rw [hroom]
      exact congrArg (fun spec => spec.data.master) (create_spec hc).2.1

/-- In every run of the server: a room is closed, or loses a member, only by an update, after the
character that has made it has sent it the CLOSE_ROOM, or a KICK_OFF that names the member, being
routed to it then; the creator itself is not removed; a closed room stays closed; and nobody becomes
a member but by entering. -/
theorem run_accounted
    (hr : Run (Step p) (initial (.initial remoteAddress sendFails) roomCapacity m) ts s) :
    ∀ us t vs, ts = us ++ t :: vs → ∀ r creator, Creator p us r creator →
      Accounted p us t r creator := by
  rintro us t vs rfl r creator hcreator
  obtain ⟨hbefore, hs, -⟩ := hr.split
  obtain ⟨hlt, rfl⟩ := run_master hbefore creator hcreator
  have hspec := spec_step (run_wellFormed hbefore) hs hlt
  cases hop : t.label.onRoom r t.before with
  | none =>
    rw [hop] at hspec
    have hsame : ((Server.room r).get t.after).roomData =
        ((Server.room r).get t.before).roomData :=
      congrArg (fun o : RoomObject => o.roomData) hspec
    refine ⟨fun h h' => ?_, fun h => hsame ▸ h, fun id h h' => ?_, fun id h h' => ?_⟩
    · rw [hsame, h] at h'
      cases h'
    · rw [RoomStateGroup.Member, hsame] at h'
      exact absurd h h'
    · rw [RoomStateGroup.Member, hsame] at h'
      exact absurd h' h
  | some op' =>
    rw [hop] at hspec
    obtain ⟨ph, ph', -, -, hspec⟩ := hspec
    refine ⟨fun h h' => ?_, hspec.closed, fun id h h' => ?_, fun id h h' => ?_⟩
    · obtain ⟨rfl, pair, rest, hq, hk, hc⟩ := hspec.closes h h'
      exact ⟨eq_update_of_onRoom hop, _, _, sent_of_pending hbefore hlt hq, hc, hk⟩
    · obtain ⟨rfl, pair, rest, hq, hk, hkick⟩ := hspec.removes h (eq_false_of_ne_true h')
      obtain ⟨hc, hnames, hne⟩ := RoomData.kicks_eq_some hkick
      exact ⟨eq_update_of_onRoom hop, Ne.symm hne, _, _, sent_of_pending hbefore hlt hq, hc, hk,
        hnames⟩
    · obtain ⟨c, rfl, hc⟩ := hspec.adds h h'
      exact ⟨c, eq_enter_of_onRoom hop, hc⟩

end

/-! ## Alice's room -/

/-- Alice enters the room that she has created, closes it, and the room is updated. -/
def closesOwn : List Op :=
  entersOwn ++ [.other 0 (Cmd.of CmdType.closeRoom []), .background (.update 0)]

/-- The room has been handed her command. -/
theorem run_deposits_alice : ∃ s,
    Run (Step .standard) start (transitions .standard start closesOwn) s ∧
      ((Server.room 0).get s).pending = [] ∧
      ledger s 0 = deposits 0 (transitions .standard start closesOwn) := by
  have hr := run_transitions .standard closesOwn start
  exact ⟨_, hr, by rfl, run_deposits hr (by decide +kernel)⟩

/-- It was the first in the queue, and the update has handed it over. -/
theorem run_waits_alice : ∃ (s s' : Server) (pair : CharacterCmdPair Character Cmd),
    ((Server.room 0).get s).pending[0]? = some pair ∧
      (((Server.room 0).get s').handled.map (·.2))[0]? = some pair := by
  have hr := run_transitions .standard (closesOwn.take 5) start
  have hr' := run_transitions .standard [.background (.update 0)]
    ((closesOwn.take 5).foldl (fun s op => endState (op.run .standard) s) start)
  have hi : ((Server.room 0).get ((closesOwn.take 5).foldl
      (fun s op => endState (op.run .standard) s) start)).pending[0]? =
        some ⟨⟨0, "alice", none⟩, Cmd.of CmdType.closeRoom []⟩ := by rfl
  exact ⟨_, _, _, hi, (run_waits hr (by decide +kernel) hi hr').handled Nat.one_pos⟩

/-- The room is closed, and that is accounted for. -/
theorem run_accounted_alice : ∃ us t creator, Run (Step .standard) start (us ++ [t]) t.after ∧
    ((Server.room 0).get t.before).roomData.isClosed = false ∧
    ((Server.room 0).get t.after).roomData.isClosed = true ∧
    Accounted .standard us t 0 creator := by
  have hr := run_transitions .standard closesOwn start
  have hbefore := run_transitions .standard (closesOwn.take 5) start
  obtain ⟨us, t, vs, creator, r₀, hts, hcreates⟩ :=
    exists_creation hbefore (r := 0) (by decide +kernel)
  have hcreator : Creator .standard (transitions .standard start (closesOwn.take 5)) 0 creator :=
    ⟨t, by rw [hts]; simp, r₀, hcreates⟩
  exact ⟨_, _, creator, hr, by rfl, by rfl,
    run_accounted hr _ _ [] (by rfl) 0 creator hcreator⟩

end Routing

end WebRtcNetty
