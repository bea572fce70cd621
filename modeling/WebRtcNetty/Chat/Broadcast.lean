import WebRtcNetty.Chat.RoomFrames

/-!
# Telling several members

The loops that send one message to several characters (`RoomStateGroup.tellOthers`,
`RoomStateAdapter.broadCastData`) send it through the characters' sessions, one after another, until
a call of `send` fails (`Session.sendEach`). No call on the way changes whom the loop reaches.
-/

namespace WebRtcNetty

open Java Proto2 Command

/-! ## Sending through several sessions -/

/-- None of the next `n` calls of `send` fails. -/
def World.Sends (w : World) (n : Nat) : Prop := ∀ i < n, w.sendFails (w.sends + i) = false

/-- The sessions and characters after the object has gone through the sessions. -/
def World.sentTo (w : World) (ss : List SessionRef) (data : Data) : World :=
  { w with sends := w.sends + ss.length, sent := w.sent ++ ss.map (·, data) }

theorem World.Sends.zero (w : World) : w.Sends 0 := fun _ hi => absurd hi (Nat.not_lt_zero _)

/-- The first of the calls, and the rest. -/
theorem World.sends_succ {w : World} {n : Nat} (s : SessionRef) (data : Data) : w.Sends (n + 1) ↔
    w.sendFails w.sends = false ∧ (w.sentTo [s] data).Sends n := by
  constructor
  · intro h
    refine ⟨h 0 (Nat.succ_pos n), fun i hi => ?_⟩
    have := h (i + 1) (Nat.succ_lt_succ hi)
    rwa [Nat.add_comm i 1, ← Nat.add_assoc] at this
  · rintro ⟨h, hrest⟩ i hi
    cases i with
    | zero => exact h
    | succ i =>
      have := hrest i (Nat.lt_of_succ_lt_succ hi)
      rwa [Nat.add_comm i 1, ← Nat.add_assoc]

namespace Session

variable {data : Data} {ss : List SessionRef} {s : SessionRef} {w : World}

/-- A call of `send` that returns has sent the object. -/
theorem eq_of_send_ok {u : Unit} {w' : World} (h : Session.send s data w = .ok u w') :
    w' = w.sentTo [s] data := by
  cases hsend : w.sendFails w.sends with
  | false =>
    rw [Session.send_ok hsend] at h
    cases h
    rfl
  | true =>
    rw [Session.send_error hsend] at h
    cases h

/-- Sends the object through one session after another. -/
def sendEach (ss : List SessionRef) (data : Data) : Exec World Unit :=
  forEach ss fun s => Session.send s data

theorem sendEach_cons (h : w.sendFails w.sends = false) :
    sendEach (s :: ss) data w = sendEach ss data (w.sentTo [s] data) :=
  run_bind_ok (Session.send_ok h)

/-- The object goes through all the sessions when no call fails. -/
theorem sendEach_ok (h : w.Sends ss.length) : sendEach ss data w = .ok () (w.sentTo ss data) := by
  induction ss generalizing w with
  | nil =>
    rw [World.sentTo, List.map_nil, List.append_nil]
    rfl
  | cons s ss ih =>
    obtain ⟨hs, hss⟩ := (World.sends_succ s data).1 h
    rw [sendEach_cons hs, ih hss]
    simp only [World.sentTo, List.length_cons, List.length_nil, List.map_cons, List.map_nil,
      List.append_assoc, List.singleton_append, Nat.add_assoc, Nat.add_comm 1, Nat.zero_add]

/-- Otherwise it goes through the sessions before the call that fails. -/
theorem sendEach_error (data : Data) (h : ¬ w.Sends ss.length) : ∃ n < ss.length, w.Sends n ∧
    w.sendFails (w.sends + n) = true ∧ sendEach ss data w =
      .error ⟨"RuntimeException"⟩ { w.sentTo (ss.take n) data with sends := w.sends + n + 1 } := by
  induction ss generalizing w with
  | nil => exact absurd (World.Sends.zero w) h
  | cons s ss ih =>
    cases hs : w.sendFails w.sends with
    | true =>
      refine ⟨0, Nat.succ_pos _, .zero w, hs, ?_⟩
      rw [World.sentTo, List.take_zero, List.map_nil, List.append_nil]
      exact run_bind_error (Session.send_error hs)
    | false =>
      have hss : ¬ (w.sentTo [s] data).Sends ss.length := fun hss =>
        h ((World.sends_succ s data).2 ⟨hs, hss⟩)
      obtain ⟨n, hn, hsends, hfails, he⟩ := ih hss
      refine ⟨n + 1, Nat.succ_lt_succ hn, (World.sends_succ s data).2 ⟨hs, hsends⟩, ?_, ?_⟩
      · rwa [Nat.add_comm n 1, ← Nat.add_assoc]
      · rw [sendEach_cons hs, he]
        simp only [World.sentTo, List.take_succ_cons, List.map_cons, List.map_nil,
          List.append_assoc, List.singleton_append, List.length_cons, List.length_nil,
          Nat.add_assoc, Nat.zero_add, Nat.add_comm 1]

/-- Sending through the sessions returns exactly when no call fails. -/
theorem sendEach_returns_iff : Returns (sendEach ss data) w ↔ w.Sends ss.length := by
  constructor
  · rintro ⟨_, w', h⟩
    by_contra hn
    obtain ⟨n, -, -, -, he⟩ := sendEach_error data hn
    cases h.symm.trans he
  · intro h
    exact ⟨(), _, sendEach_ok h⟩

end Session

theorem Character.sendMsg_ok {c : Character} {data : Data} {w : World}
    (h : w.sendFails w.sends = false) :
    c.sendMsg data w = .ok () (w.sentTo [(w.chatters c).session] data) :=
  (run_bind_ok (run_get w)).trans (Session.send_ok h)

theorem Character.sendMsg_error {c : Character} {data : Data} {w : World}
    (h : w.sendFails w.sends = true) :
    c.sendMsg data w = .error ⟨"RuntimeException"⟩ { w with sends := w.sends + 1 } :=
  (run_bind_ok (run_get w)).trans (Session.send_error h)

/-- What a call that may fail adds to what has been sent. -/
theorem Character.sent_sendMsg (c : Character) (data : Data) (w : World) : ∃ more,
    (endState (c.sendMsg data) w).sent = w.sent ++ more ∧ ∀ x ∈ more, x.2 = data := by
  cases h : w.sendFails w.sends with
  | false =>
    rw [endState_ok (Character.sendMsg_ok h)]
    exact ⟨_, rfl, fun x hx => by rw [List.mem_singleton.1 hx]⟩
  | true =>
    rw [endState_error (Character.sendMsg_error h)]
    exact ⟨[], (List.append_nil _).symm, fun x hx => by cases hx⟩

/-! ## How a character is reached -/

/-- The channels, and how each character is reached by them. -/
def World.reach (w : World) : (SessionRef → Channel) × (Character → SessionRef × Bool) :=
  (w.channels, fun c => ((w.chatters c).session, (w.chatters c).isOnLine))

section
variable {p : Platform} {w w' : World} {c : Character} {cs : List Character} {data : Data}

theorem session_of_reach (h : w'.reach = w.reach) : (w'.chatters c).session =
    (w.chatters c).session :=
  congrArg Prod.fst (congrFun (congrArg Prod.snd h) c)

theorem sessions_of_reach (h : w'.reach = w.reach) (cs : List Character) :
    (cs.map fun c => (w'.chatters c).session) = cs.map fun c => (w.chatters c).session :=
  List.map_congr_left fun _ _ => session_of_reach h

theorem isOffLine_of_reach (h : w'.reach = w.reach) : c.isOffLine w' = c.isOffLine w := by
  have hchannels : w'.channels = w.channels := congrArg Prod.fst h
  have honLine : (w'.chatters c).isOnLine = (w.chatters c).isOnLine :=
    congrArg Prod.snd (congrFun (congrArg Prod.snd h) c)
  rw [Character.isOffLine, Character.isOffLine, Session.isAlive, Session.isAlive, hchannels,
    honLine, session_of_reach h]

theorem characterSet_of_reach (h : w'.reach = w.reach) (d : RoomData) :
    d.characterSet p w' = d.characterSet p w := by
  have hoff : (fun c : Character => !c.isOffLine w') = fun c => !c.isOffLine w :=
    funext fun c => by rw [isOffLine_of_reach h]
  rw [RoomData.characterSet, RoomData.characterSet, hoff]

/-- The character's new room does not change how it is reached. -/
theorem reach_setCurrentRoomId (c : Character) (roomId : BitVec 64) :
    Within (.keeping World.reach) (c.setCurrentRoomId roomId) := by
  refine .modify fun w => congrArg (Prod.mk w.channels) ?_
  have hsame := Function.apply_update (fun _ (f : Chatter) => (f.session, f.isOnLine)) w.chatters c
    { w.chatters c with currentRoomId := roomId }
  exact (funext hsame).trans (Function.update_eq_self c _)

theorem reach_reenter (c : Character) (roomId : BitVec 64) (w : World) : ∃ msg w',
    RoomStateGroup.reenter c roomId w = .ok msg w' ∧ w'.reach = w.reach ∧
      w'.sends = w.sends ∧ w'.sendFails = w.sendFails ∧ w'.sent = w.sent := by
  unfold RoomStateGroup.reenter
  rw [run_bind_ok (run_get w)]
  split
  · exact ⟨_, w, rfl, rfl, rfl, rfl, rfl⟩
  · exact ⟨_, _, rfl, reach_setCurrentRoomId c roomId w, rfl, rfl, rfl⟩

/-! ## The loops -/

/-- A loop that sends the message to some of the characters sends it through their sessions. -/
theorem forEach_sendMsg {f : Character → Exec World Unit} {told : Character → Bool}
    (h : ∀ c w', w'.reach = w.reach → f c w' = if told c then c.sendMsg data w' else .ok () w') :
    forEach cs f w =
      Session.sendEach ((cs.filter told).map fun c => (w.chatters c).session) data w := by
  induction cs generalizing w with
  | nil => rfl
  | cons c cs ih =>
    rw [forEach, run_bind, h c w rfl]
    cases htold : told c with
    | false =>
      rw [List.filter_cons_of_neg (by simp [htold])]
      exact ih h
    | true =>
      rw [List.filter_cons_of_pos htold, List.map_cons, Session.sendEach, forEach, run_bind]
      simp only [if_true, Character.sendMsg, run_bind_ok (run_get w)]
      cases hs : Session.send (w.chatters c).session data w with
      | error e w' => rfl
      | ok u w' =>
        have hw' : w' = w.sentTo [(w.chatters c).session] data := Session.eq_of_send_ok hs
        subst hw'
        exact ih h

/-- The others that are told of an entry: those on line with another id. -/
theorem tellOthers_eq (c : Character) (msg : PackageGroup) (others : List Character) (w : World) :
    RoomStateGroup.tellOthers c msg others w =
      Session.sendEach ((others.filter fun o => !o.isOffLine w && decide (c.getId ≠ o.getId)).map
        fun o => (w.chatters o).session) (.message msg) w := by
  refine forEach_sendMsg fun o w' hw' => ?_
  rw [run_bind_ok (run_get w'), isOffLine_of_reach hw']
  cases o.isOffLine w with
  | true => rfl
  | false =>
    by_cases hid : c.getId = o.getId
    · simp [hid]
    · simp [hid]

/-- A broadcast goes to the members that are online, but for those with the excluded id. -/
theorem broadCastData_eq (exclude : Option Character) (msg : PackageGroup) (m : RoomMem) :
    RoomStateAdapter.broadCastData p exclude msg m = RoomMem.inWorld (Session.sendEach
      (((m.roomData.characterSet p m.world).filter
        fun c => decide (exclude.map (·.getId) ≠ some c.getId)).map
          fun c => (m.world.chatters c).session) (.message msg)) m := by
  have hbody : (fun c : Character => if exclude.map (·.getId) = some c.getId then pure ()
      else RoomMem.inWorld (c.sendMsg (.message msg))) = fun c => RoomMem.inWorld
        (if exclude.map (·.getId) = some c.getId then pure () else c.sendMsg (.message msg)) := by
    funext c
    split
    · exact (zoom_pure ()).symm
    · rfl
  have hsend : forEach (m.roomData.characterSet p m.world) (fun c =>
      if exclude.map (·.getId) = some c.getId then pure () else c.sendMsg (.message msg)) m.world =
      Session.sendEach (((m.roomData.characterSet p m.world).filter
        fun c => decide (exclude.map (·.getId) ≠ some c.getId)).map
          fun c => (m.world.chatters c).session) (.message msg) m.world := by
    refine forEach_sendMsg fun c w' _ => ?_
    by_cases hid : exclude.map (·.getId) = some c.getId
    · simp [hid]
    · simp [hid]
  rw [RoomStateAdapter.broadCastData, run_bind_ok (run_get m)]
  simp only [hbody]
  have hzoom := congrFun (zoom_forEach (L := RoomMem.theWorld) (fun c : Character =>
    if exclude.map (·.getId) = some c.getId then pure () else c.sendMsg (.message msg))
    (m.roomData.characterSet p m.world)) m
  refine hzoom.symm.trans ?_
  rw [RoomMem.inWorld, zoom, zoom, RoomMem.theWorld_get, hsend]

end

/-! ## Who is told -/

/-- The command type and the code of a result, which is a group of one package. -/
def Data.result : Data → Option (BitVec 32 × BitVec 32)
  | .message g =>
    match g.val.1 with
    | [(some (some code, _), some cmdType, _)] => some (cmdType, code)
    | _ => none
  | .frame _ | .object _ => none

/-- The sessions that have been sent a result of the command with the code, from `w` to `w'`. -/
def World.toldBy (w w' : World) (cmdType code : BitVec 32) : List SessionRef :=
  ((w'.sent.drop w.sent.length).filter fun x => decide (x.2.result = some (cmdType, code))).map
    Prod.fst

theorem World.toldBy_of_sent {w w' : World} {more : List (SessionRef × Data)}
    (h : w'.sent = w.sent ++ more) (cmdType code : BitVec 32) : w.toldBy w' cmdType code =
      (more.filter fun x => decide (x.2.result = some (cmdType, code))).map Prod.fst := by
  rw [World.toldBy, h, List.drop_left]

/-- Who gets the result when it is sent through the sessions. -/
theorem filter_result {data : Data} {cmdType code : BitVec 32}
    (h : data.result = some (cmdType, code)) (ss : List SessionRef) :
    ((ss.map (·, data)).filter fun x => decide (x.2.result = some (cmdType, code))).map Prod.fst =
      ss := by
  have hall : ∀ x ∈ ss.map (·, data), decide (x.2.result = some (cmdType, code)) = true := by
    intro x hx
    obtain ⟨s, -, rfl⟩ := List.mem_map.1 hx
    exact decide_eq_true h
  rw [List.filter_eq_self.2 hall, List.map_map]
  exact List.map_id ss

/-- The members on line with another id than the character. -/
def RoomStateGroup.others (p : Platform) (w : World) (d : RoomData) (c : Character) :
    List Character :=
  (d.characterSet p w).filter fun o => decide (c.getId ≠ o.getId)

/-- An entry is told to the others, who are all online. -/
theorem tellOthers_characterSet (p : Platform) (c : Character) (msg : PackageGroup) (d : RoomData)
    (w : World) : RoomStateGroup.tellOthers c msg (d.characterSet p w) w =
      Session.sendEach ((RoomStateGroup.others p w d c).map fun o => (w.chatters o).session)
        (.message msg) w := by
  have honLine : ∀ o ∈ d.characterSet p w,
      (!o.isOffLine w && decide (c.getId ≠ o.getId)) = decide (c.getId ≠ o.getId) :=
    fun o ho => by rw [(RoomData.mem_characterSet.1 ho).2, Bool.not_false, Bool.true_and]
  rw [tellOthers_eq, List.filter_congr honLine, RoomStateGroup.others]

/-- A broadcast that leaves the character out goes to the others. -/
theorem broadCastData_others (p : Platform) (c : Character) (msg : PackageGroup) (m : RoomMem) :
    RoomStateAdapter.broadCastData p (some c) msg m = RoomMem.inWorld (Session.sendEach
      ((RoomStateGroup.others p m.world m.roomData c).map fun o => (m.world.chatters o).session)
        (.message msg)) m := by
  have hother : ∀ o ∈ m.roomData.characterSet p m.world,
      decide ((some c).map (·.getId) ≠ some o.getId) = decide (c.getId ≠ o.getId) :=
    fun o _ => by simp
  rw [broadCastData_eq, List.filter_congr hother, RoomStateGroup.others]

end WebRtcNetty
