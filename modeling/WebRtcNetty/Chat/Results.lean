import WebRtcNetty.Chat.CmdUtil

/-!
# Which results can be built

The builders of `CmdUtil` that take a result code and a message owe their caller a package group of
one package that carries both, and whose content, if there is one, is a result message of the
command (`ResultCall.Faithful`). `faithful_iff` says exactly which calls do: a logout result lacks a
required field, as does every result of CREATE_ROOM but that for the code `OK`, and the result for
an unsupported command has a code and a message of its own.
-/

namespace WebRtcNetty

open Java Proto2 Command

/-! ## Snapshots -/

/-- The address of a character that is listed in a snapshot is known. -/
def Character.Addressed (w : World) (c : Character) : Prop :=
  isNullOrEmpty c.getId = false → (w.channels (w.chatters c).session).remoteAddress ≠ none

/-- The addresses of the members that are online are known. -/
def RoomData.Addressed (p : Platform) (w : World) (d : RoomData) : Prop :=
  ∀ c ∈ d.characterSet p w, c.Addressed w

/-- What a snapshot lists of a character. One without an id or an address is left out. -/
def Character.entry (w : World) (c : Character) : Option Entity.character.Val :=
  let address := (w.channels (w.chatters c).session).remoteAddress
  if isNullOrEmpty c.getId || isNullOrEmpty address then
    none
  else
    some (some (utf8Bytes c.getId),
      if isNullOrEmpty c.getNickName then none else c.getNickName.map utf8Bytes,
      address.map utf8Bytes, ())

/-- The snapshot of a room's data. -/
def RoomData.snapshot (p : Platform) (w : World) (d : RoomData) : Entity.roomData.Val :=
  (none, some d.isClosed, some d.hasAudio, some d.hasVideo, some (utf8Bytes d.master.getId),
    (d.characterSet p w).filterMap (Character.entry w), ())

namespace CmdUtil

section
variable {p : Platform} {w w' : World} {c : Character} {cs : List Character} {d : RoomData}

/-- A character with a known address has its entry, or is left out. -/
theorem character_ok (h : c.Addressed w) : character c w = .ok (c.entry w) w := by
  unfold character Character.entry
  cases hid : isNullOrEmpty c.getId with
  | true =>
    simp only [Bool.true_or, if_true]
    rfl
  | false =>
    obtain ⟨address, haddress⟩ := Option.ne_none_iff_exists'.1 (h hid)
    have hget : c.getRemoteAddress w = .ok address w := by
      simp only [Character.getRemoteAddress, Session.getRemoteAddress, run_bind, run_get, haddress]
      rfl
    simp only [Bool.false_eq_true, if_false, run_bind_ok hget, Bool.false_or, haddress]
    split
    · rfl
    · rfl

/-- A character whose address is not known has none. -/
theorem addressed_of_character {entry : Option Entity.character.Val}
    (h : character c w = .ok entry w') : c.Addressed w := by
  intro hid haddress
  have hget : c.getRemoteAddress w = .error ⟨"NullPointerException"⟩ w := by
    simp only [Character.getRemoteAddress, Session.getRemoteAddress, run_bind, run_get, haddress]
    rfl
  unfold character at h
  simp only [hid, Bool.false_eq_true, if_false, run_bind_error hget] at h
  cases h

theorem characters_ok (h : ∀ c ∈ cs, c.Addressed w) :
    characters cs w = .ok (cs.filterMap (Character.entry w)) w := by
  induction cs with
  | nil => rfl
  | cons c cs ih =>
    have hentries := ih fun c hc => h c (.tail _ hc)
    rw [characters, run_bind_ok (character_ok (h c (.head _))), run_bind_ok hentries, run_pure,
      List.filterMap_cons]
    cases c.entry w with
    | none => rfl
    | some entry => rfl

theorem addressed_of_characters {entries : List Entity.character.Val}
    (h : characters cs w = .ok entries w') : ∀ c ∈ cs, c.Addressed w := by
  induction cs generalizing entries w' with
  | nil => intro c hc; cases hc
  | cons c cs ih =>
    obtain ⟨entry, w₁, hentry, h⟩ := bind_eq_ok h
    have hc := addressed_of_character hentry
    cases hentry.symm.trans (character_ok hc)
    obtain ⟨rest, w₂, hrest, -⟩ := bind_eq_ok h
    intro c' hc'
    rcases List.mem_cons.1 hc' with rfl | hc'
    · exact hc
    · exact ih hrest c' hc'

/-- The snapshot of a room whose members' addresses are known. -/
theorem roomSnapshot_ok (h : d.Addressed p w) :
    roomSnapshot p d w = .ok (d.snapshot p w) w := by
  rw [roomSnapshot, run_bind_ok (run_get w), run_bind_ok (characters_ok h)]
  rfl

theorem addressed_of_roomSnapshot {snapshot : Entity.roomData.Val}
    (h : roomSnapshot p d w = .ok snapshot w') : d.Addressed p w := by
  rw [roomSnapshot, run_bind_ok (run_get w)] at h
  obtain ⟨entries, w₁, hentries, -⟩ := bind_eq_ok h
  exact addressed_of_characters hentries

/-! ## Building -/

theorem build_ok {fs : Fields} {v : fs.Val} (h : fs.isInitialized v = true) :
    build fs v = .ok ⟨v, h⟩ := by
  rw [build, Fields.build_ok h]

theorem build_error {fs : Fields} {v : fs.Val} (h : fs.isInitialized v = false) :
    build fs v = .error ⟨"UninitializedMessageException"⟩ := by
  have hnot : ¬ fs.isInitialized v = true := by rw [h]; exact Bool.false_ne_true
  rw [build, Fields.build, dif_neg hnot]

/-- A group of one package, with a message of the given type as its content. -/
def resultOf (fs : Fields) (cmdType resultCode : BitVec 32) (msg : Option String) (v : fs.Val) :
    PackageGroup :=
  packageGroup [pkg resultCode msg cmdType (fs.toByteArray v)]

/-- A result without fields is built where no field is required. -/
theorem emptyResult_ok {fs : Fields} (h : fs.isInitialized fs.newBuilder = true)
    (cmdType code : BitVec 32) (msg : Option String) :
    emptyResult fs cmdType code msg = .ok (resultOf fs cmdType code msg fs.newBuilder) := by
  rw [emptyResult, build_ok h]
  rfl

variable {code : BitVec 32} {msg : Option String} {roomId : BitVec 64} {data : Option RoomData}

/-- The snapshots in results are of rooms whose members' addresses are known. -/
theorem enterRoomResult_ok (h : ∀ d, data = some d → d.Addressed p w) :
    enterRoomResult p code msg roomId data w = .ok (resultOf UserCmd.enterRoomResult
      CmdType.enterRoom code msg (some roomId, data.map (RoomData.snapshot p w), ())) w := by
  have hbuild : ∀ snapshot, build UserCmd.enterRoomResult (some roomId, snapshot, ()) = _ :=
    fun snapshot => build_ok (Fields.isInitialized_of_allOptional (by decide) _)
  unfold enterRoomResult
  cases data with
  | none => rfl
  | some d =>
    simp only [run_bind, roomSnapshot_ok (h d rfl), run_pure, hbuild]
    rfl

theorem addressed_of_enterRoomResult {g : PackageGroup}
    (h : enterRoomResult p code msg roomId data w = .ok g w') :
    ∀ d, data = some d → d.Addressed p w := by
  rintro d rfl
  obtain ⟨snapshot, w₁, hsnapshot, -⟩ := bind_eq_ok h
  exact addressed_of_roomSnapshot hsnapshot

theorem createRoomResult_isInitialized (roomId : BitVec 64)
    (snapshot : Option Entity.roomData.Val) :
    UserCmd.createRoomResult.isInitialized (some roomId, snapshot, ()) = true := by
  cases snapshot with
  | none => rfl
  | some v => simp [Fields.isInitialized, FieldType.isInitialized]

theorem createRoomResult_ok (hcode : code = ResultCode.ok)
    (h : ∀ d, data = some d → d.Addressed p w) :
    createRoomResult p code msg roomId data w = .ok (resultOf UserCmd.createRoomResult
      CmdType.createRoom code msg (some roomId, data.map (RoomData.snapshot p w), ())) w := by
  unfold createRoomResult
  simp only [hcode, if_true]
  cases data with
  | none =>
    simp only [run_bind, run_pure, build_ok (createRoomResult_isInitialized roomId _)]
    rfl
  | some d =>
    simp only [run_bind, roomSnapshot_ok (h d rfl), run_pure,
      build_ok (createRoomResult_isInitialized roomId _)]
    rfl

/-- For another code than `OK` the room id, which is required, is not set. -/
theorem createRoomResult_error (hcode : code ≠ ResultCode.ok) :
    createRoomResult p code msg roomId data w =
      .error ⟨"UninitializedMessageException"⟩ w := by
  unfold createRoomResult
  simp only [if_neg hcode, run_bind, run_pure]
  rw [build_error (by rfl)]
  rfl

theorem addressed_of_createRoomResult {g : PackageGroup} (hcode : code = ResultCode.ok)
    (h : createRoomResult p code msg roomId data w = .ok g w') :
    ∀ d, data = some d → d.Addressed p w := by
  rintro d rfl
  unfold createRoomResult at h
  simp only [hcode, if_true] at h
  obtain ⟨snapshot, w₁, hsnapshot, -⟩ := bind_eq_ok h
  exact addressed_of_roomSnapshot hsnapshot

end

end CmdUtil

/-! ## What a builder owes its caller -/

/-- A call of a builder that takes a result code and a message, with its other arguments. -/
inductive ResultCall
  | logoutResult
  | kickOffCharacterResult
  | createRoomResult (roomId : BitVec 64) (stateData : Option RoomData)
  | unsupportedCmdType (cmdType : BitVec 32)
  | enterRoomResult (roomId : BitVec 64) (roomData : Option RoomData)
  | loginResult
  | closeRoomResult
  | startChatResult
  | inviteCharacterResult

namespace ResultCall

/-- The call, with a result code and a message. -/
def run (p : Platform) (code : BitVec 32) (msg : Option String) :
    ResultCall → Exec World PackageGroup
  | .logoutResult => orThrow (CmdUtil.logoutResult code msg)
  | .kickOffCharacterResult => orThrow (CmdUtil.kickOffCharacterResult code msg)
  | .createRoomResult roomId stateData => CmdUtil.createRoomResult p code msg roomId stateData
  | .unsupportedCmdType cmdType => pure (CmdUtil.unsupportedCmdType code msg cmdType)
  | .enterRoomResult roomId roomData => CmdUtil.enterRoomResult p code msg roomId roomData
  | .loginResult => orThrow (CmdUtil.loginResult code msg)
  | .closeRoomResult => orThrow (CmdUtil.closeRoomResult code msg)
  | .startChatResult => orThrow (CmdUtil.startChatResult code msg)
  | .inviteCharacterResult => orThrow (CmdUtil.inviteCharacterResult code msg)

/-- The result message of the command; the result for an unsupported command has none. -/
def resultType : ResultCall → Fields
  | .logoutResult => UserCmd.logoutResult
  | .kickOffCharacterResult => UserCmd.kickOffCharacterResult
  | .createRoomResult _ _ => UserCmd.createRoomResult
  | .unsupportedCmdType _ => .nil
  | .enterRoomResult _ _ => UserCmd.enterRoomResult
  | .loginResult => UserCmd.loginResult
  | .closeRoomResult => UserCmd.closeRoomResult
  | .startChatResult => UserCmd.startChattingResult
  | .inviteCharacterResult => UserCmd.inviteCharacterResult

/-- The package carries the code and the message, which is left out when it is null or empty, and
its content, if there is one, parses. A byte string has less than 2 ^ 31 bytes. -/
structure Carries (fs : Fields) (code : BitVec 32) (msg : Option String)
    (pkg : Command.package.Val) : Prop where
  resultMsg : pkg.1 = some (some code, if isNullOrEmpty msg then none else msg.map utf8Bytes, ())
  content : ∀ content, pkg.2.2.1 = some content → content.length < 2 ^ 31 →
    ∃ m, fs.parseFrom content = some m

/-- The call returns a group of one package, which carries the code and the message. -/
def Faithful (p : Platform) (w : World) (code : BitVec 32) (msg : Option String)
    (call : ResultCall) : Prop :=
  ∃ g w', call.run p code msg w = .ok g w' ∧ ∃ pkg, g.val.1 = [pkg] ∧
    Carries call.resultType code msg pkg

/-- A logout result cannot be built, a result of CREATE_ROOM for the code `OK` only, and a snapshot
if the addresses of the members that are online are known. The result for an unsupported command is
the same for all codes and messages. -/
def Works (p : Platform) (w : World) (code : BitVec 32) (msg : Option String) : ResultCall → Prop
  | .logoutResult => False
  | .createRoomResult _ stateData =>
    code = ResultCode.ok ∧ ∀ d, stateData = some d → d.Addressed p w
  | .unsupportedCmdType _ => code = ResultCode.error ∧ msg = some "无效的命令"
  | .enterRoomResult _ roomData => ∀ d, roomData = some d → d.Addressed p w
  | .kickOffCharacterResult | .loginResult | .closeRoomResult | .startChatResult
  | .inviteCharacterResult => True

section
variable {p : Platform} {w : World} {code : BitVec 32} {msg : Option String}

/-- A built result carries its code and its message. -/
theorem carries_resultOf {fs gs : Fields} {cmdType : BitVec 32} {v : fs.Val}
    (h : (fs.toByteArray v).length < 2 ^ 31 → ∃ m, gs.parseFrom (fs.toByteArray v) = some m) :
    ∃ pkg, (CmdUtil.resultOf fs cmdType code msg v).val.1 = [pkg] ∧ Carries gs code msg pkg := by
  refine ⟨_, rfl, rfl, fun content hcontent hlen => ?_⟩
  cases hcontent
  exact h hlen

/-- A result without fields works where its content, which is empty, parses. -/
theorem faithful_of_empty {call : ResultCall} (fs : Fields) (cmdType : BitVec 32)
    (hrun : call.run p code msg = orThrow (CmdUtil.emptyResult fs cmdType code msg))
    (hinit : fs.isInitialized fs.newBuilder = true)
    (hparse : (call.resultType.parseFrom (fs.toByteArray fs.newBuilder)).isSome = true) :
    Faithful p w code msg call := by
  refine ⟨CmdUtil.resultOf fs cmdType code msg fs.newBuilder, w, ?_,
    carries_resultOf fun _ => Option.isSome_iff_exists.1 hparse⟩
  rw [hrun, CmdUtil.emptyResult_ok hinit]
  rfl

/-- The content of a result with a snapshot parses as it was built. -/
theorem carries_built {fs : Fields} {cmdType : BitVec 32} {v : fs.Val}
    (hinit : fs.isInitialized v = true) (hwf : fs.wf = true) (hd : fs.depth ≤ recursionLimit) :
    ∃ pkg, (CmdUtil.resultOf fs cmdType code msg v).val.1 = [pkg] ∧ Carries fs code msg pkg :=
  carries_resultOf fun hlen => ⟨_, Fields.parseFrom_toByteArray ⟨v, hinit⟩ hwf hd hlen⟩

/-- The result for an unsupported command carries the code and the message that it always has. -/
theorem unsupportedCmdType_faithful_iff (cmdType : BitVec 32) :
    Faithful p w code msg (.unsupportedCmdType cmdType) ↔
      code = ResultCode.error ∧ msg = some "无效的命令" := by
  constructor
  · rintro ⟨g, w', hrun, pkg, hpkg, hcarries⟩
    cases hrun
    cases List.singleton_inj.1 hpkg
    have h := Option.some.inj hcarries.resultMsg
    have hcode : some ResultCode.error = some code := congrArg Prod.fst h
    have hmsg : some (utf8Bytes "无效的命令") =
        if isNullOrEmpty msg then none else msg.map utf8Bytes := congrArg (·.2.1) h
    refine ⟨(Option.some.inj hcode).symm, ?_⟩
    split at hmsg
    · cases hmsg
    · obtain ⟨m, rfl, hm⟩ := Option.map_eq_some_iff.1 hmsg.symm
      rw [p.utf8Bytes_injective hm]
  · rintro ⟨rfl, rfl⟩
    exact ⟨_, _, rfl, _, rfl, rfl, fun content hcontent => by cases hcontent⟩

/-- The builders do what they owe their caller exactly for these arguments. -/
theorem faithful_iff (p : Platform) (w : World) (code : BitVec 32) (msg : Option String)
    (call : ResultCall) : Faithful p w code msg call ↔ call.Works p w code msg := by
  cases call with
  | logoutResult =>
    refine iff_of_false ?_ not_false
    rintro ⟨g, w', hrun, -⟩
    cases hrun
  | kickOffCharacterResult =>
    exact iff_of_true (faithful_of_empty UserCmd.kickOffCharacterResult CmdType.kickOff rfl
      (by decide) (by decide)) trivial
  | createRoomResult roomId stateData =>
    constructor
    · rintro ⟨g, w', hrun, -⟩
      by_cases hcode : code = ResultCode.ok
      · exact ⟨hcode, CmdUtil.addressed_of_createRoomResult hcode hrun⟩
      · cases hrun.symm.trans (CmdUtil.createRoomResult_error hcode)
    · rintro ⟨hcode, h⟩
      have hinit := CmdUtil.createRoomResult_isInitialized roomId
      exact ⟨_, w, CmdUtil.createRoomResult_ok hcode h,
        carries_built (hinit _) (by decide) (by decide)⟩
  | unsupportedCmdType cmdType => exact unsupportedCmdType_faithful_iff cmdType
  | enterRoomResult roomId roomData =>
    constructor
    · rintro ⟨g, w', hrun, -⟩
      exact CmdUtil.addressed_of_enterRoomResult hrun
    · intro h
      have hinit : ∀ v, UserCmd.enterRoomResult.isInitialized v = true :=
        Fields.isInitialized_of_allOptional (by decide)
      exact ⟨_, w, CmdUtil.enterRoomResult_ok h,
        carries_built (hinit _) (by decide) (by decide)⟩
  | loginResult =>
    exact iff_of_true (faithful_of_empty UserCmd.loginResult CmdType.login rfl
      (by decide) (by decide)) trivial
  | closeRoomResult =>
    exact iff_of_true (faithful_of_empty UserCmd.closeRoomResult CmdType.closeRoom rfl
      (by decide) (by decide)) trivial
  | startChatResult =>
    exact iff_of_true (faithful_of_empty UserCmd.startChatting CmdType.startChatting rfl
      (by decide) (by decide)) trivial
  | inviteCharacterResult =>
    exact iff_of_true (faithful_of_empty UserCmd.inviteCharacterResult CmdType.invite rfl
      (by decide) (by decide)) trivial

end

/-- The result of a logout, as a room sends it. -/
theorem faithful_counterexample : ¬ Faithful .standard (.initial (fun _ => none) fun _ => false)
    ResultCode.ok (some "已退出房间") .logoutResult := by
  rintro ⟨g, w', hrun, -⟩
  cases hrun

end ResultCall

end WebRtcNetty
