import WebRtcNetty.Server.CharacterRegistry
import WebRtcNetty.Server.SessionBinding

/-!
# One online character per user

The character that a LOGIN has been completed with is meant to be the registry's, and the only one
of its user that is online, as long as it is online (`UniqueOnline`). What the registry has is
spoilt by the publication of a copy alone: the copy can lack a character that was put in the
registry after it was made, or that was dropped from it while its LOGIN was under way. In runs whose
publications lose neither, users have one online character each (`run_uniqueOnline`), and so it is
when the sweeps keep apart from the LOGINs of users who are new or offline (`run_sparesOnline`).
-/

namespace WebRtcNetty

open Java Proto2 Command Runs Server

/-- The LOGIN has found a character that was there already, and is yet to give it its session. -/
def Login.IsPending (l : Login) : Prop :=
  match l.progress with
  | .found => l.isNew = false
  | .attributed => True
  | .complete => False

namespace Sessions

section
variable {b : Sessions} {session : SessionRef} {userId : String} {c c' : Character}

/-- The creation of a character leaves the others as they are. -/
theorem isOffLine_create (h : c ≠ (b.create session userId).1) :
    (b.create session userId).2.isOffLine c = b.isOffLine c := by
  have honLine := Function.update_of_ne h true b.isOnLine
  have hsession := Function.update_of_ne h session b.session
  simp only [create, isOffLine] at honLine hsession ⊢
  rw [honLine, hsession]

/-- The others stay as they are when a character is given a session. -/
theorem isOffLine_setSession_of_ne (h : c' ≠ c) :
    (b.setSession c session).isOffLine c' = b.isOffLine c' := by
  simp only [setSession, isOffLine, Function.update_of_ne h]

/-- A character that is given a session is online only if the session is open. -/
theorem isActive_of_setSession (h : (b.setSession c session).isOffLine c = false) :
    b.isActive session = true := by
  simp only [setSession, isOffLine, Function.update_self, Bool.or_eq_false_iff,
    Bool.not_eq_false'] at h
  exact h.2

end

end Sessions

namespace CharacterRegistry

/-! ## What completed LOGINs are owed -/

/-- The transition is the last step but the answer of a LOGIN of the user, whose character is the
given one. -/
def Completes (t : Transition CharacterRegistry Op) (userId : String) (c : Character) : Prop :=
  ∃ i l, (t.label = .setAttribute i ∨ t.label = .setSession i) ∧ t.before.logins[i]? = some l ∧
    l.progress ≠ .complete ∧ t.after.logins[i]? = some { l with progress := .complete } ∧
    l.userId = userId ∧ l.character = c

/-- The character of a completed LOGIN that is online is found, and no other character of its user
is online. -/
def UniqueOnline (ts : List (Transition CharacterRegistry Op)) (s : CharacterRegistry) : Prop :=
  ∀ userId c, (∃ t ∈ ts, Completes t userId c) → c.isOffLine s.server.world = false →
    ChatterFactory.find s.server userId = some c ∧
      ∀ c', c'.getId = userId → c'.isOffLine s.server.world = false → c' = c

/-- A publication takes offline characters out of the registry only, and none that a LOGIN on an
open session is yet to give its session. -/
def SparesOnline (t : Transition CharacterRegistry Op) : Prop :=
  t.label = .publish → ∀ copy userId c, t.before.sweep = .dropped copy →
    t.before.server.characterMap.get userId = some c → copy.get userId ≠ some c →
      c.isOffLine t.before.server.world = true ∧
        ∀ l ∈ t.before.logins, l.IsPending → l.character = c →
          Session.isAlive t.before.server.world l.session = false

/-! ## The invariant -/

/-- The registry and the copy have characters under their user ids. The registry has every online
character, and every character that a LOGIN on an open session is yet to give its session. -/
structure Secure (s : CharacterRegistry) : Prop where
  named : ∀ id c, s.server.sessions.characterMap.get id = some c → c.getId = id
  copyNamed : ∀ copy, s.sweep.copy? = some copy → ∀ id c, copy.get id = some c → c.getId = id
  online : ∀ c, s.server.sessions.isOffLine c = false →
    s.server.sessions.characterMap.get c.getId = some c
  loginNamed : ∀ l ∈ s.logins, l.character.getId = l.userId
  pending : ∀ l ∈ s.logins, l.IsPending → s.server.sessions.isActive l.session = true →
    s.server.sessions.characterMap.get l.userId = some l.character

/-- Nothing comes online or into the registry, and the LOGINs that are under way go on or end. -/
structure Calm (s s' : CharacterRegistry) : Prop where
  map : s'.server.sessions.characterMap = s.server.sessions.characterMap
  online : ∀ c, s'.server.sessions.isOffLine c = false → s.server.sessions.isOffLine c = false
  active : ∀ session, s'.server.sessions.isActive session = true →
    s.server.sessions.isActive session = true
  sweep : s'.sweep = s.sweep
  logins : ∀ l ∈ s'.logins, ∃ l₀ ∈ s.logins, l₀.session = l.session ∧ l₀.userId = l.userId ∧
    l₀.character = l.character ∧ (l.IsPending → l₀.IsPending)

section
variable {p : Platform} {s s' : CharacterRegistry}

/-- What leaves the sessions and characters alone is calm. -/
theorem Calm.of_sessions (hsessions : s'.server.sessions = s.server.sessions)
    (hsweep : s'.sweep = s.sweep) (hlogins : ∀ l ∈ s'.logins, l ∈ s.logins) : Calm s s' where
  map := by rw [hsessions]
  online c hc := by rwa [hsessions] at hc
  active session ha := by rwa [hsessions] at ha
  sweep := hsweep
  logins l hl := ⟨l, hlogins l hl, rfl, rfl, rfl, id⟩

/-- A step that does nothing is calm. -/
theorem Calm.refl (s : CharacterRegistry) : Calm s s := .of_sessions rfl rfl fun _ hl => hl

/-- A calm step keeps a registry secure. -/
theorem Secure.calm (h : s.Secure) (hc : Calm s s') : s'.Secure where
  named id c hget := h.named id c (hc.map ▸ hget)
  copyNamed copy hcopy := h.copyNamed copy (hc.sweep ▸ hcopy)
  online c honline := by
    rw [hc.map]
    exact h.online c (hc.online c honline)
  loginNamed l hl := by
    obtain ⟨l₀, hl₀, -, huser, hchar, -⟩ := hc.logins l hl
    rw [← huser, ← hchar]
    exact h.loginNamed l₀ hl₀
  pending l hl hp ha := by
    obtain ⟨l₀, hl₀, hsession, huser, hchar, hpend⟩ := hc.logins l hl
    rw [hc.map, ← huser, ← hchar]
    exact h.pending l₀ hl₀ (hpend hp) (hsession ▸ hc.active _ ha)

/-! ## Steps of a LOGIN -/

/-- Telling a session a result leaves the characters as they are. -/
theorem sessions_sendResult (session : SessionRef) (result : Except Throwable PackageGroup)
    (s : Server) :
    (endState (inWorld (Session.sendResult session result)) s).sessions = s.sessions := by
  have hkeeps := Session.sendResult_within allowsEntering_bindings.toAllowsSending session result
    s.world
  rw [sessions_inWorld]
  exact congrArg (fun b => { s.sessions with toBindings := b }) hkeeps

/-- What the first step of a LOGIN does. -/
theorem findCharacter_cases (session : SessionRef) (cmd : Cmd) (s : Server) :
    ((∀ out s', WebChatDispatcher.findCharacter p session cmd s ≠ .ok (some out) s') ∧
      (endState (WebChatDispatcher.findCharacter p session cmd) s).sessions = s.sessions) ∨
    (∃ userId c, s.sessions.characterMap.get userId = some c ∧
      WebChatDispatcher.findCharacter p session cmd s = .ok (some (userId, false, c)) s) ∨
    ∃ userId s', s.sessions.characterMap.get userId = none ∧
      WebChatDispatcher.findCharacter p session cmd s =
        .ok (some (userId, true, (s.sessions.create session userId).1)) s' ∧
      s'.sessions = (s.sessions.create session userId).2 := by
  unfold WebChatDispatcher.findCharacter
  cases UserCmd.login.parseFrom cmd.getContent with
  | none =>
    refine .inl ⟨fun out s' h => ?_, ?_⟩
    · obtain ⟨_, s₁, -, h⟩ := bind_eq_ok h
      cases h
    · rw [sessions_bind fun _ => .pure _]
      exact sessions_sendResult session _ s
  | some m =>
    dsimp only
    rcases findOrCreate_cases session (UserCmd.Login.getUserId p m) s with
      ⟨c, hget, hf⟩ | ⟨hget, s', hf, hs'⟩
    · exact .inr (.inl ⟨_, c, hget, run_bind_ok hf⟩)
    · exact .inr (.inr ⟨_, s', hget, run_bind_ok hf, hs'⟩)

/-- A new character is the only one of its user in the registry. -/
theorem Secure.create {session : SessionRef} {userId : String} {server : Server} (h : s.Secure)
    (hget : s.server.sessions.characterMap.get userId = none)
    (hsessions : server.sessions = (s.server.sessions.create session userId).2) :
    Secure { s with server, logins := s.logins ++
      [⟨session, userId, (s.server.sessions.create session userId).1, true, .found⟩] } := by
  obtain ⟨new, hnew⟩ : ∃ new, new = (s.server.sessions.create session userId).1 := ⟨_, rfl⟩
  have hmap : server.sessions.characterMap = s.server.sessions.characterMap.put userId new := by
    rw [hsessions, hnew]; rfl
  have hold : ∀ c, c ≠ new → server.sessions.isOffLine c = s.server.sessions.isOffLine c :=
    fun c hc => by rw [hsessions, Sessions.isOffLine_create (hnew ▸ hc)]
  -- what the registry has is of other users
  have hkeep : ∀ id c, s.server.sessions.characterMap.get id = some c →
      server.sessions.characterMap.get id = some c := fun id c hc => by
    rw [hmap]
    exact HashMap.get_put_of_get new hc hget
  rw [← hnew]
  refine ⟨fun id c hc => ?_, h.copyNamed, fun c hc => ?_, fun l hl => ?_, fun l hl hp ha => ?_⟩
  · rw [hmap, HashMap.get_put_eq] at hc
    split at hc
    · next hid =>
      cases hc
      rw [hnew, hid]
      rfl
    · exact h.named id c hc
  · by_cases hcn : c = new
    · have hid : c.getId = userId := by rw [hcn, hnew]; rfl
      rw [hid, hmap, hcn, HashMap.get_put]
    · exact hkeep _ c (h.online c (hold c hcn ▸ hc))
  · rcases List.mem_append.1 hl with hl | hl
    · exact h.loginNamed l hl
    · cases List.mem_singleton.1 hl
      rw [hnew]
      rfl
  · rcases List.mem_append.1 hl with hl | hl
    · refine hkeep _ _ (h.pending l hl hp ?_)
      rwa [hsessions] at ha
    · cases List.mem_singleton.1 hl
      cases hp

/-- A LOGIN that finds its character leaves the registry as it is, and one that does not puts a new
character there. -/
theorem Secure.find (h : s.Secure) (session : SessionRef) (cmd : Cmd) :
    (after p s (.find session cmd)).Secure := by
  simp only [after]
  rcases findCharacter_cases (p := p) session cmd s.server with
    ⟨hne, hsessions⟩ | ⟨userId, c, hget, hfind⟩ | ⟨userId, server, hget, hfind, hsessions⟩
  · split
    · next hf => exact absurd hf (hne _ _)
    · next hf =>
      rw [endState_ok hf] at hsessions
      exact h.calm (.of_sessions hsessions rfl fun _ hl => hl)
    · next hf =>
      rw [endState_error hf] at hsessions
      exact h.calm (.of_sessions hsessions rfl fun _ hl => hl)
  · rw [hfind]
    refine ⟨h.named, h.copyNamed, h.online, fun l hl => ?_, fun l hl hp ha => ?_⟩
    · rcases List.mem_append.1 hl with hl | hl
      · exact h.loginNamed l hl
      · cases List.mem_singleton.1 hl
        exact h.named userId c hget
    · rcases List.mem_append.1 hl with hl | hl
      · exact h.pending l hl hp ha
      · cases List.mem_singleton.1 hl
        exact hget
  · rw [hfind]
    exact h.create hget hsessions

/-- Setting the attribute of a session is calm. -/
theorem calm_setAttribute (s : CharacterRegistry) (i : Nat) :
    Calm s (after p s (.setAttribute i)) := by
  simp only [after]
  split
  · next session userId c isNew hi =>
    obtain ⟨server, hset, hsessions, -⟩ := setAttribute_server session c s.server
    rw [endState_ok hset]
    refine ⟨by rw [hsessions]; rfl, fun c hc => by rwa [hsessions] at hc,
      fun session ha => by rwa [hsessions] at ha, rfl, fun l hl => ?_⟩
    rcases List.mem_or_eq_of_mem_set hl with hl | rfl
    · exact ⟨l, hl, rfl, rfl, rfl, id⟩
    · refine ⟨_, List.mem_of_getElem? hi, rfl, rfl, rfl, fun hp => ?_⟩
      cases isNew with
      | true => cases hp
      | false => rfl
  · exact .refl s

/-- A character that was there already comes online, if at all, by a LOGIN on an open session. -/
theorem Secure.setSession (h : s.Secure) (i : Nat) : (after p s (.setSession i)).Secure := by
  simp only [after]
  split
  · next session userId c isNew hi =>
    have hl := List.mem_of_getElem? hi
    have hid : c.getId = userId := h.loginNamed _ hl
    rcases setSession_server c session s.server with
      ⟨-, server, hset, hsessions⟩ | ⟨-, e, server, hset, hsessions⟩
    · rw [hset]
      have hmap : server.sessions.characterMap = s.server.sessions.characterMap := by
        rw [hsessions]; rfl
      refine ⟨fun id c' => hmap ▸ h.named id c', h.copyNamed, fun c' hc' => ?_, fun l' hl' => ?_,
        fun l' hl' hp ha => ?_⟩
      · show server.sessions.characterMap.get c'.getId = some c'
        change server.sessions.isOffLine c' = false at hc'
        rw [hsessions] at hc'
        rw [hmap]
        by_cases hc : c' = c
        · cases hc
          rw [hid]
          exact h.pending _ hl trivial (Sessions.isActive_of_setSession hc')
        · exact h.online c' (Sessions.isOffLine_setSession_of_ne hc ▸ hc')
      · rcases List.mem_or_eq_of_mem_set hl' with hl' | rfl
        · exact h.loginNamed l' hl'
        · exact hid
      · rcases List.mem_or_eq_of_mem_set hl' with hl' | rfl
        · change server.sessions.isActive l'.session = true at ha
          rw [hsessions] at ha
          show server.sessions.characterMap.get l'.userId = some l'.character
          rw [hmap]
          exact h.pending l' hl' hp ha
        · cases hp
    · rw [hset]
      exact h.calm (.of_sessions hsessions rfl fun _ hl => List.mem_of_mem_eraseIdx hl)
  · exact h

/-- The reply to a LOGIN is calm. -/
theorem calm_reply (s : CharacterRegistry) (i : Nat) : Calm s (after p s (.reply i)) := by
  simp only [after]
  split
  · exact .of_sessions (sessions_sendResult _ _ s.server) rfl
      fun _ hl => List.mem_of_mem_eraseIdx hl
  · exact .refl s

/-- The end of a session is calm. -/
theorem calm_close (s : CharacterRegistry) (session : SessionRef) :
    Calm s (after p s (.close session)) := by
  have hsessions : (after p s (.close session)).server.sessions = { s.server.sessions with
      isActive := Function.update s.server.sessions.isActive session false } := by
    show (endState (inWorld (Session.close session)) s.server).sessions = _
    rw [sessions_inWorld, bindings_close]
    rfl
  have hactive : ∀ session', (after p s (.close session)).server.sessions.isActive session' = true →
      s.server.sessions.isActive session' = true := by
    intro session' ha
    rw [hsessions] at ha
    exact Sessions.isActive_of_close ha
  refine ⟨by rw [hsessions], fun c hc => ?_, hactive, rfl,
    fun l hl => ⟨l, hl, rfl, rfl, rfl, id⟩⟩
  simp only [Sessions.isOffLine, Bool.or_eq_false_iff, Bool.not_eq_false'] at hc ⊢
  have hc₁ := hc.1
  have hc₂ := hactive _ hc.2
  rw [hsessions] at hc₁ hc₂
  exact ⟨hc₁, hc₂⟩

/-! ## Steps of a sweep -/

/-- A copy names whom the registry names. -/
theorem Secure.copy (h : s.Secure) : (after p s .copy).Secure := by
  simp only [after, SweptMap.copy]
  split
  · refine ⟨h.named, fun copy hc => ?_, h.online, h.loginNamed, h.pending⟩
    cases hc
    exact h.named
  · exact h

/-- A copy from which some are dropped names the others. -/
theorem Secure.drop (h : s.Secure) : (after p s .drop).Secure := by
  simp only [after, SweptMap.drop]
  split
  · next copied hs =>
    refine ⟨h.named, fun copy hc => ?_, h.online, h.loginNamed, h.pending⟩
    cases hc
    have hnamed := h.copyNamed copied ((congrArg Sweep.copy? hs).trans rfl)
    exact fun id c hget => hnamed id c ((HashMap.get_removeIf _ _ _ _).1 hget).1
  · exact h

/-- A publication is secure if it loses nobody who is online or about to be. -/
theorem Secure.publish (h : s.Secure) (hspares : SparesOnline ⟨s, .publish, after p s .publish⟩) :
    (after p s .publish).Secure := by
  simp only [after, SweptMap.publish]
  split
  · next copy hs =>
    have hlost := hspares rfl copy
    refine ⟨h.copyNamed copy ((congrArg Sweep.copy? hs).trans rfl), fun _ hc => (by cases hc),
      fun c hc => ?_, h.loginNamed, fun l hl hp ha => ?_⟩
    · by_contra hne
      have hoff := (hlost _ c hs (h.online c hc) hne).1
      cases hoff.symm.trans hc
    · by_contra hne
      have hclosed := (hlost _ _ hs (h.pending l hl hp ha) hne).2 l hl hp rfl
      cases hclosed.symm.trans ha
  · exact h

/-- A publication that does not meet the condition loses a character that is online, or that a LOGIN
on an open session goes on to give its session. -/
theorem lost_of_not_sparesOnline {t : Transition CharacterRegistry Op}
    (hs : Step p t.before t.label t.after) (h : ¬ SparesOnline t) : ∃ userId c,
      ChatterFactory.find t.before.server userId = some c ∧
      ChatterFactory.find t.after.server userId ≠ some c ∧
      (c.isOffLine t.after.server.world = false ∨ ∃ l ∈ t.after.logins, l.IsPending ∧
        l.character = c ∧ Session.isAlive t.after.server.world l.session = true) := by
  simp only [SparesOnline, not_forall] at h
  obtain ⟨hl, copy, userId, c, hcopy, hget, hlost, hlive⟩ := h
  have hafter : t.after = { t.before with server.characterMap := copy, sweep := .idle } := by
    rw [hl] at hs
    rw [hs]
    simp only [after, setSwept, swept, SweptMap.publish, hcopy]
  rw [hafter]
  refine ⟨userId, c, hget, hlost, ?_⟩
  by_contra hnone
  rw [not_or, Bool.not_eq_false] at hnone
  refine hlive ⟨hnone.1, fun l hmem hp hc => ?_⟩
  by_contra ha
  exact hnone.2 ⟨l, hmem, hp, hc, Bool.eq_true_of_not_eq_false ha⟩

/-! ## Runs -/

/-- Every step keeps a registry secure, if publications lose nobody who is online. -/
theorem Secure.step {op : Op} (h : s.Secure) (hs : Step p s op s')
    (hspares : SparesOnline ⟨s, op, s'⟩) : s'.Secure := by
  cases hs
  cases op with
  | find session cmd => exact h.find session cmd
  | setAttribute i => exact h.calm (calm_setAttribute s i)
  | setSession i => exact h.setSession i
  | reply i => exact h.calm (calm_reply s i)
  | copy => exact h.copy
  | drop => exact h.drop
  | publish => exact h.publish hspares
  | close session => exact h.calm (calm_close s session)

/-! ## Sweeps apart from the LOGINs of users who are new or offline -/

/-- During a sweep no LOGIN puts a character in the registry or finds one that is offline, and when
the sweep drops the offline characters from its copy no LOGIN is yet to give one of them its
session. -/
structure KeepsApart (p : Platform) (t : Transition CharacterRegistry Op) : Prop where
  find : ∀ session cmd userId isNew c server, t.label = .find session cmd →
    t.before.sweep ≠ .idle →
      WebChatDispatcher.findCharacter p session cmd t.before.server =
        .ok (some (userId, isNew, c)) server →
      isNew = false ∧ c.isOffLine t.before.server.world = false
  drop : t.label = .drop → ∀ l ∈ t.before.logins, l.IsPending →
    l.character.isOffLine t.before.server.world = false

/-- The copy of a sweep has what the registry has, but for offline characters that no LOGIN is yet
to give its session. -/
structure Spared (s : CharacterRegistry) : Prop where
  copied : ∀ copy, s.sweep = .copied copy → ∀ userId c,
    s.server.sessions.characterMap.get userId = some c → copy.get userId = some c
  dropped : ∀ copy, s.sweep = .dropped copy → ∀ userId c,
    s.server.sessions.characterMap.get userId = some c → copy.get userId ≠ some c →
      s.server.sessions.isOffLine c = true ∧ ∀ l ∈ s.logins, l.IsPending → l.character ≠ c

/-- Without a sweep there is no copy. -/
theorem Spared.of_idle (h : s.sweep = .idle) : s.Spared where
  copied _ hs := by
    rw [h] at hs
    cases hs
  dropped _ hs := by
    rw [h] at hs
    cases hs

/-- A calm step keeps the copy. -/
theorem Spared.calm (h : s.Spared) (hc : Calm s s') : s'.Spared where
  copied copy hs userId c hget := h.copied copy (hc.sweep ▸ hs) userId c (hc.map ▸ hget)
  dropped copy hs userId c hget hne := by
    obtain ⟨hoff, hpending⟩ := h.dropped copy (hc.sweep ▸ hs) userId c (hc.map ▸ hget) hne
    refine ⟨?_, fun l hl hp heq => ?_⟩
    · refine Bool.eq_true_of_not_eq_false fun honline => ?_
      exact Bool.noConfusion (hoff.symm.trans (hc.online c honline))
    · obtain ⟨l₀, hl₀, -, -, hchar, hpend⟩ := hc.logins l hl
      exact hpending l₀ hl₀ (hpend hp) (hchar.trans heq)

/-- A LOGIN during the sweep finds a character that is online, and so one that is not lost. -/
theorem Spared.find (h : s.Spared) {session : SessionRef} {cmd : Cmd}
    (hapart : KeepsApart p ⟨s, .find session cmd, after p s (.find session cmd)⟩) :
    (after p s (.find session cmd)).Spared := by
  have hfind := fun userId isNew c server => hapart.find session cmd userId isNew c server rfl
  simp only [after]
  rcases findCharacter_cases (p := p) session cmd s.server with
    ⟨hne, hsessions⟩ | ⟨userId, c, hget, hok⟩ | ⟨userId, server, hget, hok, hsessions⟩
  · split
    · next hf => exact absurd hf (hne _ _)
    · next hf =>
      rw [endState_ok hf] at hsessions
      exact h.calm (.of_sessions hsessions rfl fun _ hl => hl)
    · next hf =>
      rw [endState_error hf] at hsessions
      exact h.calm (.of_sessions hsessions rfl fun _ hl => hl)
  · rw [hok]
    refine ⟨h.copied, fun copy hs userId' c' hget' hne => ?_⟩
    obtain ⟨hoff, hpending⟩ := h.dropped copy hs userId' c' hget' hne
    refine ⟨hoff, fun l hl hp heq => ?_⟩
    rcases List.mem_append.1 hl with hl | hl
    · exact hpending l hl hp heq
    · cases List.mem_singleton.1 hl
      have honline := (hfind _ _ _ _ (hs ▸ Sweep.dropped_ne_idle copy) hok).2
      cases heq
      exact Bool.noConfusion (hoff.symm.trans honline)
  · rw [hok]
    cases hs : s.sweep with
    | idle => exact .of_idle rfl
    | copied copy => cases (hfind _ _ _ _ (hs ▸ Sweep.copied_ne_idle copy) hok).1
    | dropped copy => cases (hfind _ _ _ _ (hs ▸ Sweep.dropped_ne_idle copy) hok).1

/-- A LOGIN gives its session to a character that is not lost. -/
theorem Spared.setSession (h : s.Spared) (i : Nat) : (after p s (.setSession i)).Spared := by
  simp only [after]
  split
  · next session userId c isNew hi =>
    have hl := List.mem_of_getElem? hi
    rcases setSession_server c session s.server with
      ⟨-, server, hset, hsessions⟩ | ⟨-, e, server, hset, hsessions⟩
    · rw [hset]
      have hmap : server.sessions.characterMap = s.server.sessions.characterMap := by
        rw [hsessions]; rfl
      refine ⟨fun copy hs userId' c' hget => h.copied copy hs userId' c' (hmap ▸ hget),
        fun copy hs userId' c' hget hne => ?_⟩
      obtain ⟨hoff, hpending⟩ := h.dropped copy hs userId' c' (hmap ▸ hget) hne
      refine ⟨?_, fun l' hl' hp heq => ?_⟩
      · have hc : c' ≠ c := fun hc => hpending _ hl trivial hc.symm
        show server.sessions.isOffLine c' = true
        rw [hsessions, Sessions.isOffLine_setSession_of_ne hc]
        exact hoff
      · rcases List.mem_or_eq_of_mem_set hl' with hl' | rfl
        · exact hpending l' hl' hp heq
        · cases hp
    · rw [hset]
      exact h.calm (.of_sessions hsessions rfl fun _ hl => List.mem_of_mem_eraseIdx hl)
  · exact h

/-- At first the copy is the registry. -/
theorem Spared.copy (h : s.Spared) : (after p s .copy).Spared := by
  simp only [after, SweptMap.copy]
  split
  · refine ⟨fun copy hs userId c hget => ?_, fun _ hs => ?_⟩
    · cases hs
      exact hget
    · cases hs
  · exact h

/-- What is dropped is offline, and no LOGIN is about to change that. -/
theorem Spared.drop (h : s.Spared) (hapart : KeepsApart p ⟨s, .drop, after p s .drop⟩) :
    (after p s .drop).Spared := by
  simp only [after, SweptMap.drop]
  split
  · next copied hs =>
    refine ⟨fun _ hs' => (by cases hs'), fun copy hs' userId c hget hne => ?_⟩
    cases hs'
    have hcopied : copied.get userId = some c := h.copied copied hs userId c hget
    have hoff : s.server.sessions.isOffLine c = true := by
      by_contra honline
      exact hne ((HashMap.get_removeIf _ _ _ _).2 ⟨hcopied, Bool.eq_false_iff.2 honline⟩)
    refine ⟨hoff, fun l hl hp heq => ?_⟩
    cases heq
    exact Bool.noConfusion (hoff.symm.trans (hapart.drop rfl l hl hp))
  · exact h

/-- Every step keeps the copy, if sweeps keep apart from these LOGINs. -/
theorem Spared.step {op : Op} (h : s.Spared) (hs : Step p s op s')
    (hapart : KeepsApart p ⟨s, op, s'⟩) : s'.Spared := by
  cases hs
  cases op with
  | find session cmd => exact h.find hapart
  | setAttribute i => exact h.calm (calm_setAttribute s i)
  | setSession i => exact h.setSession i
  | reply i => exact h.calm (calm_reply s i)
  | copy => exact h.copy
  | drop => exact h.drop hapart
  | publish =>
    simp only [after, SweptMap.publish]
    split
    · exact .of_idle rfl
    · exact h
  | close session => exact h.calm (calm_close s session)

/-- In a run whose sweeps keep apart from the LOGINs of users who are new or offline, publications
lose nobody who is online or about to be. -/
theorem run_sparesOnline {server : Server} {ts : List (Transition CharacterRegistry Op)}
    (hr : Run (Step p) (initial server) ts s) (hapart : ∀ t ∈ ts, KeepsApart p t) :
    ∀ t ∈ ts, SparesOnline t :=
  hr.forall_mem_guarded (I := Spared) (G := KeepsApart p) (.of_idle rfl)
    (fun _ _ _ h hs hg => h.step hs hg) hapart
    fun s₁ _ _ h _ _ _ copy userId c hcopy hget hne => by
      obtain ⟨hoff, hpending⟩ := h.dropped copy hcopy userId c hget hne
      exact ⟨hoff, fun l hl hp heq => absurd heq (hpending l hl hp)⟩

/-- At the start nobody is registered or online. -/
theorem secure_initial (remoteAddress : SessionRef → Option String) (sendFails : Nat → Bool)
    (roomCapacity : Int) (m : WorkerManager RoomRef) :
    Secure (initial (.initial (.initial remoteAddress sendFails) roomCapacity m)) where
  named id c hget := by
    have hnone : (∅ : HashMap String Character).get id = some c := hget
    rw [HashMap.get_empty] at hnone
    cases hnone
  copyNamed _ hc := by cases hc
  online _ hc := by cases hc
  loginNamed _ hl := by cases hl
  pending _ hl := by cases hl

/-- A secure registry has one online character for each user id, which is found. -/
theorem Secure.find_eq {userId : String} {c : Character} (h : s.Secure) (hid : c.getId = userId)
    (honline : c.isOffLine s.server.world = false) :
    ChatterFactory.find s.server userId = some c :=
  hid ▸ h.online c honline

end

section
variable {p : Platform} {remoteAddress : SessionRef → Option String} {sendFails : Nat → Bool}
variable {roomCapacity : Int} {m : WorkerManager RoomRef}
variable {ts : List (Transition CharacterRegistry Op)} {s : CharacterRegistry}

/-- The registry is secure after every run whose publications lose nobody who is online. -/
theorem run_secure (hr : Run (Step p)
      (initial (.initial (.initial remoteAddress sendFails) roomCapacity m)) ts s)
    (hspares : ∀ t ∈ ts, SparesOnline t) : s.Secure :=
  hr.guarded (secure_initial _ _ _ _) (fun _ _ _ => Secure.step) hspares

/-- In a run whose publications lose nobody who is online or about to be, users have one online
character each. -/
theorem run_uniqueOnline (hr : Run (Step p)
      (initial (.initial (.initial remoteAddress sendFails) roomCapacity m)) ts s)
    (hspares : ∀ t ∈ ts, SparesOnline t) : UniqueOnline ts s := by
  rintro userId c ⟨t, ht, i, l, -, hl, -, -, huser, hchar⟩ honline
  obtain ⟨us, vs, rfl, hus, -⟩ := hr.mem ht
  have hbefore := run_secure hus fun u hu => hspares u (List.mem_append_left _ hu)
  have hid : c.getId = userId := by
    rw [← huser, ← hchar]
    exact hbefore.loginNamed l (List.mem_of_getElem? hl)
  have hs := run_secure hr hspares
  have hfind := hs.find_eq hid honline
  refine ⟨hfind, fun c' hid' honline' => ?_⟩
  exact Option.some.inj ((hs.find_eq hid' honline').symm.trans hfind)

end

/-! ## Two characters of alice -/

/-- The transitions of a run of operations. -/
def transitions (p : Platform) (s : CharacterRegistry) (ops : List Op) :
    List (Transition CharacterRegistry Op) :=
  trace (after p) s ops

/-- The transitions of a run are a run. -/
theorem run_transitions (p : Platform) (ops : List Op) (s : CharacterRegistry) :
    Run (Step p) s (transitions p s ops) (ops.foldl (after p) s) := by
  have hstep : ∀ s op, Step p s op (after p s op) := fun _ _ => rfl
  exact run_trace hstep ops s

/-- Alice logs in after the sweep has copied the registry, and once the copy has been published she
logs in again on a second session. -/
def lateLogin : List Op :=
  [.copy, .find 0 Server.loginAlice, .setAttribute 0, .reply 0, .drop, .publish,
    .find 1 Server.loginAlice, .setAttribute 0, .reply 0]

/-- Alice has lost her connection, and the sweep drops her from its copy while her LOGIN on another
session is under way. -/
def lateReturn : List Op :=
  [.find 0 Server.loginAlice, .setAttribute 0, .reply 0, .close 0, .find 1 Server.loginAlice,
    .copy, .drop, .setAttribute 0, .setSession 0, .publish]

/-- After the first run two characters of alice are online, each of which a LOGIN has been completed
with; after the second she is online and not found. -/
theorem uniqueOnline_counterexample :
    (∃ s, Run (Step .standard) (initial .start)
        (transitions .standard (initial .start) lateLogin) s ∧
      ¬ UniqueOnline (transitions .standard (initial .start) lateLogin) s) ∧
    ∃ s, Run (Step .standard) (initial .start)
        (transitions .standard (initial .start) lateReturn) s ∧
      ¬ UniqueOnline (transitions .standard (initial .start) lateReturn) s := by
  refine ⟨⟨_, run_transitions _ _ _, fun h => ?_⟩, _, run_transitions _ _ _, fun h => ?_⟩
  · have hone := (h "alice" ⟨0, "alice", none⟩
      ⟨(transitions .standard (initial .start) lateLogin).get ⟨2, by decide⟩, List.get_mem _ _,
        0, ⟨0, "alice", ⟨0, "alice", none⟩, true, .found⟩, .inl rfl, by decide +kernel,
        by decide, by decide +kernel, rfl, rfl⟩ (by decide +kernel)).2
    have hsame := hone ⟨1, "alice", none⟩ rfl (by decide +kernel)
    exact absurd hsame (by decide)
  · have hfind := (h "alice" ⟨0, "alice", none⟩
      ⟨(transitions .standard (initial .start) lateReturn).get ⟨8, by decide⟩, List.get_mem _ _,
        0, ⟨1, "alice", ⟨0, "alice", none⟩, false, .attributed⟩, .inr rfl, by decide +kernel,
        by decide, by decide +kernel, rfl, rfl⟩ (by decide +kernel)).1
    exact absurd hfind (by decide +kernel)

/-- Alice logs in on a second session while the registry is swept. -/
def loginMeanwhile : List Op :=
  [.find 0 Server.loginAlice, .setAttribute 0, .reply 0, .copy, .find 1 Server.loginAlice, .drop,
    .setAttribute 0, .publish, .setSession 0]

/-- Her character is still found. -/
theorem run_uniqueOnline_alice : ∃ s, Run (Step .standard) (initial .start)
    (transitions .standard (initial .start) loginMeanwhile) s ∧
      UniqueOnline (transitions .standard (initial .start) loginMeanwhile) s ∧
      ChatterFactory.find s.server "alice" = some ⟨0, "alice", none⟩ := by
  have hr := run_transitions .standard loginMeanwhile (initial .start)
  refine ⟨_, hr, run_uniqueOnline hr (run_sparesOnline hr fun t ht => ?_), by decide +kernel⟩
  simp only [transitions, loginMeanwhile, trace, List.mem_cons, List.not_mem_nil, or_false] at ht
  rcases ht with rfl | rfl | rfl | rfl | rfl | rfl | rfl | rfl | rfl
  case inl =>
    exact ⟨fun _ _ _ _ _ _ _ hsweep => absurd rfl hsweep, fun hl => (by cases hl)⟩
  case inr.inr.inr.inr.inl =>
    -- The sweep has copied the registry, and alice is online.
    refine ⟨fun _ _ _ _ _ _ hl _ hfind => ?_, fun hl => (by cases hl)⟩
    cases hl
    cases hfind
    exact ⟨rfl, by decide +kernel⟩
  case inr.inr.inr.inr.inr.inl =>
    refine ⟨fun _ _ _ _ _ _ hl => (by cases hl), fun _ l hl _ => ?_⟩
    cases List.mem_singleton.1 hl
    decide +kernel
  all_goals exact ⟨fun _ _ _ _ _ _ hl => (by cases hl), fun hl => (by cases hl)⟩

end CharacterRegistry

end WebRtcNetty
