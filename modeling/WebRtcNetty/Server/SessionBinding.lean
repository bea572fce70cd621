import WebRtcNetty.Server.Sessions

/-!
# The binding of sessions and characters

A live session that acts for a character is meant to be the one that the character is reached by,
and the one that logged in last as its user (`SessionBinding`). `Chatter.setSession` tells the
displaced session, but its attribute stays, so that it goes on acting for the character.
`sessionBinding_iff` says exactly which runs keep the binding: those in which no character that a
command looks up is taken from another live session.
-/

namespace WebRtcNetty

open Java Proto2 Command Runs

namespace Server

/-! ## The binding -/

/-- The transition handles a command on the session that looks the user id up, and after it the
session acts for a character of that id, which is reached by the session. -/
def LogsIn (p : Platform) (userId : String) (session : SessionRef) (t : Transition Server Op) :
    Prop :=
  ∃ cmd c, t.label = .handle session cmd ∧
    t.before.sessions.looksUp p session cmd = some userId ∧ c.getId = userId ∧
    t.after.sessions.character session = some c ∧ t.after.sessions.session c = session

/-- The session is the one that logged in last as the user. -/
def LastLogin (p : Platform) (ts : List (Transition Server Op)) (userId : String)
    (session : SessionRef) : Prop :=
  Latest (fun t => ∃ session', LogsIn p userId session' t) (LogsIn p userId session) ts

/-- After the transitions, a live session that acts for a character is the one that the character is
reached by, and the one that logged in last as its user. -/
structure SessionBinding (p : Platform) (ts : List (Transition Server Op)) (s : Server) :
    Prop where
  bound : ∀ session c, s.sessions.isActive session = true →
    s.sessions.character session = some c → s.sessions.session c = session
  latest : ∀ session c, s.sessions.isActive session = true →
    s.sessions.character session = some c → LastLogin p ts c.getId session

/-- What keeps the binding: when a command looks up a user id that has a character, no other live
session acts for the character; but if the character cannot be told that it is displaced, then a
LOGIN is to be on the session that it is reached by already, or on one that is no longer live. -/
def KeepsBinding (p : Platform) (t : Transition Server Op) : Prop :=
  ∀ session cmd userId c, t.label = .handle session cmd →
    t.before.sessions.looksUp p session cmd = some userId →
    t.before.sessions.characterMap.get userId = some c →
      if t.before.world.sendFails t.before.world.sends then
        cmd.getCmdType = CmdType.login → t.before.sessions.isActive session = true →
          t.before.sessions.session c = session
      else
        ∀ other, other ≠ session → t.before.sessions.isActive other = true →
          t.before.sessions.character other ≠ some c

/-! ## What follows from the binding -/

section
variable {p : Platform} {ts : List (Transition Server Op)} {t : Transition Server Op}
variable {userId : String} {session : SessionRef} {cmd : Cmd} {s : Server} {c : Character}

/-- The user logs in on one session at a time. -/
theorem LastLogin.unique {session' : SessionRef} (h : LastLogin p ts userId session)
    (h' : LastLogin p ts userId session') : session = session' := by
  obtain ⟨t, -, ⟨_, _, hl, -⟩, ⟨_, _, hl', -⟩⟩ := Latest.common h h'
  rw [hl] at hl'
  injection hl'

/-- Under the binding, a user id acts through one live session at most. -/
theorem SessionBinding.unique {session' : SessionRef} {c' : Character} (h : SessionBinding p ts s)
    (ha : s.sessions.isActive session = true) (hc : s.sessions.character session = some c)
    (ha' : s.sessions.isActive session' = true) (hc' : s.sessions.character session' = some c')
    (hid : c.getId = c'.getId) : session = session' :=
  (h.latest session c ha hc).unique (hid ▸ h.latest session' c' ha' hc')

/-- A transition logs in nobody but the user whom its command looks up. -/
theorem not_logsIn {userId' : String} (hl : t.label = .handle session cmd)
    (hu : t.before.sessions.looksUp p session cmd = some userId) (hne : userId' ≠ userId) :
    ¬ ∃ session', LogsIn p userId' session' t := by
  rintro ⟨session', cmd', c, hl', hu', -⟩
  rw [hl] at hl'
  cases hl'
  exact hne (Option.some.inj (hu'.symm.trans hu))

/-! ## Runs that keep the binding -/

/-- The binding together with what it rests on: the registry has the characters that live sessions
act for. -/
structure Bound (p : Platform) (ts : List (Transition Server Op)) (b : Sessions) : Prop where
  bound : ∀ session c, b.isActive session = true → b.character session = some c →
    b.session c = session
  latest : ∀ session c, b.isActive session = true → b.character session = some c →
    LastLogin p ts c.getId session
  registered : ∀ session c, b.isActive session = true → b.character session = some c →
    b.characterMap.get c.getId = some c

/-- A transition that logs in nobody and changes nothing keeps the binding. -/
theorem Bound.skip {b : Sessions} (h : Bound p ts b)
    (hno : ∀ id, ¬ ∃ session', LogsIn p id session' t) : Bound p (ts ++ [t]) b where
  bound := h.bound
  latest session c ha hc := (h.latest session c ha hc).snoc (hno _)
  registered := h.registered

/-- A background step logs in nobody. -/
theorem not_logsIn_background {b : Background} (hl : t.label = .background b) :
    ∀ id, ¬ ∃ session', LogsIn p id session' t := by
  rintro id ⟨session', cmd, c, hl', -⟩
  rw [hl] at hl'
  cases hl'

theorem Bound.background {b : Sessions} (h : Bound p ts b) (hreg : b.Registered) {op : Background}
    (hl : t.label = .background op) (sendFails : Bool) :
    Bound p (ts ++ [t]) (b.after p sendFails (.background op)) := by
  have hno := not_logsIn_background (p := p) hl
  have hskip := h.skip hno
  cases op with
  | update r => exact hskip
  | removeDeposedStateGroup => exact hskip
  | removeWorker => exact hskip
  | removeDeposedGroup worker => exact hskip
  | removeOffLine =>
    refine ⟨hskip.bound, hskip.latest, fun session c ha hc => ?_⟩
    have hget := h.registered session c ha hc
    have hactive : b.isActive (b.session c) = true := by rw [h.bound session c ha hc]; exact ha
    refine (HashMap.get_removeIf _ _ _ _).2 ⟨hget, ?_⟩
    simp [Sessions.isOffLine, (hreg _ c hget).2, hactive]
  | close closed =>
    exact ⟨fun session c ha => hskip.bound session c (Sessions.isActive_of_close ha),
      fun session c ha => hskip.latest session c (Sessions.isActive_of_close ha),
      fun session c ha => hskip.registered session c (Sessions.isActive_of_close ha)⟩

/-- A character of another user id than the one looked up is a matter of earlier logins. -/
theorem latest_of_ne {id : String} {session' : SessionRef} (hl : t.label = .handle session cmd)
    (hu : t.before.sessions.looksUp p session cmd = some userId) (hne : id ≠ userId)
    (h : LastLogin p ts id session') : LastLogin p (ts ++ [t]) id session' :=
  Latest.snoc h (not_logsIn hl hu hne)

/-- The session has just logged in. -/
theorem latest_of_logsIn (h : LogsIn p userId session t) :
    LastLogin p (ts ++ [t]) userId session :=
  Latest.last ⟨session, h⟩ h

/-- A command that puts the character of the user id it looks up on its session keeps the binding if
it keeps it on the other sessions. -/
theorem bound_of_puts (hl : t.label = .handle session cmd)
    (hu : t.before.sessions.looksUp p session cmd = some userId) (hid : c.getId = userId)
    (hcharacter : t.after.sessions.character =
      Function.update t.before.sessions.character session (some c))
    (hactive : t.after.sessions.isActive = t.before.sessions.isActive)
    (hsession : t.before.sessions.isActive session = true → t.after.sessions.session c = session)
    (hget : t.after.sessions.characterMap.get userId = some c)
    (hothers : ∀ other c', other ≠ session → t.before.sessions.isActive other = true →
      t.before.sessions.character other = some c' →
        t.after.sessions.session c' = other ∧ LastLogin p (ts ++ [t]) c'.getId other ∧
          t.after.sessions.characterMap.get c'.getId = some c') :
    Bound p (ts ++ [t]) t.after.sessions := by
  have hcases : ∀ session' c', t.after.sessions.isActive session' = true →
      t.after.sessions.character session' = some c' →
        t.after.sessions.session c' = session' ∧ LastLogin p (ts ++ [t]) c'.getId session' ∧
          t.after.sessions.characterMap.get c'.getId = some c' := fun session' c' ha hc => by
    have ha₀ := ha
    rw [hactive] at ha₀
    by_cases hs : session' = session
    · cases hs
      have hc' := hc
      rw [hcharacter, Function.update_self] at hc'
      cases hc'
      have hlogs : LogsIn p userId session t := ⟨cmd, c, hl, hu, hid, hc, hsession ha₀⟩
      exact ⟨hsession ha₀, hid ▸ latest_of_logsIn hlogs, hid ▸ hget⟩
    · rw [hcharacter, Function.update_of_ne hs] at hc
      exact hothers session' c' hs ha₀ hc
  exact ⟨fun session' c' ha hc => (hcases session' c' ha hc).1,
    fun session' c' ha hc => (hcases session' c' ha hc).2.1,
    fun session' c' ha hc => (hcases session' c' ha hc).2.2⟩

/-- A user id without a character gets a new one. -/
theorem Bound.create (h : Bound p ts t.before.sessions) (hl : t.label = .handle session cmd)
    (hu : t.before.sessions.looksUp p session cmd = some userId)
    (hget : t.before.sessions.characterMap.get userId = none)
    (hafter : t.after.sessions = (t.before.sessions.create session userId).2.setAttribute session
      (t.before.sessions.create session userId).1) :
    Bound p (ts ++ [t]) t.after.sessions := by
  obtain ⟨new, hnew⟩ : ∃ new, new = (t.before.sessions.create session userId).1 := ⟨_, rfl⟩
  have hid : new.getId = userId := by rw [hnew]; rfl
  have hcharacter : t.after.sessions.character =
      Function.update t.before.sessions.character session (some new) := by rw [hafter, hnew]; rfl
  have hsession : t.after.sessions.session =
      Function.update t.before.sessions.session new session := by rw [hafter, hnew]; rfl
  have hmap : t.after.sessions.characterMap = t.before.sessions.characterMap.put userId new := by
    rw [hafter, hnew]; rfl
  refine bound_of_puts hl hu hid hcharacter (by rw [hafter]; rfl)
    (fun _ => by rw [hsession, Function.update_self]) (by rw [hmap, HashMap.get_put])
    fun other c _ ha hc => ?_
  -- the other session acts for a character of another user id
  have hget' := h.registered other c ha hc
  have hne : c.getId ≠ userId := HashMap.ne_of_get hget' hget
  have hcne : c ≠ new := fun he => hne (by rw [he, hid])
  refine ⟨?_, latest_of_ne hl hu hne (h.latest other c ha hc), ?_⟩
  · rw [hsession, Function.update_of_ne hcne]
    exact h.bound other c ha hc
  · rw [hmap]
    exact HashMap.get_put_of_get new hget' hget

/-- A character that no other live session acts for gets the session. -/
theorem Bound.rebind (h : Bound p ts t.before.sessions) (hreg : t.before.sessions.Registered)
    (hl : t.label = .handle session cmd)
    (hu : t.before.sessions.looksUp p session cmd = some userId)
    (hget : t.before.sessions.characterMap.get userId = some c)
    (hkeeps : ∀ other, other ≠ session → t.before.sessions.isActive other = true →
      t.before.sessions.character other ≠ some c)
    (hafter : t.after.sessions = (t.before.sessions.setAttribute session c).setSession c session) :
    Bound p (ts ++ [t]) t.after.sessions := by
  have hsession : t.after.sessions.session =
      Function.update t.before.sessions.session c session := by rw [hafter]; rfl
  have hmap : t.after.sessions.characterMap = t.before.sessions.characterMap := by rw [hafter]; rfl
  refine bound_of_puts hl hu (hreg userId c hget).1 (by rw [hafter]; rfl) (by rw [hafter]; rfl)
    (fun _ => by rw [hsession, Function.update_self]) (by rw [hmap, hget])
    fun other c' ho ha hc => ?_
  have hget' := h.registered other c' ha hc
  have hcne : c' ≠ c := fun he => hkeeps other ho ha (he ▸ hc)
  have hne : c'.getId ≠ userId := fun he => by
    rw [he, hget] at hget'
    exact hcne (Option.some.inj hget').symm
  refine ⟨?_, latest_of_ne hl hu hne (h.latest other c' ha hc), by rw [hmap]; exact hget'⟩
  rw [hsession, Function.update_of_ne hcne]
  exact h.bound other c' ha hc

/-- A LOGIN whose displaced character cannot be told so sets the session's attribute alone. -/
theorem Bound.attribute (h : Bound p ts t.before.sessions) (hreg : t.before.sessions.Registered)
    (hl : t.label = .handle session cmd)
    (hu : t.before.sessions.looksUp p session cmd = some userId)
    (hget : t.before.sessions.characterMap.get userId = some c)
    (hkeeps : t.before.sessions.isActive session = true → t.before.sessions.session c = session)
    (hafter : t.after.sessions = t.before.sessions.setAttribute session c) :
    Bound p (ts ++ [t]) t.after.sessions := by
  have hcharacter : t.after.sessions.character =
      Function.update t.before.sessions.character session (some c) := by rw [hafter]; rfl
  have hsession : t.after.sessions.session = t.before.sessions.session := by rw [hafter]; rfl
  have hmap : t.after.sessions.characterMap = t.before.sessions.characterMap := by rw [hafter]; rfl
  refine bound_of_puts hl hu (hreg userId c hget).1 hcharacter (by rw [hafter]; rfl)
    (fun ha => by rw [hsession]; exact hkeeps ha) (by rw [hmap, hget]) fun other c' ho ha hc => ?_
  have hbound := h.bound other c' ha hc
  have hget' := h.registered other c' ha hc
  refine ⟨by rw [hsession]; exact hbound, Latest.snoc (h.latest other c' ha hc) ?_,
    by rw [hmap]; exact hget'⟩
  rintro ⟨session', cmd', c'', hl', hu', hid', hc', hs'⟩
  rw [hl] at hl'
  cases hl'
  -- the character that was looked up is the one that the other session acts for
  rw [← Option.some.inj (hu.symm.trans hu'), hget] at hget'
  cases hget'
  rw [hcharacter, Function.update_self] at hc'
  cases hc'
  rw [hsession, hbound] at hs'
  exact ho hs'

/-- A step that meets the condition keeps the binding. -/
theorem Bound.step (h : Bound p ts t.before.sessions) (hwf : WellFormed p t.before)
    (hreg : t.before.sessions.Registered) (hs : Step p t.before t.label t.after)
    (hkeeps : KeepsBinding p t) : Bound p (ts ++ [t]) t.after.sessions := by
  have hafter := sessions_step hwf hs
  cases hl : t.label with
  | background b =>
    rw [hafter, hl]
    exact h.background hreg hl _
  | handle session cmd =>
    rw [hl] at hafter
    change _ = t.before.sessions.handle p _ session cmd at hafter
    cases hu : t.before.sessions.looksUp p session cmd with
    | none =>
      rw [hafter, Sessions.handle_of_looksUp_none hu]
      refine h.skip ?_
      rintro id ⟨session', cmd', c, hl', hu', -⟩
      rw [hl] at hl'
      cases hl'
      rw [hu] at hu'
      cases hu'
    | some userId =>
      cases hget : t.before.sessions.characterMap.get userId with
      | none =>
        exact h.create hl hu hget (hafter.trans (Sessions.handle_of_get_none hu hget))
      | some c =>
        have hk := hkeeps session cmd userId c hl hu hget
        rw [Sessions.handle_of_get_some hu hget] at hafter
        split at hk
        · next hf =>
          rw [if_pos hf] at hafter
          by_cases hlogin : cmd.getCmdType = CmdType.login
          · rw [if_pos hlogin] at hafter
            exact h.attribute hreg hl hu hget (hk hlogin) hafter
          · rw [if_neg hlogin] at hafter
            have hnone := Sessions.looksUp_of_ne_login hu hlogin
            rw [hafter]
            refine h.skip ?_
            rintro id ⟨session', cmd', c', hl', -, -, hc', -⟩
            rw [hl] at hl'
            cases hl'
            rw [hafter, hnone] at hc'
            cases hc'
        · next hf =>
          rw [if_neg hf] at hafter
          exact h.rebind hreg hl hu hget hk hafter

/-- A step after which the binding holds meets the condition. -/
theorem keepsBinding_of_bound (hwf : WellFormed p t.before) (hs : Step p t.before t.label t.after)
    (h : ∀ session c, t.after.sessions.isActive session = true →
      t.after.sessions.character session = some c → t.after.sessions.session c = session) :
    KeepsBinding p t := by
  intro session cmd userId c hl hu hget
  have hafter := sessions_step hwf hs
  rw [hl] at hafter
  change _ = t.before.sessions.handle p _ session cmd at hafter
  rw [Sessions.handle_of_get_some hu hget] at hafter
  split
  · next hf =>
    intro hlogin ha
    rw [if_pos hf, if_pos hlogin] at hafter
    have hbound := h session c
    rw [hafter] at hbound
    exact hbound ha (Function.update_self ..)
  · next hf =>
    intro other hne ha hc
    rw [if_neg hf] at hafter
    have hbound := h other c
    rw [hafter] at hbound
    have hother := hbound ha ((Function.update_of_ne hne ..).trans hc)
    exact hne (hother.symm.trans (Function.update_self ..))

end

section
variable {p : Platform} {remoteAddress : SessionRef → Option String} {sendFails : Nat → Bool}
variable {roomCapacity : Int} {m : WorkerManager RoomRef} {ts : List (Transition Server Op)}
variable {s : Server}

theorem run_bound
    (hr : Run (Step p) (initial (.initial remoteAddress sendFails) roomCapacity m) ts s)
    (hk : ∀ t ∈ ts, KeepsBinding p t) : Bound p ts s.sessions := by
  induction hr with
  | nil =>
    refine ⟨fun session c _ hc => ?_, fun session c _ hc => ?_, fun session c _ hc => ?_⟩
    · cases hc
    · cases hc
    · cases hc
  | @snoc ts s₁ s₂ op hr hs ih =>
    have hb := ih fun t ht => hk t (List.mem_append_left _ ht)
    exact Bound.step (t := ⟨s₁, op, s₂⟩) hb (run_wellFormed hr) (run_registered hr) hs
      (hk _ (by simp))

/-- The binding holds after every prefix of a run exactly when every transition of the run meets the
condition. -/
theorem sessionBinding_iff
    (hr : Run (Step p) (initial (.initial remoteAddress sendFails) roomCapacity m) ts s) :
    (∀ us vs s', ts = us ++ vs →
      Run (Step p) (initial (.initial remoteAddress sendFails) roomCapacity m) us s' →
        SessionBinding p us s') ↔ ∀ t ∈ ts, KeepsBinding p t := by
  constructor
  · intro h t ht
    obtain ⟨us, vs, rfl, hrun, hs⟩ := hr.mem ht
    exact keepsBinding_of_bound (run_wellFormed hrun) hs
      (h (us ++ [t]) vs t.after (by simp) (.snoc hrun hs)).bound
  · rintro h us vs s' rfl hrun
    have hb := run_bound hrun fun t ht => h t (List.mem_append_left _ ht)
    exact ⟨hb.bound, hb.latest⟩

end

/-! ## A user on two sessions -/

/-- A LOGIN of the user alice. -/
def loginAlice : Cmd := .of CmdType.login [10, 5, 97, 108, 105, 99, 101, 18, 0]

/-- Alice logs in on a second session. The first one, which is told so, still acts for her. -/
theorem sessionBinding_counterexample : ∃ (ts : List (Transition Server Op)) (s : Server),
    Run (Step .standard) start ts s ∧ s.world.sent.length = 3 ∧
      ¬ SessionBinding .standard ts s := by
  refine ⟨_, _, run_transitions .standard [.handle 0 loginAlice, .handle 1 loginAlice] start,
    by decide, fun h => ?_⟩
  exact absurd (h.bound 0 ⟨0, "alice", none⟩ (by decide) (by decide)) (by decide)

/-- Alice logs in on one session: the binding holds all along. -/
theorem sessionBinding_iff_alice :
    ∃ ts s, Run (Step .standard) start ts s ∧ s.sessions.character 0 = some ⟨0, "alice", none⟩ ∧
      SessionBinding .standard ts s := by
  have hr := run_transitions .standard [.handle 0 loginAlice] start
  refine ⟨_, _, hr, by decide, (sessionBinding_iff hr).2 (fun t ht => ?_) _ [] _ (by simp) hr⟩
  rw [List.mem_singleton.1 ht]
  intro session cmd userId c _ _ hget
  cases hget

end Server

end WebRtcNetty
