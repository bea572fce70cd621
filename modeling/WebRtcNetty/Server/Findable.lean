import WebRtcNetty.Server.RoomRegistry

/-!
# Rooms stay findable

A room whose creator has been told that it has been created is meant to be found under its id as
long as a member is online (`StaysFindable`). A sweep can lose it, in two ways: the room is put in
the registry after the sweep has copied it, or the sweep drops the room from its copy before the
creator has entered. In runs without either, rooms stay findable (`run_staysFindable`); in the first
case the room is always lost (`inserted_lost`). A sweep may well drop a room that is being created,
if its creator has left again before the reply.
-/

namespace WebRtcNetty

open Java Proto2 Command Runs Server

namespace RoomRegistry

/-! ## Rooms that the registry keeps -/

/-- The registry and the copy of the sweep, if there is one, have the room under the id, which is
the room's. -/
structure Keeps (s : RoomRegistry) (k : BitVec 64) (r : RoomRef) : Prop where
  holds : s.swept.Holds k r
  exists_room : r < s.server.roomCount
  id_eq : (s.server.rooms r).group.id = k

section
variable {p : Platform} {s s' : RoomRegistry} {k : BitVec 64} {r : RoomRef}

/-- A room that is kept is found. -/
theorem Keeps.find (h : s.Keeps k r) : RoomStateGroupFactory.find s.server k = some r :=
  h.holds.published

/-- The registry keeps a room while nothing happens to it. -/
theorem Keeps.same (h : s.Keeps k r) (hlisting : listing s'.server = listing s.server)
    (hsweep : s'.sweep = s.sweep) : s'.Keeps k r := by
  have hmap : s'.server.stateGroupMap = s.server.stateGroupMap := congrArg Listing.map hlisting
  have hcount : s'.server.roomCount = s.server.roomCount := congrArg Listing.count hlisting
  have hid : (s'.server.rooms r).group.id = (s.server.rooms r).group.id :=
    congrFun (congrArg Listing.id hlisting) r
  have hswept : s'.swept = s.swept := by rw [swept, swept, hmap, hsweep]
  exact ⟨hswept ▸ h.holds, hcount ▸ h.exists_room, hid.trans h.id_eq⟩

/-- A new room does not take another one's place. -/
theorem Keeps.add {k' : BitVec 64} (h : s.Keeps k r) (hsweep : s'.sweep = s.sweep)
    (hlisting : listing s'.server = (listing s.server).add k')
    (hnew : s.server.stateGroupMap.get k' = none) : s'.Keeps k r := by
  have hmap : s'.server.stateGroupMap = s.server.stateGroupMap.put k' s.server.roomCount :=
    congrArg Listing.map hlisting
  have hcount : s'.server.roomCount = s.server.roomCount + 1 := congrArg Listing.count hlisting
  have hid : (s'.server.rooms r).group.id = Function.update (fun r => (s.server.rooms r).group.id)
      s.server.roomCount k' r := congrFun (congrArg Listing.id hlisting) r
  have hk : k ≠ k' := HashMap.ne_of_get h.holds.published hnew
  have hswept : s'.swept = s.swept.insert k' s.server.roomCount := by
    rw [swept, hmap, hsweep]
    rfl
  refine ⟨hswept ▸ h.holds.insert hk, ?_, ?_⟩
  · rw [hcount]
    exact Nat.lt_succ_of_lt h.exists_room
  · rw [hid, Function.update_of_ne (Nat.ne_of_lt h.exists_room)]
    exact h.id_eq

/-- The registry keeps a room through every step, if the room cannot be deposed when a sweep drops
what can. -/
theorem Keeps.step {op : Op} (h : s.Keeps k r) (hs : Step p s op s')
    (hdrop : ∀ copy, op = .drop → s.sweep = .copied copy →
      RoomStateGroupFactory.canDepose p s.server r = false) : s'.Keeps k r := by
  cases hs
  cases op with
  | insert session cmd =>
    rcases after_insert_cases (p := p) s session cmd with
      hu | ⟨creator, r', -, hsweep, -, ⟨-, hlisting⟩ | ⟨hnew, -, -, hlisting⟩⟩
    · exact h.same hu.listing hu.sweep
    · exact h.same hlisting hsweep
    · exact h.add hsweep hlisting hnew
  | enter i =>
    have hu := undisturbed_enter (p := p) s i
    exact h.same hu.listing hu.sweep
  | reply i =>
    have hu := undisturbed_reply (p := p) s i
    exact h.same hu.listing hu.sweep
  | copy => exact ⟨h.holds.copy, h.exists_room, h.id_eq⟩
  | drop => exact ⟨h.holds.drop fun copy => hdrop copy rfl, h.exists_room, h.id_eq⟩
  | publish => exact ⟨h.holds.publish, h.exists_room, h.id_eq⟩
  | elsewhere op =>
    have hu := undisturbed_elsewhere (p := p) s op
    exact h.same hu.listing hu.sweep

/-! ## The invariant -/

/-- What the registry has under an id is a room with that id, and the copy of a sweep has nothing
else. -/
structure Consistent (s : RoomRegistry) : Prop where
  registered : ∀ k r, s.server.stateGroupMap.get k = some r →
    r < s.server.roomCount ∧ (s.server.rooms r).group.id = k ∧ 8 ≤ s.server.roomCapacity
  copyWithin : s.swept.CopyWithin

/-- At the start no room is registered. -/
theorem consistent_initial (w : World) (roomCapacity : Int) (m : WorkerManager RoomRef) :
    (initial (.initial w roomCapacity m)).Consistent where
  registered k r hr := by
    have hget : (∅ : HashMap (BitVec 64) RoomRef).get k = some r := hr
    rw [HashMap.get_empty] at hget
    cases hget
  copyWithin := .of_idle rfl

/-- A registry is consistent as long as its rooms and its sweep are the same. -/
theorem Consistent.same (h : s.Consistent) (hlisting : listing s'.server = listing s.server)
    (hsweep : s'.sweep = s.sweep) : s'.Consistent := by
  have hmap : s'.server.stateGroupMap = s.server.stateGroupMap := congrArg Listing.map hlisting
  have hcount : s'.server.roomCount = s.server.roomCount := congrArg Listing.count hlisting
  have hcapacity : s'.server.roomCapacity = s.server.roomCapacity :=
    congrArg Listing.capacity hlisting
  have hid : ∀ r, (s'.server.rooms r).group.id = (s.server.rooms r).group.id :=
    congrFun (congrArg Listing.id hlisting)
  have hswept : s'.swept = s.swept := by rw [swept, swept, hmap, hsweep]
  refine ⟨fun k r hr => ?_, hswept ▸ h.copyWithin⟩
  rw [hcount, hid, hcapacity]
  exact h.registered k r (hmap ▸ hr)

/-- It is when a room comes in under a new id. -/
theorem Consistent.add {k' : BitVec 64} (h : s.Consistent) (hsweep : s'.sweep = s.sweep)
    (hlisting : listing s'.server = (listing s.server).add k')
    (hnew : s.server.stateGroupMap.get k' = none) (hcapacity : 8 ≤ s.server.roomCapacity) :
    s'.Consistent := by
  have hmap : s'.server.stateGroupMap = s.server.stateGroupMap.put k' s.server.roomCount :=
    congrArg Listing.map hlisting
  have hcount : s'.server.roomCount = s.server.roomCount + 1 := congrArg Listing.count hlisting
  have hcapacity' : s'.server.roomCapacity = s.server.roomCapacity :=
    congrArg Listing.capacity hlisting
  have hid : ∀ r, (s'.server.rooms r).group.id = Function.update
      (fun r => (s.server.rooms r).group.id) s.server.roomCount k' r :=
    congrFun (congrArg Listing.id hlisting)
  have hswept : s'.swept = s.swept.insert k' s.server.roomCount := by
    rw [swept, hmap, hsweep]
    rfl
  refine ⟨fun k r hr => ?_, hswept ▸ h.copyWithin.insert hnew⟩
  rw [hmap, HashMap.get_put_eq] at hr
  rw [hcount, hid, hcapacity']
  split at hr
  · next hk =>
    cases hr
    rw [Function.update_self]
    exact ⟨Nat.lt_succ_self _, hk.symm, hcapacity⟩
  · obtain ⟨hlt, hk, -⟩ := h.registered k r hr
    rw [Function.update_of_ne (Nat.ne_of_lt hlt)]
    exact ⟨Nat.lt_succ_of_lt hlt, hk, hcapacity⟩

/-- A step of the sweep adds nothing to the registry. -/
theorem Consistent.sweeping {m : SweptMap (BitVec 64) RoomRef} (h : s.Consistent)
    (hmap : ∀ k r, m.map.get k = some r → s.swept.map.get k = some r) (hm : m.CopyWithin) :
    (s.setSwept m).Consistent :=
  ⟨fun k r hr => h.registered k r (hmap k r hr), hm⟩

/-- Every step keeps a registry consistent. -/
theorem Consistent.step {op : Op} (h : s.Consistent) (hs : Step p s op s') : s'.Consistent := by
  cases hs
  cases op with
  | insert session cmd =>
    rcases after_insert_cases (p := p) s session cmd with
      hu | ⟨creator, r, -, hsweep, -, ⟨-, hlisting⟩ | ⟨hnew, -, hcapacity, hlisting⟩⟩
    · exact h.same hu.listing hu.sweep
    · exact h.same hlisting hsweep
    · exact h.add hsweep hlisting hnew hcapacity
  | enter i =>
    have hu := undisturbed_enter (p := p) s i
    exact h.same hu.listing hu.sweep
  | reply i =>
    have hu := undisturbed_reply (p := p) s i
    exact h.same hu.listing hu.sweep
  | copy =>
    refine h.sweeping (fun k r hr => ?_) h.copyWithin.copy
    rw [SweptMap.copy_map] at hr
    exact hr
  | drop =>
    refine h.sweeping (fun k r hr => ?_) h.copyWithin.drop
    rw [SweptMap.drop_map] at hr
    exact hr
  | publish => exact h.sweeping (fun _ _ hr => h.copyWithin.get_publish hr) h.copyWithin.publish
  | elsewhere op =>
    have hu := undisturbed_elsewhere (p := p) s op
    exact h.same hu.listing hu.sweep

end

/-! ## Rooms stay findable -/

/-- Some member of the room is online. -/
def HasOnline (s : Server) (r : RoomRef) : Prop :=
  ∃ id c, (s.rooms r).roomData.getCharacter id = some c ∧ c.isOffLine s.world = false

/-- The transition tells the creator of the room that it has been created. -/
def Replies (p : Platform) (r : RoomRef) (t : Transition RoomRegistry Op) : Prop :=
  ∃ i session creator, t.label = .reply i ∧
    t.before.creations[i]? = some ⟨session, creator, r, true⟩ ∧
    Returns (WebChatDispatcher.finishCreation p session r) t.before.server

/-- A room is found under its id once its creator has been told that it has been created, as long as
some member has been online ever since. -/
def StaysFindable (p : Platform) (ts : List (Transition RoomRegistry Op)) (s : RoomRegistry) :
    Prop :=
  ∀ us t vs r, ts = us ++ t :: vs → Replies p r t → (∀ v ∈ vs, HasOnline v.before.server r) →
    HasOnline s.server r →
      RoomStateGroupFactory.find s.server (t.before.server.rooms r).group.id = some r

/-- If the creator of the room is told in these transitions that it has been created, no member is
online then. -/
def RepliesOffline (p : Platform) (r : RoomRef) (vs : List (Transition RoomRegistry Op)) : Prop :=
  ∀ v ∈ vs, Replies p r v → ¬ HasOnline v.after.server r

/-- No CREATE_ROOM puts a room in the registry between the copy and the publication of a sweep, and
no sweep drops a room whose CREATE_ROOM is under way, unless all its members have gone offline when
the creator is told. The transitions `vs` come after `t`. -/
structure SparesCreations (p : Platform) (t : Transition RoomRegistry Op)
    (vs : List (Transition RoomRegistry Op)) : Prop where
  insert : ∀ session cmd, t.label = .insert session cmd →
    CreatesRoom t.before.server session cmd → t.before.sweep = .idle
  drop : ∀ copy, t.label = .drop → t.before.sweep = .copied copy → ∀ c ∈ t.before.creations,
    RoomStateGroupFactory.canDepose p t.before.server c.room = false ∨ RepliesOffline p c.room vs

/-- Before a sweep, and while no CREATE_ROOM is under way and none begins, there is nothing to
spare. -/
theorem SparesCreations.of_apart {p : Platform} {t : Transition RoomRegistry Op}
    {vs : List (Transition RoomRegistry Op)}
    (h : t.before.sweep = .idle ∨
      t.before.creations = [] ∧ ∀ session cmd, t.label ≠ .insert session cmd) :
    SparesCreations p t vs := by
  rcases h with hidle | ⟨hnone, hlabel⟩
  · refine ⟨fun _ _ _ _ => hidle, fun copy _ hcopied => ?_⟩
    rw [hidle] at hcopied
    cases hcopied
  · refine ⟨fun session cmd hl => absurd hl (hlabel session cmd), fun _ _ _ c hc => ?_⟩
    rw [hnone] at hc
    cases hc

/-- The registry keeps the room while its CREATE_ROOM is under way. -/
structure Secure (s : RoomRegistry) (r : RoomRef) : Prop extends s.Consistent where
  keeps : ∀ c ∈ s.creations, c.room = r → ∃ k, s.Keeps k r

/-- A transition spares the room: no CREATE_ROOM puts it in the registry during a sweep, and no
sweep drops it while its CREATE_ROOM is under way. -/
structure Spares (p : Platform) (r : RoomRef) (t : Transition RoomRegistry Op) : Prop where
  insert : ∀ session cmd, t.label = .insert session cmd →
    CreatesRoom t.before.server session cmd → t.before.sweep = .idle
  drop : ∀ copy, t.label = .drop → t.before.sweep = .copied copy → ∀ c ∈ t.before.creations,
    c.room = r → RoomStateGroupFactory.canDepose p t.before.server r = false

/-- A room whose creator is told while a member is online has been spared. -/
theorem SparesCreations.spares {p : Platform} {r : RoomRef} {t u : Transition RoomRegistry Op}
    {vs : List (Transition RoomRegistry Op)} (h : SparesCreations p u vs) (ht : t ∈ vs)
    (hreplies : Replies p r t) (honLine : HasOnline t.after.server r) : Spares p r u where
  insert := h.insert
  drop copy hl hcopied c hc hroom := by
    subst hroom
    rcases h.drop copy hl hcopied c hc with hkept | hoffline
    · exact hkept
    · exact absurd honLine (hoffline t ht hreplies)

section
variable {p : Platform} {s s' : RoomRegistry} {k : BitVec 64} {r : RoomRef}

/-- A room with an online member is not deposed. -/
theorem HasOnline.canDepose {s : Server} (h : HasOnline s r) :
    RoomStateGroupFactory.canDepose p s r = false := by
  obtain ⟨id, c, hmember, honLine⟩ := h
  refine Bool.eq_false_iff.2 fun hempty => ?_
  have hoff := RoomData.isEmpty_iff.1 hempty id c hmember
  exact Bool.false_ne_true (honLine.symm.trans hoff)

/-- A room that is put in the registry between two sweeps is kept. -/
theorem Consistent.keeps_inserted (h : s.Consistent) (hidle : s.sweep = .idle)
    (hsweep : s'.sweep = s.sweep)
    (hlisting : (s.server.stateGroupMap.get s.server.idCounter = some r ∧
        listing s'.server = listing s.server) ∨
      (s.server.stateGroupMap.get s.server.idCounter = none ∧ r = s.server.roomCount ∧
        8 ≤ s.server.roomCapacity ∧
        listing s'.server = (listing s.server).add s.server.idCounter)) :
    s'.Keeps s.server.idCounter r := by
  rcases hlisting with ⟨hget, hlisting⟩ | ⟨-, rfl, -, hlisting⟩
  · obtain ⟨hlt, hid, -⟩ := h.registered _ r hget
    exact Keeps.same ⟨.of_idle hidle hget, hlt, hid⟩ hlisting hsweep
  · have hmap : s'.server.stateGroupMap =
        s.server.stateGroupMap.put s.server.idCounter s.server.roomCount :=
      congrArg Listing.map hlisting
    have hcount : s'.server.roomCount = s.server.roomCount + 1 := congrArg Listing.count hlisting
    have hid := congrFun (congrArg Listing.id hlisting) s.server.roomCount
    refine ⟨.of_idle (hsweep.trans hidle) ?_, ?_, hid.trans (Function.update_self ..)⟩
    · rw [swept, hmap]
      exact HashMap.get_put _ _ _
    · rw [hcount]
      exact Nat.lt_succ_self _

/-- A step other than the first one of a CREATE_ROOM begins none. -/
theorem creations_after {op : Op} (hop : ∀ session cmd, op ≠ .insert session cmd)
    (hs : Step p s op s') : ∀ c ∈ s'.creations, ∃ c₀ ∈ s.creations, c.room = c₀.room := by
  cases hs
  cases op with
  | insert session cmd => exact absurd rfl (hop session cmd)
  | enter i => exact (undisturbed_enter s i).creations
  | reply i => exact (undisturbed_reply s i).creations
  | copy => exact fun c hc => ⟨c, hc, rfl⟩
  | drop => exact fun c hc => ⟨c, hc, rfl⟩
  | publish => exact fun c hc => ⟨c, hc, rfl⟩
  | elsewhere op => exact (undisturbed_elsewhere s op).creations

/-- Every step that spares the room keeps it in the registry. -/
theorem Secure.step {op : Op} (h : s.Secure r) (hs : Step p s op s')
    (hg : Spares p r ⟨s, op, s'⟩) : s'.Secure r := by
  refine ⟨h.toConsistent.step hs, ?_⟩
  have hold : ∀ c₀ ∈ s.creations, c₀.room = r → ∃ k, s'.Keeps k r := fun c₀ hc₀ hroom => by
    obtain ⟨k, hk⟩ := h.keeps c₀ hc₀ hroom
    exact ⟨k, hk.step hs fun copy hop hcopied => hg.drop copy hop hcopied c₀ hc₀ hroom⟩
  have hgone : (∀ c ∈ s'.creations, ∃ c₀ ∈ s.creations, c.room = c₀.room) →
      ∀ c ∈ s'.creations, c.room = r → ∃ k, s'.Keeps k r := fun hcreations c hc hroom => by
    obtain ⟨c₀, hc₀, hsame⟩ := hcreations c hc
    exact hold c₀ hc₀ (hsame.symm.trans hroom)
  by_cases hop : ∀ session cmd, op ≠ .insert session cmd
  · exact hgone (creations_after hop hs)
  push Not at hop
  obtain ⟨session, cmd, rfl⟩ := hop
  cases hs
  rcases after_insert_cases (p := p) s session cmd with
    hu | ⟨creator, r', hcreations, hsweep, hcreates, hlisting⟩
  · exact hgone hu.creations
  intro c hc hroom
  rw [hcreations, List.mem_append, List.mem_singleton] at hc
  rcases hc with hc | rfl
  · exact hold c hc hroom
  · have hcapacity : 8 ≤ s.server.roomCapacity := by
      rcases hlisting with ⟨hget, -⟩ | ⟨-, -, hcapacity, -⟩
      · exact (h.registered _ r' hget).2.2
      · exact hcapacity
    have hidle := hg.insert session cmd rfl (hcreates hcapacity)
    have hroom : r' = r := hroom
    exact ⟨_, hroom ▸ h.keeps_inserted hidle hsweep hlisting⟩

/-- In a run in which sweeps spare the rooms that are being created, every room stays findable. -/
theorem run_staysFindable {remoteAddress : SessionRef → Option String} {sendFails : Nat → Bool}
    {roomCapacity : Int} {m : WorkerManager RoomRef} {ts : List (Transition RoomRegistry Op)}
    (hr : Run (Step p) (initial (.initial (.initial remoteAddress sendFails) roomCapacity m)) ts s)
    (hg : ∀ us t vs, ts = us ++ t :: vs → SparesCreations p t vs) : StaysFindable p ts s := by
  rintro us t vs r rfl hreplies honLine honLineLast
  obtain ⟨hus, hs, hvs⟩ := hr.split
  have honLineAfter : HasOnline t.after.server r := by
    cases vs with
    | nil =>
      cases hvs.eq_of_nil
      exact honLineLast
    | cons v vs =>
      have hfirst : Run (Step p) t.after ([] ++ v :: vs) s := hvs
      have hbegins : v.before = t.after := hfirst.split.1.eq_of_nil
      exact hbegins ▸ honLine v List.mem_cons_self
  have hspares : ∀ u ∈ us, Spares p r u := fun u hu => by
    obtain ⟨us₁, us₂, rfl⟩ := List.append_of_mem hu
    have hmem : t ∈ us₂ ++ t :: vs := List.mem_append_right us₂ List.mem_cons_self
    exact (hg us₁ u (us₂ ++ t :: vs) (by simp)).spares hmem hreplies honLineAfter
  have hsecure : t.before.Secure r :=
    hus.guarded (I := fun s => s.Secure r) ⟨consistent_initial _ _ _, fun c hc => by cases hc⟩
      (fun _ _ _ h hs hg => h.step hs hg) hspares
  obtain ⟨i, session, creator, hlabel, hcreation, -⟩ := hreplies
  obtain ⟨k, hk⟩ := hsecure.keeps _ (List.mem_of_getElem? hcreation) rfl
  have hreplied : t.after.Keeps k r := hk.step hs fun copy hop => by
    rw [hlabel] at hop
    cases hop
  have hkept : s.Keeps k r :=
    hvs.guarded (I := fun s => s.Keeps k r) (G := fun v => HasOnline v.before.server r) hreplied
      (fun _ _ _ h hs honLine => h.step hs fun _ _ _ => honLine.canDepose) honLine
  rw [hk.id_eq]
  exact hkept.find

end

/-! ## Rooms that are lost -/

section
variable {p : Platform} {s s' : RoomRegistry} {k : BitVec 64}

/-- A room that is put in the registry during a sweep is not in the copy. -/
theorem Consistent.lacks_inserted (h : s.Consistent) (hcopy : s.sweep ≠ .idle)
    (hsweep : s'.sweep = s.sweep) (hlisting : listing s'.server = (listing s.server).add k)
    (hnew : s.server.stateGroupMap.get k = none) : s'.swept.Lacks k := by
  have hmap : s'.server.stateGroupMap = s.server.stateGroupMap.put k s.server.roomCount :=
    congrArg Listing.map hlisting
  have hswept : s'.swept = s.swept.insert k s.server.roomCount := by
    rw [swept, hmap, hsweep]
    rfl
  obtain ⟨copy, hc⟩ : ∃ copy, s.swept.sweep.copy? = some copy := by
    show ∃ copy, s.sweep.copy? = some copy
    cases hs : s.sweep with
    | idle => exact absurd hs hcopy
    | copied copy => exact ⟨copy, rfl⟩
    | dropped copy => exact ⟨copy, rfl⟩
  rw [hswept]
  exact h.copyWithin.lacks_insert hc hnew

/-- The copy lacks the room's id until it is published, and then the room is not found. -/
theorem lacks_step {op : Op} (h : s.swept.Lacks k) (hs : Step p s op s') :
    s'.swept.Lacks k ∨ (op = .publish ∧ RoomStateGroupFactory.find s'.server k = none) := by
  have hsame : s'.sweep = s.sweep → s'.swept.Lacks k := fun hsweep => by
    obtain ⟨copy, hc, hk⟩ := h
    exact ⟨copy, (congrArg Sweep.copy? hsweep).trans hc, hk⟩
  cases hs
  cases op with
  | insert session cmd =>
    rcases after_insert_cases (p := p) s session cmd with hu | ⟨_, _, -, hsweep, -⟩
    · exact .inl (hsame hu.sweep)
    · exact .inl (hsame hsweep)
  | enter i => exact .inl (hsame (undisturbed_enter s i).sweep)
  | reply i => exact .inl (hsame (undisturbed_reply s i).sweep)
  | copy => exact .inl h.copy
  | drop => exact .inl h.drop
  | publish =>
    rcases h.publish with hk | hk
    · exact .inr ⟨rfl, hk⟩
    · exact .inl hk
  | elsewhere op => exact .inl (hsame (undisturbed_elsewhere s op).sweep)

/-- A key that the copy lacks is lost at the next publication, whatever happens before it. -/
theorem run_lacks {ts : List (Transition RoomRegistry Op)} (hr : Run (Step p) s ts s')
    (h : s.swept.Lacks k) : s'.swept.Lacks k ∨
      ∃ t ∈ ts, t.label = .publish ∧ RoomStateGroupFactory.find t.after.server k = none := by
  induction hr with
  | nil => exact .inl h
  | snoc _ hs ih =>
    rcases ih with hk | ⟨t, ht, hlost⟩
    · rcases lacks_step hk hs with hk | ⟨hop, hfind⟩
      · exact .inl hk
      · exact .inr ⟨_, List.mem_append_right _ (List.mem_singleton.2 rfl), hop, hfind⟩
    · exact .inr ⟨t, List.mem_append_left _ ht, hlost⟩

/-- A new room that is put in the registry during a sweep is lost when the copy is published,
whoever is online then. -/
theorem inserted_lost {session : SessionRef} {cmd : Cmd} {creator : Character} {r : RoomRef}
    {server : Server} {ts : List (Transition RoomRegistry Op)} (h : s.Consistent)
    (hcopy : s.sweep ≠ .idle) (hnew : s.server.stateGroupMap.get s.server.idCounter = none)
    (hinsert : WebChatDispatcher.insertRoom p session cmd s.server = .ok (some (creator, r)) server)
    (hr : Run (Step p) (after p s (.insert session cmd)) ts s') :
    s'.swept.Lacks s.server.idCounter ∨ ∃ t ∈ ts, t.label = .publish ∧
      RoomStateGroupFactory.find t.after.server s.server.idCounter = none := by
  refine run_lacks hr ?_
  have hafter : after p s (.insert session cmd) =
      ⟨server, s.sweep, s.creations ++ [⟨session, creator, r, false⟩]⟩ := by
    simp only [after, hinsert]
  rcases insertRoom_cases (p := p) session cmd s.server with
    ⟨hne, -⟩ | ⟨creator', r', server', hinsert', -, ⟨hget, -⟩ | ⟨-, -, -, hlisting⟩⟩
  · exact absurd hinsert (hne _ _)
  · rw [hnew] at hget
    cases hget
  · cases hinsert.symm.trans hinsert'
    rw [hafter]
    exact h.lacks_inserted hcopy rfl hlisting hnew

end

/-! ## Alice's room -/

/-- Alice logs in and creates a room, and the room is put in the registry after the sweep has copied
it. -/
def lateInsertion : List Op :=
  [.elsewhere (.handle 0 loginAlice), .copy, .insert 0 createAlice, .enter 0, .reply 0, .drop,
    .publish]

/-- Alice logs in and creates a room, and the sweep drops from its copy the rooms that can be
deposed before she has entered hers. -/
def earlySweep : List Op :=
  [.elsewhere (.handle 0 loginAlice), .insert 0 createAlice, .copy, .drop, .enter 0, .reply 0,
    .publish]

/-- Alice is a member of the first room, and online. -/
def AliceOnline (s : RoomRegistry) : Prop :=
  (s.server.rooms 0).roomData.getCharacter "alice" = some ⟨0, "alice", none⟩ ∧
    Character.isOffLine s.server.world ⟨0, "alice", none⟩ = false

instance (s : RoomRegistry) : Decidable (AliceOnline s) := inferInstanceAs (Decidable (_ ∧ _))

/-- What shows that alice's room, of which she has been told, is lost. -/
theorem not_staysFindable (us vs : List (Transition RoomRegistry Op))
    {t : Transition RoomRegistry Op} {s : RoomRegistry} (hr : Replies .standard 0 t)
    (honLine : ∀ s' ∈ vs.map (·.before) ++ [s], AliceOnline s')
    (hlost : RoomStateGroupFactory.find s.server (t.before.server.rooms 0).group.id = none) :
    ¬ StaysFindable .standard (us ++ t :: vs) s := by
  intro h
  have hmember : ∀ s' ∈ vs.map (·.before) ++ [s], HasOnline s'.server 0 := fun s' hs' =>
    ⟨_, _, honLine s' hs'⟩
  have hfind := h us t vs 0 rfl hr
    (fun v hv => hmember _ (List.mem_append_left _ (List.mem_map_of_mem hv))) (hmember s (by simp))
  rw [hlost] at hfind
  cases hfind

/-- In both runs alice is told that her room has been created, and she stays online; after the
publication her room is not found. -/
theorem staysFindable_counterexample :
    (∃ s, Run (Step .standard) (initial .start)
        (transitions .standard (initial .start) lateInsertion) s ∧
      ¬ StaysFindable .standard (transitions .standard (initial .start) lateInsertion) s) ∧
    ∃ s, Run (Step .standard) (initial .start)
        (transitions .standard (initial .start) earlySweep) s ∧
      ¬ StaysFindable .standard (transitions .standard (initial .start) earlySweep) s := by
  refine ⟨⟨_, run_transitions _ _ _, ?_⟩, _, run_transitions _ _ _, ?_⟩
  · exact not_staysFindable [_, _, _, _] [_, _]
      ⟨0, 0, ⟨0, "alice", none⟩, rfl, by decide +kernel, (), _, rfl⟩ (by decide +kernel)
      (by decide +kernel)
  · exact not_staysFindable [_, _, _, _, _] [_]
      ⟨0, 0, ⟨0, "alice", none⟩, rfl, by decide +kernel, (), _, rfl⟩ (by decide +kernel)
      (by decide +kernel)

/-- Alice logs in and creates a room, and then the registry is swept. -/
def sweepAfterwards : List Op :=
  [.elsewhere (.handle 0 loginAlice), .insert 0 createAlice, .enter 0, .reply 0, .copy, .drop,
    .publish]

/-- Alice's room is found after the sweep. -/
theorem run_staysFindable_alice : ∃ s, Run (Step .standard) (initial .start)
    (transitions .standard (initial .start) sweepAfterwards) s ∧
      StaysFindable .standard (transitions .standard (initial .start) sweepAfterwards) s ∧
      RoomStateGroupFactory.find s.server 1 = some 0 := by
  have hr := run_transitions .standard sweepAfterwards (initial .start)
  refine ⟨_, hr, run_staysFindable hr fun us t vs hts => .of_apart ?_, by decide +kernel⟩
  have ht : t ∈ transitions .standard (initial .start) sweepAfterwards := by
    rw [hts]
    exact List.mem_append_right us List.mem_cons_self
  simp only [transitions, sweepAfterwards, trace, List.mem_cons, List.not_mem_nil, or_false] at ht
  rcases ht with rfl | rfl | rfl | rfl | rfl | rfl | rfl
  · exact .inl rfl
  · exact .inl rfl
  · exact .inl rfl
  · exact .inl rfl
  · exact .inl rfl
  · exact .inr ⟨rfl, fun _ _ h => by cases h⟩
  · exact .inr ⟨rfl, fun _ _ h => by cases h⟩

end RoomRegistry

end WebRtcNetty
