import WebRtcNetty.Html.CallNetwork

/-!
# Why a page calls

A page that gets a message of the signalling calls without asking its user, and a page that is
called answers without asking. Still every call has a reason: a user has clicked for it, and another
has said yes (`run_caused`), each of them for one call at most (`run_media_le`). The call is between
these two pages if the messages of every page go to one peer (`run_consented`). Otherwise a yes may
make a third page call, whose user has done neither (`called_unasked`).
-/

namespace WebRtcNetty.Html

open Js Runs

namespace Network

/-! ## Reasons -/

/-- The user of the page has clicked on the call button for this message. -/
def Clicked (ts : Trace) (q : PageRef) (msg : Message) : Prop :=
  ∃ t ∈ ts, t.label = .btnCall q msg.from msg.to ∧ msg.action = Action.call

/-- The message has arrived from page `p` at page `q`, and before that `p` had the reason `R` for
it. -/
def Arrived (R : Trace → PageRef → Message → Prop) (ts : Trace) (p q : PageRef) (msg : Message) :
    Prop :=
  ∃ us t vs, ts = us ++ t :: vs ∧ t.before.Hears t.label p q msg ∧ R us p msg

/-- The user of page `q` has said yes to the call of page `p`. -/
def Consented (ts : Trace) (p q : PageRef) (msg : Message) : Prop :=
  ∃ us t vs, ts = us ++ t :: vs ∧ t.label = .accept q ∧
    (t.before.clients q).dialog = some msg ∧ Arrived Clicked us p q msg

/-- The page has accepted a call with this message. -/
def Accepted (ts : Trace) (q : PageRef) (msg : Message) : Prop :=
  ∃ p call, Consented ts p q call ∧ msg = ⟨call.to, call.from, Action.accept⟩

/-- The page has confirmed with this message that there is the stream of a call of its own, which
it has made for an `accept`. -/
def Confirmed (ts : Trace) (q : PageRef) (msg : Message) : Prop :=
  ∃ us t vs k m p, ts = us ++ t :: vs ∧ t.label = .stream k ∧ t.before.media[k]? = some m ∧
    m.caller = q ∧ Arrived Accepted us p q m.message ∧
      msg = ⟨m.message.to, m.message.from, Action.acceptOk⟩

/-- A page has made a call since a message has arrived that its sender had reason for. -/
def Caused (ts : Trace) (m : MediaCall) : Prop :=
  m.peer = hashCode m.message.from ∧
    ∃ p, Arrived Accepted ts p m.caller m.message ∨ Arrived Confirmed ts p m.caller m.message

section
variable {ts : Trace} {p q : PageRef} {msg : Message} {m : MediaCall}
variable {R : Trace → PageRef → Message → Prop}

/-- A click stays one, however the run goes on. -/
theorem Clicked.append (h : Clicked ts q msg) (vs : Trace) : Clicked (ts ++ vs) q msg := by
  obtain ⟨t, ht, hclick⟩ := h
  exact ⟨t, List.mem_append_left vs ht, hclick⟩

/-- A message that has arrived stays so. -/
theorem Arrived.append (h : Arrived R ts p q msg) (vs : Trace) : Arrived R (ts ++ vs) p q msg := by
  obtain ⟨us, t, ws, rfl, harrives⟩ := h
  exact ⟨us, t, ws ++ vs, by simp, harrives⟩

/-- A consent stays one. -/
theorem Consented.append (h : Consented ts p q msg) (vs : Trace) :
    Consented (ts ++ vs) p q msg := by
  obtain ⟨us, t, ws, rfl, haccept⟩ := h
  exact ⟨us, t, ws ++ vs, by simp, haccept⟩

/-- A yes stays one. -/
theorem Accepted.append (h : Accepted ts q msg) (vs : Trace) : Accepted (ts ++ vs) q msg := by
  obtain ⟨p, call, hconsented, hmsg⟩ := h
  exact ⟨p, call, hconsented.append vs, hmsg⟩

/-- A confirmation stays one. -/
theorem Confirmed.append (h : Confirmed ts q msg) (vs : Trace) : Confirmed (ts ++ vs) q msg := by
  obtain ⟨us, t, ws, k, m, p, rfl, hstream⟩ := h
  exact ⟨us, t, ws ++ vs, k, m, p, by simp, hstream⟩

/-- Whether a call has been answered makes no difference. -/
theorem Caused.of_unanswered {m' : MediaCall} (h : Caused ts m')
    (heq : m'.unanswered = m.unanswered) : Caused ts m := by
  obtain ⟨caller, peer, message, answered⟩ := m
  obtain ⟨caller', peer', message', answered'⟩ := m'
  cases heq
  exact h

/-- What has caused a call stays so. -/
theorem Caused.append (h : Caused ts m) (vs : Trace) : Caused (ts ++ vs) m := by
  obtain ⟨hpeer, p, hp⟩ := h
  exact ⟨hpeer, p, hp.imp (·.append vs) (·.append vs)⟩

end

/-- Every message, dialog and call has a reason. -/
structure Reasons (ts : Trace) (n : Network) : Prop where
  said : ∀ q, ∀ msg ∈ (n.clients q).page.calls,
    Clicked ts q msg ∨ Accepted ts q msg ∨ Confirmed ts q msg
  asked : ∀ q msg, (n.clients q).dialog = some msg → ∃ p, Arrived Clicked ts p q msg
  called : ∀ m ∈ n.media, Caused ts m

section
variable {ts : Trace} {n n' : Network} {e : Event} {p q : PageRef} {msg : Message} {m : MediaCall}

/-- A yes is answered by an `accept`. -/
theorem Accepted.action (h : Accepted ts q msg) : msg.action = Action.accept := by
  obtain ⟨p, call, -, rfl⟩ := h
  rfl

/-- A confirmation is an `accept-ok`. -/
theorem Confirmed.action (h : Confirmed ts q msg) : msg.action = Action.acceptOk := by
  obtain ⟨us, t, ws, k, m, p, -, -, -, -, -, rfl⟩ := h
  rfl

/-- A message that arrives has been said. -/
theorem Hears.mem (h : n.Hears e p q msg) : msg ∈ (n.clients p).page.calls := by
  obtain ⟨i, id, -, hsent, -⟩ := h
  simp only [transmitted, Option.bind_eq_bind, Option.bind_eq_some_iff] at hsent
  obtain ⟨t, -, conn, -, message, hget, heq⟩ := hsent
  cases heq
  exact List.mem_of_getElem? hget

/-- A message that arrives as the last in a run. -/
theorem Arrived.last {R : Trace → PageRef → Message → Prop} (h : n.Hears e p q msg)
    (hR : R ts p msg) : Arrived R (ts ++ [⟨n, e, n'⟩]) p q msg :=
  ⟨ts, _, [], rfl, h, hR⟩

/-- What a page says it has reason for. -/
theorem Reasons.says (h : Reasons ts n) (hsay : n.Says e q msg) :
    Clicked (ts ++ [⟨n, e, n'⟩]) q msg ∨ Accepted (ts ++ [⟨n, e, n'⟩]) q msg ∨
      Confirmed (ts ++ [⟨n, e, n'⟩]) q msg := by
  rcases hsay with ⟨rfl, haction⟩ | ⟨call, rfl, hdialog, rfl⟩ |
    ⟨k, m, rfl, hget, rfl, haction, rfl⟩
  · exact .inl ⟨_, List.mem_append_right ts (List.mem_singleton_self _), rfl, haction⟩
  · obtain ⟨p, harrived⟩ := h.asked q call hdialog
    exact .inr (.inl ⟨p, call, ⟨ts, _, [], rfl, rfl, hdialog, harrived⟩, rfl⟩)
  · obtain ⟨-, p, hp⟩ := h.called m (List.mem_of_getElem? hget)
    rcases hp with hp | ⟨us, t, vs, -, -, hconfirmed⟩
    · exact .inr (.inr ⟨ts, _, [], k, m, p, rfl, rfl, hget, rfl, hp, rfl⟩)
    · rw [hconfirmed.action] at haction
      cases haction

/-- Every step has its reasons. -/
theorem Reasons.step (h : Reasons ts n) (hs : Step n e n') :
    Reasons (ts ++ [⟨n, e, n'⟩]) n' := by
  refine ⟨fun q msg hmem => ?_, fun q msg hdialog => ?_, fun m hm => ?_⟩
  · have hsaid : ∀ msg ∈ (n.clients q).page.calls, Clicked (ts ++ [⟨n, e, n'⟩]) q msg ∨
        Accepted (ts ++ [⟨n, e, n'⟩]) q msg ∨ Confirmed (ts ++ [⟨n, e, n'⟩]) q msg :=
      fun msg hmem => (h.said q msg hmem).imp (·.append _) (·.imp (·.append _) (·.append _))
    rcases (moves_step hs q).page with hpage | ⟨msg', hsay, hpage⟩ | ⟨conn, c, -, -, hpage⟩
    · exact hsaid msg (hpage ▸ hmem)
    · rw [hpage, Page.calls_sendMessage] at hmem
      rcases List.mem_append.1 hmem with hmem | hmem
      · exact hsaid msg hmem
      · cases List.mem_singleton.1 hmem
        exact h.says hsay
    · rw [hpage, Page.calls_opened] at hmem
      exact hsaid msg hmem
  · rcases (moves_step hs q).dialog msg hdialog with hdialog | ⟨haction, p, hears⟩
    · obtain ⟨p, harrived⟩ := h.asked q msg hdialog
      exact ⟨p, harrived.append _⟩
    · rcases h.said p msg hears.mem with hclicked | haccepted | hconfirmed
      · exact ⟨p, .last hears hclicked⟩
      · rw [haccepted.action] at haction
        cases haction
      · rw [hconfirmed.action] at haction
        cases haction
  · have hold : ∀ m' ∈ n.media, m'.unanswered = m.unanswered → Caused (ts ++ [⟨n, e, n'⟩]) m :=
      fun m' hm' heq => ((h.called m' hm').append [⟨n, e, n'⟩]).of_unanswered heq
    have hmem : m.unanswered ∈ n'.media.map (·.unanswered) := List.mem_map_of_mem hm
    rcases media_step hs with hmedia | ⟨p, q, msg, hears, haction, hmedia⟩
    · obtain ⟨m', hm', heq⟩ := List.mem_map.1 (hmedia ▸ hmem)
      exact hold m' hm' heq
    · rw [hmedia] at hmem
      rcases List.mem_append.1 hmem with hmem | hmem
      · obtain ⟨m', hm', heq⟩ := List.mem_map.1 hmem
        exact hold m' hm' heq
      have heq := List.mem_singleton.1 hmem
      obtain rfl : m.caller = q := congrArg MediaCall.caller heq
      obtain rfl : m.message = msg := congrArg MediaCall.message heq
      refine ⟨congrArg MediaCall.peer heq, p, ?_⟩
      rcases h.said p m.message hears.mem with hclicked | haccepted | hconfirmed
      · obtain ⟨t, -, -, hcall⟩ := hclicked
        rw [hcall] at haction
        rcases haction with haction | haction
        · cases haction
        · cases haction
      · exact .inl (.last hears haccepted)
      · exact .inr (.last hears hconfirmed)

/-- Everything in a run has its reasons. -/
theorem reasons (hr : Run Step init ts n) : Reasons ts n := by
  induction hr with
  | nil => exact ⟨fun _ _ h => absurd h List.not_mem_nil, fun _ _ h => (nomatch h),
      fun _ h => absurd h List.not_mem_nil⟩
  | snoc _ hs ih => exact ih.step hs

/-- No page calls without reason: in every run, it has got an `accept` from a page whose user has
said yes to a call that a user has clicked for, or an `accept-ok` from a page that has called for
such an `accept`. It calls the peer that the message names. -/
theorem run_caused (hr : Run Step init ts n) : ∀ m ∈ n.media, Caused ts m :=
  (reasons hr).called

end

/-! ## Who the messages go to -/

/-- A page has sent all its messages to one peer. -/
def OnePeerEach (n : Network) : Prop :=
  ∀ q, ∀ msg ∈ (n.clients q).page.calls, ∀ msg' ∈ (n.clients q).page.calls,
    hashCode msg.to = hashCode msg'.to

/-- The users click on the call button under the names that their pages are registered under. -/
def InOwnName (ts : Trace) : Prop :=
  ∀ t ∈ ts, ∀ q self target, t.label = .btnCall q self target →
    (t.before.clients q).HasId (hashCode self)

/-- One of the pages makes the call, and it goes to the other and to no third one. -/
def Between (n : Network) (m : MediaCall) (p q : PageRef) : Prop :=
  (m.caller = p ∧ ∀ r, (n.clients r).HasId m.peer ↔ r = q) ∨
    (m.caller = q ∧ ∀ r, (n.clients r).HasId m.peer ↔ r = p)

section
variable {ts : Trace} {n n' : Network} {e : Event} {p q : PageRef} {msg : Message} {id : Number}

/-- Where pages have one peer each, a message arrives at its addressee. -/
theorem hasId_of_arrived {R : Trace → PageRef → Message → Prop} (hr : Run Step init ts n)
    (hone : n.OnePeerEach) (h : Arrived R ts p q msg) : (n.clients q).HasId (hashCode msg.to) := by
  obtain ⟨us, t, vs, rfl, hears, -⟩ := h
  obtain ⟨hbefore, hs, hafter⟩ := hr.split
  have hlater : ∀ msg ∈ (t.before.clients p).page.calls, msg ∈ (n.clients p).page.calls :=
    fun msg hmem => calls_run (.cons hs hafter) hmem
  have hsaid := hlater msg hears.mem
  obtain ⟨i, id, -, hsent, hid⟩ := hears
  obtain ⟨first, hfirst, rfl⟩ := transmitted_run hbefore hsent
  rw [hone p msg hsaid first (hlater first hfirst)]
  exact hasId_run (.cons hs hafter) hid

/-- The pages of a call that has been consented to, where everybody clicks in their own name. -/
theorem hasId_of_consented (hr : Run Step init ts n) (hone : n.OnePeerEach) (hown : InOwnName ts)
    (h : Consented ts p q msg) :
    (n.clients p).HasId (hashCode msg.from) ∧ (n.clients q).HasId (hashCode msg.to) := by
  obtain ⟨us, t, vs, rfl, -, -, us', t', vs', rfl, hears, u, hu, hl, haction⟩ := h
  have harrived : Arrived Clicked (us' ++ t' :: vs' ++ t :: vs) p q msg :=
    ⟨us', t', vs' ++ t :: vs, by simp, hears, u, hu, hl, haction⟩
  refine ⟨?_, hasId_of_arrived hr hone harrived⟩
  have hmem : u ∈ us' ++ t' :: vs' ++ t :: vs := by simp [hu]
  obtain ⟨ws, ws', heq⟩ := List.append_of_mem hmem
  rw [heq] at hr
  obtain ⟨-, hs, hafter⟩ := hr.split
  exact hasId_run (.cons hs hafter) (hown u hmem p _ _ hl)

/-- A page that gets an `accept` is the one whose user has clicked, and the `accept` comes from the
page that has been called. -/
theorem consented_of_accepted (hr : Run Step init ts n) (hone : n.OnePeerEach) (hown : InOwnName ts)
    {us vs : Trace} (hts : ts = us ++ vs) (h : Arrived Accepted us q p msg) :
    ∃ call, Consented ts p q call ∧ msg = ⟨call.to, call.from, Action.accept⟩ ∧
      (n.clients p).HasId (hashCode call.from) ∧ (n.clients q).HasId (hashCode call.to) := by
  subst hts
  have hp := hasId_of_arrived hr hone (h.append vs)
  obtain ⟨us', t, vs', rfl, -, p', call, hconsented, rfl⟩ := h
  have hconsented' : Consented (us' ++ t :: vs' ++ vs) p' q call := by
    have := hconsented.append (t :: vs' ++ vs)
    rwa [← List.append_assoc] at this
  obtain ⟨hclicked, hyes⟩ := hasId_of_consented hr hone hown hconsented'
  obtain rfl := hasId_unique hr _ _ _ hp hclicked
  exact ⟨call, hconsented', rfl, hclicked, hyes⟩

/-- In every run in which the messages of each page go to one peer, and everybody clicks in their
own name, every call is between the page whose user has clicked for it and the page whose user has
said yes to it. -/
theorem run_consented (hr : Run Step init ts n) (hone : n.OnePeerEach) (hown : InOwnName ts) :
    ∀ m ∈ n.media, ∃ p q msg, Consented ts p q msg ∧ n.Between m p q := by
  intro m hm
  have hunique := hasId_unique hr
  have honly : ∀ {p r : PageRef} {id : Number}, (n.clients p).HasId id →
      ((n.clients r).HasId id ↔ r = p) := fun hp =>
    ⟨fun hr => hunique _ _ _ hr hp, fun heq => heq ▸ hp⟩
  obtain ⟨hpeer, q, harrived | harrived⟩ := run_caused hr m hm
  · obtain ⟨call, hconsented, hmsg, -, hyes⟩ :=
      consented_of_accepted hr hone hown (List.append_nil ts).symm harrived
    refine ⟨m.caller, q, call, hconsented, .inl ⟨rfl, fun r => ?_⟩⟩
    rw [hpeer, hmsg]
    exact honly hyes
  · -- The page that confirms has clicked, so the page that it confirms to has said yes.
    have hcaller := hasId_of_arrived hr hone harrived
    obtain ⟨us, t, vs, hts, -, us', t', vs', k, m₀, q', hus, -, -, rfl, haccepted, hmsg⟩ := harrived
    have hprefix : ts = us' ++ (t' :: vs' ++ t :: vs) := by rw [hts, hus, List.append_assoc]
    obtain ⟨call, hconsented, hmsg₀, hclicked, hyes⟩ :=
      consented_of_accepted hr hone hown hprefix haccepted
    rw [hmsg, hmsg₀] at hcaller
    refine ⟨m₀.caller, q', call, hconsented, .inr ⟨hunique _ _ _ hcaller hyes, fun r => ?_⟩⟩
    rw [hpeer, hmsg, hmsg₀]
    exact honly hclicked

end

/-! ## How many calls there are -/

/-- The page that the event makes send a message with the action. -/
def speaks (a : List UInt16) (t : Transition Network Event) : Option PageRef :=
  match t.label with
  | .btnCall q _ _ => if a = Action.call then some q else none
  | .accept q => if a = Action.accept then some q else none
  | .stream k =>
    match t.before.media[k]? with
    | some m =>
      if m.message.action = Action.accept ∧ a = Action.acceptOk then some m.caller else none
    | none => none
  | .register .. | .gotStream _ | .opened .. | .data .. | .cancel _ | .answer .. => none

/-- The pages that a run makes send a message with the action, in order. -/
def speakers (a : List UInt16) (ts : Trace) : List PageRef := ts.filterMap (speaks a)

/-- The page that a message with the action arrives from. -/
def source (a : List UInt16) (t : Transition Network Event) : Option PageRef :=
  match t.label with
  | .data p _ _ => if (arrival p t).any (·.action = a) then some p else none
  | .register .. | .gotStream _ | .btnCall .. | .opened .. | .accept _ | .cancel _ | .answer ..
  | .stream _ => none

/-- The pages that messages with the action arrive from, in order. -/
def sources (a : List UInt16) (ts : Trace) : List PageRef := ts.filterMap (source a)

section
variable {ts : Trace} {n n' : Network} {e : Event} {p q : PageRef} {msg : Message}
variable {a : List UInt16}

/-- A page that says something speaks. -/
theorem Says.speaks (h : n.Says e q msg) : speaks msg.action ⟨n, e, n'⟩ = some q := by
  rcases h with ⟨rfl, haction⟩ | ⟨call, rfl, -, rfl⟩ | ⟨k, m, rfl, hget, rfl, haction, rfl⟩
  · exact if_pos haction
  · show (if Action.accept = Action.accept then some q else none) = some q
    exact if_pos rfl
  · rw [Network.speaks]
    dsimp only
    rw [hget]
    exact if_pos ⟨haction, rfl⟩

/-- A page has not sent more messages with the action than it has been made to. -/
theorem countP_calls_le (hr : Run Step init ts n) (q : PageRef) (a : List UInt16) :
    (n.clients q).page.calls.countP (·.action = a) ≤ (speakers a ts).count q := by
  induction hr with
  | nil => exact Nat.zero_le _
  | @snoc ts n n' e hr hs ih =>
    have hmono : (speakers a ts).count q ≤ (speakers a (ts ++ [⟨n, e, n'⟩])).count q := by
      rw [speakers, speakers, List.filterMap_append, List.count_append]
      exact Nat.le_add_right _ _
    rcases (moves_step hs q).page with hpage | ⟨msg, hsay, hpage⟩ | ⟨conn, c, -, -, hpage⟩
    · rw [hpage]
      exact ih.trans hmono
    · rw [hpage, Page.calls_sendMessage, List.countP_append, List.countP_singleton, speakers,
        List.filterMap_append, List.count_append]
      refine Nat.add_le_add ih ?_
      split
      · next haction =>
        obtain rfl : msg.action = a := of_decide_eq_true haction
        rw [List.filterMap_cons, hsay.speaks]
        simp
      · exact Nat.zero_le _
    · rw [hpage, Page.calls_opened]
      exact ih.trans hmono

/-- A page is the source if a message with the action arrives from it. -/
theorem source_eq (a : List UInt16) (t : Transition Network Event) (p : PageRef) :
    (source a t).toList.count p = (arrival p t).toList.countP (·.action = a) := by
  obtain ⟨n, e, n'⟩ := t
  cases e with
  | data q i q' =>
    by_cases hq : q = p
    · subst hq
      unfold source
      dsimp only
      generalize arrival q ⟨n, .data q i q', n'⟩ = msg?
      cases msg? with
      | none => rfl
      | some msg =>
        by_cases haction : msg.action = a
        · simp [haction]
        · simp [haction]
    · have hnone : arrival p ⟨n, .data q i q', n'⟩ = none :=
        arrival_of_ne fun i' q'' heq => hq (by cases heq; rfl)
      rw [hnone, source]
      dsimp only
      split
      · simp [hq]
      · rfl
  | register q name => rfl
  | gotStream q => rfl
  | btnCall q self target => rfl
  | opened q conn => rfl
  | accept q => rfl
  | cancel q => rfl
  | answer q k => rfl
  | stream k => rfl

/-- The sources of a run with one more transition. -/
theorem sources_snoc (a : List UInt16) (ts : Trace) (t : Transition Network Event) :
    sources a (ts ++ [t]) = sources a ts ++ (source a t).toList := by
  rw [sources, List.filterMap_append, List.filterMap_cons]
  cases source a t with
  | none => rfl
  | some q => rfl

/-- As many messages with the action arrive from a page as have arrived from it. -/
theorem count_sources (p : PageRef) (a : List UInt16) (ts : Trace) :
    (sources a ts).count p = (heard p ts).countP (·.action = a) := by
  induction ts using List.reverseRecOn with
  | nil => rfl
  | append_singleton ts t ih =>
    rw [sources_snoc, heard_snoc, List.count_append, List.countP_append, ih, source_eq]

/-- There are no more calls for messages with the action than such messages have arrived. -/
theorem countP_media_le (hr : Run Step init ts n) (a : List UInt16) :
    n.media.countP (·.message.action = a) ≤ (sources a ts).length := by
  have hview : ∀ n : Network, n.media.countP (·.message.action = a) =
      (n.media.map (·.unanswered)).countP (·.message.action = a) := fun n => by
    rw [List.countP_map]
    rfl
  induction hr with
  | nil => exact Nat.zero_le _
  | @snoc ts n n' e hr hs ih =>
    rw [hview] at ih ⊢
    rw [sources_snoc, List.length_append]
    rcases media_step hs with hmedia | ⟨p, q, msg, ⟨i, id, rfl, hsent, -⟩, -, hmedia⟩
    · rw [hmedia]
      exact ih.trans (Nat.le_add_right _ _)
    · rw [hmedia, List.countP_append, List.countP_singleton]
      refine Nat.add_le_add ih ?_
      split
      · next haction =>
        have hsource : source a ⟨n, .data p i q, n'⟩ = some p := by
          unfold source
          dsimp only
          rw [arrival_data hsent]
          exact if_pos haction
        rw [hsource]
        exact le_refl 1
      · exact Nat.zero_le _

/-- Each click on the call button, each yes and each stream leads to one call at most: in every run
there are no more calls for messages with an action than there are events that make a page send
such a message. -/
theorem run_media_le (hr : Run Step init ts n) (a : List UInt16) :
    n.media.countP (·.message.action = a) ≤ (speakers a ts).length := by
  refine (countP_media_le hr a).trans (List.Subperm.length_le ?_)
  refine List.subperm_ext_iff.2 fun p _ => ?_
  rw [count_sources]
  exact ((heard_subperm hr).countP_le _).trans (countP_calls_le hr p a)

end

/-! ## Three users -/

def userA : List UInt16 := [97]
def userB : List UInt16 := [98]
def userC : List UInt16 := [99]

/-- The pages of the three users, registered in their names. -/
def registered : Network where
  clients q := { Client.init with peer := match q with
    | 0 => some (some (hashCode userA))
    | 1 => some (some (hashCode userB))
    | 2 => some (some (hashCode userC))
    | _ + 3 => none }
  arrived _ := []
  media := []

/-- Three pages that have registered. -/
theorem registered_eq :
    (((init.setClient 0 { Client.init with peer := some (some (hashCode userA)) }).setClient 1
      { Client.init with peer := some (some (hashCode userB)) }).setClient 2
      { Client.init with peer := some (some (hashCode userC)) }) = registered := by
  refine congrArg (Network.mk · (fun _ => []) []) (funext fun q => ?_)
  match q with
  | 0 | 1 | 2 | _ + 3 => rfl

/-- They have done so one after another. -/
theorem registered_run : ∃ ts, Run Step init ts registered ∧
    ts.map (·.label) = [.register 0 userA, .register 1 userB, .register 2 userC] := by
  have hr := Run.nil.snoc (show Step init (.register 0 userA) _ from
    .register rfl (show hashCode userA = .int 97 from rfl) (by decide) fun q h => nomatch h)
  have hr := hr.snoc (show Step _ (.register 1 userB) _ from
    .register rfl (show hashCode userB = .int 98 from rfl) (by decide) fun q h => by
      match q with
      | 0 => cases h
      | _ + 1 => cases h)
  have hr := hr.snoc (show Step _ (.register 2 userC) _ from
    .register rfl (show hashCode userC = .int 99 from rfl) (by decide) fun q h => by
      match q with
      | 0 => cases h
      | 1 => cases h
      | _ + 2 => cases h)
  exact ⟨_, registered_eq ▸ hr, rfl⟩

/-- `b` says yes to the call of `a`, whose page calls. -/
theorem call_run : ∃ ts n, Run Step init ts n ∧
    n.media = [⟨0, hashCode userB, ⟨userB, userA, Action.accept⟩, false⟩] ∧
    n.OnePeerEach ∧ InOwnName ts := by
  obtain ⟨ts, hr, hl⟩ := registered_run
  have hr := hr.snoc (.gotStream _ 0)
  have hr := hr.snoc (.btnCall _ 0 userA userB)
  have hr := hr.snoc (show Step _ (.opened 0 0) _ from .opened rfl rfl)
  have hr := hr.snoc (show Step _ (.data 0 0 1) _ from .data (by decide) rfl rfl)
  have hr := hr.snoc (.accept _ 1)
  have hr := hr.snoc (show Step _ (.opened 1 0) _ from .opened rfl rfl)
  have hr := hr.snoc (show Step _ (.data 1 0 0) _ from .data (by decide) rfl rfl)
  refine ⟨_, _, hr, rfl, fun q => ?_, ?_⟩
  · match q with
    | 0 =>
      intro msg hmsg msg' hmsg'
      cases List.mem_singleton.1 hmsg
      cases List.mem_singleton.1 hmsg'
      rfl
    | 1 =>
      intro msg hmsg msg' hmsg'
      cases List.mem_singleton.1 hmsg
      cases List.mem_singleton.1 hmsg'
      rfl
    | _ + 2 => exact fun msg hmsg => absurd hmsg List.not_mem_nil
  · intro t ht q self target hlabel
    simp only [List.mem_append, List.mem_singleton] at ht
    rcases ht with ((((((ht | rfl) | rfl) | rfl) | rfl) | rfl) | rfl) | rfl
    · have hmem := List.mem_map_of_mem (f := fun t : Transition Network Event => t.label) ht
      rw [hl, hlabel] at hmem
      simp at hmem
    all_goals cases hlabel
    rfl

/-- The page of `a` has a reason for its call. -/
theorem run_caused_call : ∃ ts n m, Run Step init ts n ∧ m ∈ n.media ∧ Caused ts m := by
  obtain ⟨ts, n, hr, hmedia, -⟩ := call_run
  have hm : ⟨0, hashCode userB, ⟨userB, userA, Action.accept⟩, false⟩ ∈ n.media := by
    rw [hmedia]
    exact List.mem_singleton_self _
  exact ⟨ts, n, _, hr, hm, run_caused hr _ hm⟩

/-- A call with a consent. -/
theorem run_consented_call : ∃ ts n m p q msg, Run Step init ts n ∧ m ∈ n.media ∧
    Consented ts p q msg ∧ n.Between m p q := by
  obtain ⟨ts, n, hr, hmedia, hone, hown⟩ := call_run
  have hm : ⟨0, hashCode userB, ⟨userB, userA, Action.accept⟩, false⟩ ∈ n.media := by
    rw [hmedia]
    exact List.mem_singleton_self _
  obtain ⟨p, q, msg, hconsented⟩ := run_consented hr hone hown _ hm
  exact ⟨ts, n, _, p, q, msg, hr, hm, hconsented⟩

/-- One call, and one yes. -/
theorem run_media_le_call : ∃ ts n, Run Step init ts n ∧
    n.media.countP (·.message.action = Action.accept) = 1 ∧
    1 ≤ (speakers Action.accept ts).length := by
  obtain ⟨ts, n, hr, hmedia, -⟩ := call_run
  have hone : n.media.countP (·.message.action = Action.accept) = 1 := by
    rw [hmedia]
    rfl
  exact ⟨ts, n, hr, hone, hone ▸ run_media_le hr Action.accept⟩

/-- The page of `b` has called `c` before, so that its yes to `a` makes the page of `c` call, whose
user has neither clicked nor said yes. -/
theorem called_unasked : ∃ ts n, Run Step init ts n ∧ InOwnName ts ∧
    (∃ m ∈ n.media, m.caller = 2 ∧ m.peer = hashCode userB) ∧
    ∀ t ∈ ts, t.label ≠ .accept 2 ∧ ∀ self target, t.label ≠ .btnCall 2 self target := by
  obtain ⟨ts, hr, hl⟩ := registered_run
  have hr := hr.snoc (.gotStream _ 2)
  have hr := hr.snoc (.btnCall _ 1 userB userC)
  have hr := hr.snoc (show Step _ (.opened 1 0) _ from .opened rfl rfl)
  have hr := hr.snoc (show Step _ (.data 1 0 2) _ from .data (by decide) rfl rfl)
  have hr := hr.snoc (.btnCall _ 0 userA userB)
  have hr := hr.snoc (show Step _ (.opened 0 0) _ from .opened rfl rfl)
  have hr := hr.snoc (show Step _ (.data 0 0 1) _ from .data (by decide) rfl rfl)
  have hr := hr.snoc (.accept _ 1)
  have hr := hr.snoc (show Step _ (.data 1 1 2) _ from .data (by decide) rfl rfl)
  have hlabels : ∀ t ∈ ts, t.label = .register 0 userA ∨ t.label = .register 1 userB ∨
      t.label = .register 2 userC := fun t ht => by
    have hmem := List.mem_map_of_mem (f := fun t : Transition Network Event => t.label) ht
    rw [hl] at hmem
    simpa using hmem
  refine ⟨_, _, hr, ?_, ⟨_, List.mem_singleton_self _, rfl, rfl⟩, ?_⟩
  · intro t ht q self target hlabel
    simp only [List.mem_append, List.mem_singleton] at ht
    rcases ht with ((((((((ht | rfl) | rfl) | rfl) | rfl) | rfl) | rfl) | rfl) | rfl) | rfl
    · have := hlabels t ht
      simp [hlabel] at this
    all_goals cases hlabel
    · rfl
    · rfl
  · intro t ht
    simp only [List.mem_append, List.mem_singleton] at ht
    rcases ht with ((((((((ht | rfl) | rfl) | rfl) | rfl) | rfl) | rfl) | rfl) | rfl) | rfl
    · rcases hlabels t ht with h | h | h
      all_goals rw [h]; exact ⟨nofun, nofun⟩
    all_goals exact ⟨nofun, nofun⟩

end Network

end WebRtcNetty.Html
