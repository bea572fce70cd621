import Mathlib.Logic.Function.Basic
import WebRtcNetty.Html.VideoCall

/-!
# Calls between video pages

Any number of pages, the messages between them, and their calls. A click on the call button sends a
`call`; the page it arrives at asks its user, and a yes is answered by an `accept`; the page that
this arrives at calls the peer that it comes from, and when the stream of that call is there it
sends an `accept-ok`, on which the other page calls back. A page answers every call it gets, without
asking, so what protects a user's camera is that nobody calls without reason.

Every call has a reason (`run_caused`). It is the right one if the pages' messages go to one peer
each (`run_consented`); otherwise a yes may make a third page call, whose user has neither called
nor accepted (`called_unasked`).

The messages of a connection may arrive in any order, since each is read into a buffer on its own
before it is sent. Whether the other peer is there when a connection opens makes no difference here,
since nothing is delivered to a peer that is not.
-/

namespace WebRtcNetty.Html

open Js Runs

namespace Action

/-! Reference: the actions of `videocall.js`, as code units. -/

def call : List UInt16 := [99, 97, 108, 108]
def accept : List UInt16 := [97, 99, 99, 101, 112, 116]
def acceptOk : List UInt16 := [97, 99, 99, 101, 112, 116, 45, 111, 107]

end Action

/-! ## Pages -/

abbrev PageRef := Nat

/-- A page. `peer` is its peer with the id that it is known by, if it has one that others can know;
`dialog` is the message that the page asks its user about. -/
structure Client where
  peer : Option (Option Number)
  page : Page
  localStream : Bool
  dialog : Option Message
  remoteVideo : Option Nat

namespace Client

def init : Client where
  peer := none
  page := .init
  localStream := false
  dialog := none
  remoteVideo := none

/-- The peer server knows the page under the id. -/
def HasId (c : Client) (id : Number) : Prop := c.peer = some (some id)

/-- Reference: `sendMessage` (`videocall.js`), which throws while there is no peer. -/
def sendMessage (c : Client) (message : Message) : Client :=
  match c.peer with
  | some _ => { c with page := c.page.sendMessage message }
  | none => c

/-- Reference: `btnCall.onclick` (`videocall.js`), with the values of the two text fields. -/
def btnCall (c : Client) (self target : List UInt16) : Client :=
  if target.length = 0 then c else c.sendMessage ⟨self, target, Action.call⟩

/-- Reference: the button `Accept` of the dialog (`videocall.js`). -/
def accept (c : Client) : Client :=
  match c.dialog with
  | some msg => { c with dialog := none }.sendMessage ⟨msg.to, msg.from, Action.accept⟩
  | none => c

/-- Reference: the button `Cancel` of the dialog (`videocall.js`). -/
def cancel (c : Client) : Client := { c with dialog := none }

end Client

/-! ## The network -/

/-- A call of `peer.call`, with the message that it answers. -/
structure MediaCall where
  caller : PageRef
  peer : Number
  message : Message
  answered : Bool

/-- The call without its answer. -/
def MediaCall.unanswered (m : MediaCall) : MediaCall := { m with answered := false }

/-- The pages, the places of what has arrived in what each has transmitted, and the calls. -/
structure Network where
  clients : PageRef → Client
  arrived : PageRef → List Nat
  media : List MediaCall

namespace Network

def init : Network where
  clients := fun _ => .init
  arrived := fun _ => []
  media := []

/-- Another state of a page. -/
def setClient (n : Network) (q : PageRef) (c : Client) : Network :=
  { n with clients := Function.update n.clients q c }

/-- What the page has transmitted at place `i`: the peer it is for, and the message. -/
def transmitted (n : Network) (q : PageRef) (i : Nat) : Option (Number × Message) := do
  let t ← (n.clients q).page.sent[i]?
  let conn ← (n.clients q).page.connections[t.conn]?
  let message ← (n.clients q).page.calls[t.call]?
  return (conn.peer, message)

/-- `peer.call(hashCode(msg.from), localStream)`, which makes no call while there is no stream. -/
def call (n : Network) (q : PageRef) (msg : Message) : Network :=
  if (n.clients q).localStream then
    { n with media := n.media ++ [⟨q, hashCode msg.from, msg, false⟩] }
  else n

/-- Reference: the handler of `data` (`videocall.js`). -/
def data (n : Network) (q : PageRef) (msg : Message) : Network :=
  let n := if msg.action = Action.call then
    n.setClient q { n.clients q with dialog := some msg } else n
  let n := if msg.action = Action.accept then n.call q msg else n
  if msg.action = Action.acceptOk then n.call q msg else n

/-- Reference: the handlers of `stream` (`videocall.js`), of which the one of a call that answers an
`accept` confirms it. -/
def stream (n : Network) (k : Nat) (m : MediaCall) : Network :=
  let c := { n.clients m.caller with remoteVideo := some k }
  n.setClient m.caller <|
    if m.message.action = Action.accept then
      c.sendMessage ⟨m.message.to, m.message.from, Action.acceptOk⟩
    else c

inductive Event
  | register (q : PageRef) (name : List UInt16)
  | gotStream (q : PageRef)
  | btnCall (q : PageRef) (self target : List UInt16)
  | opened (q : PageRef) (conn : Nat)
  | data (q : PageRef) (i : Nat) (q' : PageRef)
  | accept (q : PageRef)
  | cancel (q : PageRef)
  | answer (q : PageRef) (k : Nat)
  | stream (k : Nat)

/-- What may happen. PeerJS refuses a negative id and ignores the id 0, for which the peer server
makes one up. -/
inductive Step : Network → Event → Network → Prop
  | register {n : Network} {q : PageRef} {name : List UInt16} {h : Int} :
      (n.clients q).peer = none → hashCode name = .int h → 0 < h →
      (∀ q', ¬ (n.clients q').HasId (hashCode name)) →
      Step n (.register q name)
        (n.setClient q { n.clients q with peer := some (some (hashCode name)) })
  | registerAnonymous {n : Network} {q : PageRef} {name : List UInt16} :
      (n.clients q).peer = none → name.length ≠ 0 → hashCode name = .int 0 →
      Step n (.register q name) (n.setClient q { n.clients q with peer := some none })
  | gotStream (n : Network) (q : PageRef) :
      Step n (.gotStream q) (n.setClient q { n.clients q with localStream := true })
  | btnCall (n : Network) (q : PageRef) (self target : List UInt16) :
      Step n (.btnCall q self target) (n.setClient q ((n.clients q).btnCall self target))
  | opened {n : Network} {q : PageRef} {conn : Nat} {c : Connection} :
      (n.clients q).page.connections[conn]? = some c → c.isOpen = false →
      Step n (.opened q conn)
        (n.setClient q { n.clients q with page := (n.clients q).page.opened conn })
  | data {n : Network} {q q' : PageRef} {i : Nat} {id : Number} {msg : Message} :
      i ∉ n.arrived q → n.transmitted q i = some (id, msg) → (n.clients q').HasId id →
      Step n (.data q i q')
        ({ n with arrived := Function.update n.arrived q (n.arrived q ++ [i]) }.data q' msg)
  | accept (n : Network) (q : PageRef) :
      Step n (.accept q) (n.setClient q (n.clients q).accept)
  | cancel (n : Network) (q : PageRef) :
      Step n (.cancel q) (n.setClient q (n.clients q).cancel)
  /-- Reference: the handler of `call` (`videocall.js`). -/
  | answer {n : Network} {q : PageRef} {k : Nat} {m : MediaCall} :
      n.media[k]? = some m → (n.clients q).HasId m.peer →
      Step n (.answer q k)
        { n with
          media := n.media.modify k fun m => { m with answered := (n.clients q).localStream } }
  | stream {n : Network} {k : Nat} {m : MediaCall} :
      n.media[k]? = some m → m.answered = true → Step n (.stream k) (n.stream k m)

end Network

/-! ## What has been said -/

namespace Page

/-- A message that is sent is no new call of `sendMessage`. -/
theorem calls_send (p : Page) (call : Nat) : (p.send call).calls = p.calls := by
  unfold send
  cases p.localConn with
  | none => rfl
  | some conn =>
    dsimp only
    split
    · rfl
    · rfl

/-- A page remembers the message of every call of `sendMessage`. -/
theorem calls_sendMessage (p : Page) (message : Message) :
    (p.sendMessage message).calls = p.calls ++ [message] := by
  unfold sendMessage
  dsimp only
  split
  · rw [calls_send]
    cases p.localConn with
    | none => rfl
    | some conn => rfl
  · cases p.localConn with
    | none => rfl
    | some conn => rfl

/-- Neither is a connection that opens. -/
theorem calls_opened (p : Page) (conn : Nat) : (p.opened conn).calls = p.calls := by
  have hfold : ∀ (handlers : List Nat) (p : Page), (handlers.foldl send p).calls = p.calls := by
    intro handlers
    induction handlers with
    | nil => exact fun _ => rfl
    | cons call handlers ih => exact fun p => (ih _).trans (calls_send p call)
  exact hfold _ _

/-- What has been sent stays so. -/
theorem sent_send (p : Page) (call : Nat) : p.sent <+: (p.send call).sent := by
  unfold send
  split
  · split
    · exact List.prefix_append _ _
    · exact List.prefix_rfl
  · exact List.prefix_rfl

/-- What has been transmitted stays so. -/
theorem sent_sendMessage (p : Page) (message : Message) :
    p.sent <+: (p.sendMessage message).sent := by
  have hsame : ∀ p' : Page, p'.sent = p.sent →
      p.sent <+: (if p'.localConn.any p'.isOpen then p'.send p.calls.length else p').sent := by
    intro p' h
    split
    · exact h ▸ sent_send p' _
    · exact h ▸ List.prefix_rfl
  unfold sendMessage
  refine hsame _ ?_
  cases p.localConn with
  | none => rfl
  | some conn => rfl

/-- It does when a connection opens. -/
theorem sent_opened (p : Page) (conn : Nat) : p.sent <+: (p.opened conn).sent := by
  have hfold : ∀ (handlers : List Nat) (p : Page), p.sent <+: (handlers.foldl send p).sent := by
    intro handlers
    induction handlers with
    | nil => exact fun _ => List.prefix_rfl
    | cons call handlers ih => exact fun p => (sent_send p call).trans (ih _)
  exact hfold _ { p with
    connections := p.connections.modify conn fun c => { c with isOpen := true } }

/-- A page transmits the messages of its calls, of each once and in the order of the calls. -/
theorem sent_of_run {ts : List (Transition Page Html.Event)} {p : Page} (h : Run Step .init ts p) :
    (p.sent.map (·.call)).Pairwise (· < ·) ∧ ∀ t ∈ p.sent, t.call < p.calls.length := by
  rcases eq_of_run h with ⟨rfl, -⟩ | ⟨first, before, rfl, -⟩ | ⟨first, before, after, rfl, -⟩
  · exact ⟨.nil, fun _ ht => absurd ht List.not_mem_nil⟩
  · exact ⟨.nil, fun _ ht => absurd ht List.not_mem_nil⟩
  · rw [sent_talking]
    refine ⟨List.pairwise_cons.2 ⟨fun i hi => ?_, List.pairwise_lt_range'⟩, fun t ht => ?_⟩
    · have := (List.mem_range'_1.1 hi).1
      omega
    · have hcall : t.call ∈ (talking first before after).sent.map (·.call) :=
        List.mem_map_of_mem ht
      rw [sent_talking, List.mem_cons, List.mem_range'_1] at hcall
      simp only [talking, List.length_cons, List.length_append]
      omega

end Page

namespace Network

/-- The event is one in which the page sends the message. -/
def Says (n : Network) (e : Event) (q : PageRef) (m : Message) : Prop :=
  (e = .btnCall q m.from m.to ∧ m.action = Action.call) ∨
  (∃ msg, e = .accept q ∧ (n.clients q).dialog = some msg ∧
    m = ⟨msg.to, msg.from, Action.accept⟩) ∨
  ∃ k c, e = .stream k ∧ n.media[k]? = some c ∧ c.caller = q ∧
    c.message.action = Action.accept ∧ m = ⟨c.message.to, c.message.from, Action.acceptOk⟩

/-- The event is one in which the message arrives at a page, from another. -/
def Hears (n : Network) (e : Event) (p q : PageRef) (m : Message) : Prop :=
  ∃ i id, e = .data p i q ∧ n.transmitted p i = some (id, m) ∧ (n.clients q).HasId id

/-- What an event does to a page: it may send a message, a connection of it may open, a `call` that
arrives may be asked about, and a page that has no peer may get one. -/
structure Moves (n : Network) (e : Event) (q : PageRef) (c : Client) : Prop where
  page : c.page = (n.clients q).page ∨
    (∃ m, n.Says e q m ∧ c.page = (n.clients q).page.sendMessage m) ∨
    ∃ conn c', (n.clients q).page.connections[conn]? = some c' ∧ c'.isOpen = false ∧
      c.page = (n.clients q).page.opened conn
  dialog : ∀ m, c.dialog = some m →
    (n.clients q).dialog = some m ∨ m.action = Action.call ∧ ∃ p, n.Hears e p q m
  peer : c.peer = (n.clients q).peer ∨ (n.clients q).peer = none ∧
    (∃ name, e = .register q name) ∧ ∀ id, c.HasId id → ∀ q', ¬ (n.clients q').HasId id

section
variable {n n' : Network} {e : Event} {q : PageRef} {m : Message} {c : Client}

/-- A page whose page variables, dialog and peer are as before. -/
theorem Moves.of_eq (hpage : c.page = (n.clients q).page)
    (hdialog : ∀ m, c.dialog = some m → (n.clients q).dialog = some m)
    (hpeer : c.peer = (n.clients q).peer) : n.Moves e q c :=
  ⟨.inl hpage, fun m h => .inl (hdialog m h), .inl hpeer⟩

/-- A page that sends a message, if it has a peer, and perhaps closes its dialog. -/
theorem Moves.sendMessage (hsay : n.Says e q m) (hpage : c.page = (n.clients q).page)
    (hdialog : ∀ m, c.dialog = some m → (n.clients q).dialog = some m)
    (hpeer : c.peer = (n.clients q).peer) : n.Moves e q (c.sendMessage m) := by
  unfold Client.sendMessage
  split
  · exact ⟨.inr (.inl ⟨m, hsay, by rw [← hpage]⟩), fun m h => .inl (hdialog m h), .inl hpeer⟩
  · exact .of_eq hpage hdialog hpeer

/-- Where one page changes, the others do not. -/
theorem moves_setClient {p : PageRef} (h : n.Moves e p c) (q : PageRef) :
    n.Moves e q ((n.setClient p c).clients q) := by
  rw [setClient]
  dsimp only
  by_cases hq : q = p
  · rw [hq, Function.update_self]
    exact h
  · rw [Function.update_of_ne hq]
    exact .of_eq rfl (fun _ => id) rfl

/-- A media call changes no page. -/
theorem clients_call (msg : Message) : (n.call q msg).clients = n.clients := by
  unfold call
  split
  · rfl
  · rfl

/-- A message that arrives opens a dialog, if it is a `call`. -/
theorem clients_data (msg : Message) : (n.data q msg).clients =
    if msg.action = Action.call then
      (n.setClient q { n.clients q with dialog := some msg }).clients else n.clients := by
  rw [← apply_ite Network.clients]
  unfold data
  dsimp only
  split
  · rw [clients_call]
    split
    · rw [clients_call]
    · rfl
  · split
    · rw [clients_call]
    · rfl

/-- What a step does to the pages. -/
theorem moves_step (hs : Step n e n') (q : PageRef) : n.Moves e q (n'.clients q) := by
  cases hs with
  | @register p name h hnull hhash hpos hfree =>
    refine moves_setClient ?_ q
    refine ⟨.inl rfl, fun m h => .inl h, .inr ⟨hnull, ⟨_, rfl⟩, fun id hid q' => ?_⟩⟩
    cases hid
    exact hfree q'
  | registerAnonymous hnull hname hhash =>
    refine moves_setClient ?_ q
    exact ⟨.inl rfl, fun m h => .inl h, .inr ⟨hnull, ⟨_, rfl⟩, fun id hid q' => nomatch hid⟩⟩
  | gotStream p =>
    refine moves_setClient ?_ q
    exact .of_eq rfl (fun _ => id) rfl
  | btnCall p self target =>
    refine moves_setClient ?_ q
    unfold Client.btnCall
    split
    · exact .of_eq rfl (fun _ => id) rfl
    · exact .sendMessage (.inl ⟨rfl, rfl⟩) rfl (fun _ => id) rfl
  | opened hget hclosed =>
    refine moves_setClient ?_ q
    exact ⟨.inr (.inr ⟨_, _, hget, hclosed, rfl⟩), fun m h => .inl h, .inl rfl⟩
  | @data p p' i id msg hnew hsent hid =>
    rw [clients_data]
    split
    · next haction =>
      show n.Moves _ q ((n.setClient p' _).clients q)
      refine moves_setClient ?_ q
      refine ⟨.inl rfl, fun m h => ?_, .inl rfl⟩
      cases h
      exact .inr ⟨haction, p, i, id, rfl, hsent, hid⟩
    · exact .of_eq rfl (fun _ h => h) rfl
  | accept p =>
    refine moves_setClient ?_ q
    unfold Client.accept
    split
    · next msg hdialog =>
      exact .sendMessage (.inr (.inl ⟨msg, rfl, hdialog, rfl⟩)) rfl (fun _ h => nomatch h) rfl
    · exact .of_eq rfl (fun _ => id) rfl
  | cancel p =>
    refine moves_setClient ?_ q
    exact .of_eq rfl (fun _ h => nomatch h) rfl
  | answer hget hid => exact .of_eq rfl (fun _ => id) rfl
  | @stream k c hget hanswered =>
    refine moves_setClient ?_ q
    split
    · next haction =>
      exact .sendMessage (.inr (.inr ⟨k, c, rfl, hget, rfl, haction, rfl⟩)) rfl (fun _ => id) rfl
    · exact .of_eq rfl (fun _ => id) rfl

/-- A call that a message makes. -/
theorem media_data (msg : Message) : (n.data q msg).media = n.media ∨
    (msg.action = Action.accept ∨ msg.action = Action.acceptOk) ∧
      (n.data q msg).media = n.media ++ [⟨q, hashCode msg.from, msg, false⟩] := by
  have hcall : ∀ n' : Network, n'.media = n.media → (n'.call q msg).media = n.media ∨
      (n'.call q msg).media = n.media ++ [⟨q, hashCode msg.from, msg, false⟩] := by
    intro n' h
    unfold call
    split
    · exact .inr (by rw [h])
    · exact .inl h
  unfold data
  dsimp only
  by_cases hcalled : msg.action = Action.call
  · rw [hcalled, if_pos rfl, if_neg (by decide), if_neg (by decide)]
    exact .inl rfl
  · rw [if_neg hcalled]
    by_cases haccept : msg.action = Action.accept
    · rw [if_pos haccept, if_neg (by rw [haccept]; decide)]
      exact (hcall n rfl).imp id fun h => ⟨.inl haccept, h⟩
    · rw [if_neg haccept]
      split
      · next hok => exact (hcall n rfl).imp id fun h => ⟨.inr hok, h⟩
      · exact .inl rfl

/-- What a step does to the calls: a message that arrives may be answered by another one. -/
theorem media_step (hs : Step n e n') :
    n'.media.map (·.unanswered) = n.media.map (·.unanswered) ∨
      ∃ p q msg, n.Hears e p q msg ∧
        (msg.action = Action.accept ∨ msg.action = Action.acceptOk) ∧
        n'.media.map (·.unanswered) =
          n.media.map (·.unanswered) ++ [⟨q, hashCode msg.from, msg, false⟩] := by
  cases hs with
  | @data p q i id msg hnew hsent hid =>
    rcases media_data (q := q) (n := { n with
      arrived := Function.update n.arrived p (n.arrived p ++ [i]) }) msg with h | ⟨haction, h⟩
    · exact .inl (congrArg _ h)
    · refine .inr ⟨p, q, msg, ⟨i, id, rfl, hsent, hid⟩, haction, ?_⟩
      rw [h, List.map_append]
      rfl
  | @answer q k m hget hid =>
    refine .inl (List.ext_getElem? fun i => ?_)
    simp only [List.getElem?_map, List.getElem?_modify]
    cases n.media[i]? with
    | none => rfl
    | some m =>
      show some (MediaCall.unanswered (if k = i then _ else m)) = some m.unanswered
      split
      · rfl
      · rfl
  | register => exact .inl rfl
  | registerAnonymous => exact .inl rfl
  | gotStream q => exact .inl rfl
  | btnCall q self target => exact .inl rfl
  | opened => exact .inl rfl
  | accept q => exact .inl rfl
  | cancel q => exact .inl rfl
  | stream => exact .inl rfl

end

/-! ## Runs -/

abbrev Trace := List (Transition Network Event)

section
variable {ts : Trace} {n n' : Network} {e : Event} {p q : PageRef} {msg : Message} {id : Number}

/-- A page keeps its id. -/
theorem hasId_step (hs : Step n e n') (h : (n.clients q).HasId id) : (n'.clients q).HasId id := by
  rcases (moves_step hs q).peer with hpeer | ⟨hnone, -⟩
  · exact hpeer.trans h
  · cases hnone.symm.trans h

/-- It does so in every run. -/
theorem hasId_run (hr : Run Step n ts n') (h : (n.clients q).HasId id) :
    (n'.clients q).HasId id := by
  induction hr with
  | nil => exact h
  | snoc _ hs ih => exact hasId_step hs ih

/-- No two pages have one id. -/
theorem hasId_unique (hr : Run Step init ts n) :
    ∀ p q id, (n.clients p).HasId id → (n.clients q).HasId id → p = q := by
  induction hr with
  | nil => exact fun p q id hp => nomatch hp
  | @snoc ts n n' e hr hs ih =>
    intro p q id hp hq
    rcases (moves_step hs p).peer with hp' | ⟨-, ⟨name, rfl⟩, hpfree⟩
    · rcases (moves_step hs q).peer with hq' | ⟨-, -, hqfree⟩
      · exact ih p q id (hp'.symm.trans hp) (hq'.symm.trans hq)
      · exact absurd (hp'.symm.trans hp) (hqfree id hq p)
    · rcases (moves_step hs q).peer with hq' | ⟨-, ⟨name', heq⟩, -⟩
      · exact absurd (hq'.symm.trans hq) (hpfree id hp q)
      · cases heq
        rfl

/-- What a page has wanted to send stays so. -/
theorem calls_step (hs : Step n e n') (h : msg ∈ (n.clients q).page.calls) :
    msg ∈ (n'.clients q).page.calls := by
  rcases (moves_step hs q).page with hpage | ⟨msg', -, hpage⟩ | ⟨conn, c, -, -, hpage⟩
  · exact hpage ▸ h
  · rw [hpage, Page.calls_sendMessage]
    exact List.mem_append_left _ h
  · rw [hpage, Page.calls_opened]
    exact h

/-- It does so in every run. -/
theorem calls_run (hr : Run Step n ts n') (h : msg ∈ (n.clients q).page.calls) :
    msg ∈ (n'.clients q).page.calls := by
  induction hr with
  | nil => exact h
  | snoc _ hs ih => exact calls_step hs ih

/-- Every page has run on its own. -/
theorem page_run (hr : Run Step init ts n) (q : PageRef) :
    ∃ ps, Run Page.Step .init ps (n.clients q).page := by
  induction hr with
  | nil => exact ⟨[], .nil⟩
  | @snoc ts n n' e hr hs ih =>
    obtain ⟨ps, hps⟩ := ih
    rcases (moves_step hs q).page with hpage | ⟨msg, -, hpage⟩ | ⟨conn, c, hget, hclosed, hpage⟩
    · exact ⟨ps, hpage ▸ hps⟩
    · exact ⟨_, hpage ▸ hps.snoc (.sendMessage _ msg)⟩
    · exact ⟨_, hpage ▸ hps.snoc (.opened hget hclosed)⟩

/-- What a page transmits goes to the addressee of its first message. -/
theorem transmitted_run {i : Nat} (hr : Run Step init ts n)
    (h : n.transmitted q i = some (id, msg)) :
    ∃ first ∈ (n.clients q).page.calls, id = hashCode first.to := by
  obtain ⟨ps, hps⟩ := page_run hr q
  rw [transmitted] at h
  rcases Page.eq_of_run hps with ⟨hpage, -⟩ | ⟨first, before, hpage, -⟩ |
    ⟨first, before, after, hpage, -⟩
  · rw [hpage] at h
    cases h
  · rw [hpage] at h
    cases h
  · rw [hpage] at h ⊢
    simp only [Option.bind_eq_bind, Option.bind_eq_some_iff] at h
    obtain ⟨t, ht, conn, hconn, message, -, heq⟩ := h
    have hfirst : conn.peer = hashCode first.to := by
      have hmem := List.mem_of_getElem? hconn
      rw [Page.talking] at hmem
      cases List.mem_singleton.1 hmem
      rfl
    cases heq
    exact ⟨first, List.mem_cons_self, hfirst⟩

/-! ## Delivery -/

/-- The message that arrives from the page. -/
def arrival (p : PageRef) (t : Transition Network Event) : Option Message :=
  match t.label with
  | .data q i _ => if q = p then (t.before.transmitted p i).map (·.2) else none
  | .register .. | .gotStream _ | .btnCall .. | .opened .. | .accept _ | .cancel _ | .answer ..
  | .stream _ => none

/-- The messages that have arrived from the page, in order. -/
def heard (p : PageRef) (ts : Trace) : List Message := ts.filterMap (arrival p)

/-- What has arrived from a page, with one more transition. -/
theorem heard_snoc (t : Transition Network Event) :
    heard p (ts ++ [t]) = heard p ts ++ (arrival p t).toList := by
  rw [heard, List.filterMap_append, List.filterMap_cons]
  cases arrival p t with
  | none => rfl
  | some msg => rfl

/-- The message of a `data` event arrives. -/
theorem arrival_data {i : Nat} {q : PageRef} (h : n.transmitted p i = some (id, msg)) :
    arrival p ⟨n, .data p i q, n'⟩ = some msg := by
  rw [arrival]
  dsimp only
  rw [if_pos rfl, h]
  rfl

/-- No other event is an arrival. -/
theorem arrival_of_ne (h : ∀ i q, e ≠ .data p i q) : arrival p ⟨n, e, n'⟩ = none := by
  cases e with
  | data q i q' => exact if_neg fun (heq : q = p) => h i q' (heq ▸ rfl)
  | register q name => rfl
  | gotStream q => rfl
  | btnCall q self target => rfl
  | opened q conn => rfl
  | accept q => rfl
  | cancel q => rfl
  | answer q k => rfl
  | stream k => rfl

/-- A media call is no message. -/
theorem arrived_call (msg : Message) : (n.call q msg).arrived = n.arrived := by
  unfold call
  split
  · rfl
  · rfl

/-- What a message leads to is no arrival. -/
theorem arrived_data (msg : Message) : (n.data q msg).arrived = n.arrived := by
  have hdialog : (if msg.action = Action.call then
      n.setClient q { n.clients q with dialog := some msg } else n).arrived = n.arrived := by
    split <;> rfl
  unfold data
  dsimp only
  split
  · rw [arrived_call]
    split
    · rw [arrived_call, hdialog]
    · exact hdialog
  · split
    · rw [arrived_call, hdialog]
    · exact hdialog

/-- An event counts if it is an arrival. -/
theorem arrived_step (hs : Step n e n') :
    (∃ i q id msg, e = .data p i q ∧ i ∉ n.arrived p ∧ n.transmitted p i = some (id, msg) ∧
      n'.arrived p = n.arrived p ++ [i] ∧ (n'.clients p).page = (n.clients p).page) ∨
    (∀ i q, e ≠ .data p i q) ∧ n'.arrived p = n.arrived p := by
  cases hs with
  | @data q q' i id msg hnew hsent hid =>
    rw [arrived_data]
    by_cases hp : p = q
    · subst hp
      refine .inl ⟨i, q', id, msg, rfl, hnew, hsent, Function.update_self .., ?_⟩
      rw [clients_data]
      split
      · show (Function.update n.clients q' _ p).page = _
        by_cases hq : p = q'
        · subst hq
          rw [Function.update_self]
        · rw [Function.update_of_ne hq]
      · rfl
    · refine .inr ⟨fun i' q'' heq => ?_, Function.update_of_ne hp ..⟩
      cases heq
      exact hp rfl
  | register => exact .inr ⟨fun _ _ h => (nomatch h), rfl⟩
  | registerAnonymous => exact .inr ⟨fun _ _ h => (nomatch h), rfl⟩
  | gotStream q => exact .inr ⟨fun _ _ h => (nomatch h), rfl⟩
  | btnCall q self target => exact .inr ⟨fun _ _ h => (nomatch h), rfl⟩
  | opened => exact .inr ⟨fun _ _ h => (nomatch h), rfl⟩
  | accept q => exact .inr ⟨fun _ _ h => (nomatch h), rfl⟩
  | cancel q => exact .inr ⟨fun _ _ h => (nomatch h), rfl⟩
  | answer => exact .inr ⟨fun _ _ h => (nomatch h), rfl⟩
  | stream => exact .inr ⟨fun _ _ h => (nomatch h), rfl⟩

/-- A page forgets nothing that it has said or transmitted. -/
theorem page_step (hs : Step n e n') (q : PageRef) :
    (n.clients q).page.calls <+: (n'.clients q).page.calls ∧
      (n.clients q).page.sent <+: (n'.clients q).page.sent := by
  rcases (moves_step hs q).page with hpage | ⟨msg, -, hpage⟩ | ⟨conn, c, -, -, hpage⟩
  · rw [hpage]
    exact ⟨List.prefix_rfl, List.prefix_rfl⟩
  · rw [hpage, Page.calls_sendMessage]
    exact ⟨List.prefix_append _ _, Page.sent_sendMessage _ msg⟩
  · rw [hpage, Page.calls_opened]
    exact ⟨List.prefix_rfl, Page.sent_opened _ conn⟩

/-- What has arrived from a page has been transmitted by it, each message at a place of its own. -/
theorem heard_eq (hr : Run Step init ts n) :
    (n.arrived p).Nodup ∧ (∀ i ∈ n.arrived p, i < (n.clients p).page.sent.length) ∧
      heard p ts = ((n.arrived p).filterMap fun i => (n.clients p).page.sent[i]?).filterMap
        fun t => (n.clients p).page.calls[t.call]? := by
  induction hr with
  | nil => exact ⟨.nil, fun _ hi => absurd hi List.not_mem_nil, rfl⟩
  | @snoc ts n n' e hr hs ih =>
    obtain ⟨hnodup, hlt, hheard⟩ := ih
    rw [heard_snoc, hheard]
    rcases arrived_step (p := p) hs with ⟨i, q, id, msg, rfl, hnew, hsent, harrived, hpage⟩ |
      ⟨hne, harrived⟩
    · rw [arrival_data hsent, harrived, hpage]
      simp only [transmitted, Option.bind_eq_bind, Option.bind_eq_some_iff] at hsent
      obtain ⟨t, ht, conn, -, message, hmessage, heq⟩ := hsent
      cases heq
      refine ⟨hnodup.append (List.nodup_singleton i) (by simpa using hnew), ?_, ?_⟩
      · intro k hk
        rcases List.mem_append.1 hk with hk | hk
        · exact hlt k hk
        · rw [List.mem_singleton.1 hk]
          exact (List.getElem?_eq_some_iff.1 ht).1
      · simp [ht, hmessage]
    · obtain ⟨⟨calls, hcalls⟩, ⟨sent, hsent⟩⟩ := page_step hs p
      obtain ⟨ps, hps⟩ := page_run hr p
      rw [arrival_of_ne hne, harrived, ← hcalls, ← hsent, List.length_append, Option.toList_none,
        List.append_nil]
      refine ⟨hnodup, fun i hi => (hlt i hi).trans_le (Nat.le_add_right ..), ?_⟩
      have hsame : ((n.arrived p).filterMap fun i => ((n.clients p).page.sent ++ sent)[i]?) =
          (n.arrived p).filterMap fun i => (n.clients p).page.sent[i]? :=
        List.filterMap_congr fun i hi => List.getElem?_append_left (hlt i hi)
      rw [hsame]
      refine List.filterMap_congr fun t ht => ?_
      obtain ⟨i, -, hget⟩ := List.mem_filterMap.1 ht
      have hcall := (Page.sent_of_run hps).2 t (List.mem_of_getElem? hget)
      rw [List.getElem?_append_left hcall]

/-- Elements at increasing places. -/
theorem filterMap_getElem?_sublist {α : Type} (xs : List α) : ∀ (is : List Nat) (k : Nat),
    is.Pairwise (· < ·) → (∀ i ∈ is, k ≤ i) →
      (is.filterMap fun i => xs[i]?).Sublist (xs.drop k)
  | [], _, _, _ => List.nil_sublist _
  | i :: is, k, hlt, hle => by
    obtain ⟨hi, his⟩ := List.pairwise_cons.1 hlt
    have hrest := filterMap_getElem?_sublist xs is (i + 1) his hi
    have hdrop : (xs.drop i).Sublist (xs.drop k) := by
      rw [← Nat.add_sub_cancel' (hle i List.mem_cons_self), ← List.drop_drop]
      exact List.drop_sublist _ _
    refine List.Sublist.trans ?_ hdrop
    rw [List.filterMap_cons]
    cases hget : xs[i]? with
    | none => exact hrest.trans (List.drop_sublist_drop_left xs (Nat.le_succ i))
    | some x =>
      obtain ⟨hlength, rfl⟩ := List.getElem?_eq_some_iff.1 hget
      rw [List.drop_eq_getElem_cons hlength]
      exact hrest.cons_cons _

/-- Elements at different places. -/
theorem filterMap_getElem?_subperm {α : Type} (xs : List α) {is : List Nat} (h : is.Nodup) :
    (is.filterMap fun i => xs[i]?).Subperm xs := by
  have hperm : (is.mergeSort (· ≤ ·)).Perm is := List.mergeSort_perm is _
  have hlt : (is.mergeSort (· ≤ ·)).Pairwise (· < ·) :=
    (List.pairwise_mergeSort' (· ≤ ·) is).imp₂ (fun _ _ hle hne => lt_of_le_of_ne hle hne)
      (hperm.nodup_iff.2 h)
  refine ⟨_, hperm.filterMap _, ?_⟩
  have hsub := filterMap_getElem?_sublist xs _ 0 hlt fun _ _ => Nat.zero_le _
  rwa [List.drop_zero] at hsub

/-- What arrives from a page has been said there, and arrives once. -/
theorem heard_subperm (hr : Run Step init ts n) :
    (heard p ts).Subperm (n.clients p).page.calls := by
  obtain ⟨hnodup, -, hheard⟩ := heard_eq (p := p) hr
  obtain ⟨ps, hps⟩ := page_run hr p
  obtain ⟨sent, hperm, hsub⟩ := filterMap_getElem?_subperm (n.clients p).page.sent hnodup
  have hlt := (Page.sent_of_run hps).1.sublist (hsub.map _)
  have hcalls :=
    filterMap_getElem?_sublist (n.clients p).page.calls _ 0 hlt fun _ _ => Nat.zero_le _
  rw [List.filterMap_map, List.drop_zero] at hcalls
  rw [hheard]
  exact ⟨_, hperm.filterMap _, hcalls⟩

end

end Network

end WebRtcNetty.Html
