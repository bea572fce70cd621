import WebRtcNetty.Html.HashCode
import WebRtcNetty.Lib.Run

/-!
# The signalling of the video page

A user calls another one by a message to the peer registered under the hash of the other's name
(`sendMessage`). The page keeps one connection for all its messages, the one its first message
opened, and sends that message when the connection opens. So what becomes of a message depends on
when it is sent and to whom: `delivered_iff` says on which sequences of calls and openings every
message is delivered once, to its addressee, as soon as a connection to it is open.

Calls are numbered, so that equal messages are told apart; what a connection transmits is the JSON
text of the call's message.
-/

namespace WebRtcNetty.Html

open Js Runs

/-- What a page sends: who it is from, who it is to, and what it is about. -/
structure Message where
  «from» : List UInt16
  «to» : List UInt16
  action : List UInt16
deriving DecidableEq

/-- A connection of PeerJS: the id it was opened with, and the handlers of its `open` event, each
given by the call whose message it sends. -/
structure Connection where
  peer : Number
  isOpen : Bool
  onOpen : List Nat
deriving DecidableEq

/-- A message transmitted: the connection and the call. -/
structure Transmission where
  conn : Nat
  call : Nat
deriving DecidableEq

/-- A registered page: the variable `localConn`, the connections created and the messages of the
calls so far, and what has been transmitted. -/
structure Page where
  localConn : Option Nat
  connections : List Connection
  calls : List Message
  sent : List Transmission
deriving DecidableEq

namespace Page

def init : Page where
  localConn := none
  connections := []
  calls := []
  sent := []

/-- `conn.open`. -/
def isOpen (p : Page) (conn : Nat) : Bool :=
  p.connections[conn]?.any (·.isOpen)

/-- `peer.connect(id)`. -/
def connect (p : Page) (id : Number) : Page × Nat :=
  ({ p with connections := p.connections ++ [{ peer := id, isOpen := false, onOpen := [] }] },
    p.connections.length)

/-- `conn.on('open', handler)`. -/
def onOpen (p : Page) (conn call : Nat) : Page :=
  { p with
    connections := p.connections.modify conn fun c => { c with onOpen := c.onOpen ++ [call] } }

/-- `localConn.send(message)`, which transmits on an open connection. -/
def send (p : Page) (call : Nat) : Page :=
  match p.localConn with
  | some conn => if p.isOpen conn then { p with sent := p.sent ++ [⟨conn, call⟩] } else p
  | none => p

/-- Reference: `sendMessage` (`videocall.js`). -/
def sendMessage (p : Page) (message : Message) : Page :=
  let call := p.calls.length
  let p := { p with calls := p.calls ++ [message] }
  let p := match p.localConn with
    | some _ => p
    | none =>
      let (p, conn) := p.connect (hashCode message.to)
      { p with localConn := some conn }.onOpen conn call
  if p.localConn.any p.isOpen then p.send call else p

/-- The `open` event of a connection: the handlers registered so far run. -/
def opened (p : Page) (conn : Nat) : Page :=
  let handlers := (p.connections[conn]?.map (·.onOpen)).getD []
  let p := { p with connections := p.connections.modify conn fun c => { c with isOpen := true } }
  handlers.foldl send p

end Page

/-! ## Runs -/

inductive Event where
  | sendMessage (message : Message)
  | opened (conn : Nat)

/-- A call, or the opening of a connection that is not open yet. -/
inductive Page.Step : Page → Event → Page → Prop
  | sendMessage (p : Page) (message : Message) :
      Step p (.sendMessage message) (p.sendMessage message)
  | opened {p : Page} {conn : Nat} {c : Connection} (hget : p.connections[conn]? = some c)
      (hclosed : c.isOpen = false) : Step p (.opened conn) (p.opened conn)

/-- Every message goes to its addressee only and at most once, and has been sent once where a
connection to its addressee is open. -/
structure Page.Delivered (p : Page) : Prop where
  addressee : ∀ t ∈ p.sent, ∃ c message, p.connections[t.conn]? = some c ∧
    p.calls[t.call]? = some message ∧ c.peer = hashCode message.to
  once : ∀ call, (p.sent.map (·.call)).count call ≤ 1
  sent : ∀ call message, p.calls[call]? = some message →
    (∃ c ∈ p.connections, c.isOpen = true ∧ c.peer = hashCode message.to) →
    (p.sent.map (·.call)).count call = 1

/-- The messages of the calls before the first opening. -/
def callsBefore : List Event → List Message
  | [] => []
  | .sendMessage message :: es => message :: callsBefore es
  | .opened _ :: _ => []

/-- The messages of all calls. -/
def callsOf : List Event → List Message
  | [] => []
  | .sendMessage message :: es => message :: callsOf es
  | .opened _ :: es => callsOf es

/-- The messages of the calls after the first opening, if there is one. -/
def callsAfter : List Event → Option (List Message)
  | [] => none
  | .sendMessage _ :: es => callsAfter es
  | .opened _ :: es => some (callsOf es)

/-- The calls fit the one connection: once it is open, all of them have been made for the peer of
the first call from the opening on, and for other peers between the first call and the opening. -/
def CallsFit (es : List Event) : Prop :=
  ∀ first before after, callsBefore es = first :: before → callsAfter es = some after →
    (∀ m ∈ before, hashCode m.to ≠ hashCode first.to) ∧
      ∀ m ∈ after, hashCode m.to = hashCode first.to

/-! ## The states of a run -/

section
variable (first : Message) (before after : List Message) (message : Message)

/-- The page between the first call and the opening. -/
def Page.waiting : Page where
  localConn := some 0
  connections := [{ peer := hashCode first.to, isOpen := false, onOpen := [0] }]
  calls := first :: before
  sent := []

/-- The page after the opening: the first call's message has been transmitted by the handler, those
of the calls after the opening at once. -/
def Page.talking : Page where
  localConn := some 0
  connections := [{ peer := hashCode first.to, isOpen := true, onOpen := [0] }]
  calls := first :: (before ++ after)
  sent := ⟨0, 0⟩ :: (List.range' (before.length + 1) after.length).map (⟨0, ·⟩)

namespace Page

/-- The first call opens a connection, and waits for it. -/
theorem sendMessage_init : init.sendMessage message = waiting message [] := rfl

/-- The messages of the next ones are not sent. -/
theorem sendMessage_waiting :
    (waiting first before).sendMessage message = waiting first (before ++ [message]) := rfl

/-- When it opens, the message of the first call is sent. -/
theorem opened_waiting : (waiting first before).opened 0 = talking first before [] := by
  rw [talking, List.append_nil]
  rfl

/-- After that a message is sent at once. -/
theorem sendMessage_talking :
    (talking first before after).sendMessage message =
      talking first before (after ++ [message]) := by
  have hsent : (talking first before after).calls.length = before.length + 1 + after.length := by
    simp [talking, Nat.add_right_comm]
  have h : (talking first before after).sendMessage message =
      { talking first before after with
        calls := (talking first before after).calls ++ [message]
        sent := (talking first before after).sent ++
          [⟨0, (talking first before after).calls.length⟩] } := rfl
  rw [h, hsent]
  simp [talking, List.range'_concat]

end Page

end

/-! ## Delivery in these states -/

namespace Page

variable {first : Message} {before after : List Message}

/-- At the start there is nothing to deliver. -/
theorem delivered_init : init.Delivered where
  addressee _ ht := nomatch ht
  once _ := Nat.zero_le 1
  sent _ _ hget := nomatch hget

/-- Before the opening nothing has been transmitted, and no connection is open. -/
theorem delivered_waiting : (waiting first before).Delivered where
  addressee _ ht := nomatch ht
  once _ := Nat.zero_le 1
  sent _ _ _ := by
    rintro ⟨c, hc, ho, -⟩
    cases List.mem_singleton.1 hc
    cases ho

/-- The calls transmitted after the opening. -/
theorem sent_talking :
    ((talking first before after).sent.map (·.call)) =
      0 :: List.range' (before.length + 1) after.length := by
  rw [talking, List.map_cons, List.map_map]
  exact congrArg (0 :: ·) (List.map_id _)

/-- The messages of the first call and of those after the opening are sent, each once. -/
theorem count_sent (call : Nat) :
    (((talking first before after).sent.map (·.call)).count call) =
      if call = 0 ∨ before.length + 1 ≤ call ∧ call < before.length + 1 + after.length
      then 1 else 0 := by
  have hnodup : (0 :: List.range' (before.length + 1) after.length).Nodup := by
    refine List.nodup_cons.2 ⟨?_, List.nodup_range'⟩
    simp [List.mem_range'_1]
  rw [sent_talking, hnodup.count]
  simp only [List.mem_cons, List.mem_range'_1]

/-- The calls before the opening come behind the first one. -/
theorem calls_before {call : Nat} (h : call < before.length) :
    (talking first before after).calls[call + 1]? = before[call]? := by
  rw [talking, List.getElem?_cons_succ, List.getElem?_append_left h]

/-- The calls after the opening come behind those. -/
theorem calls_after (call : Nat) :
    (talking first before after).calls[before.length + 1 + call]? = after[call]? := by
  rw [talking, Nat.add_right_comm, List.getElem?_cons_succ,
    List.getElem?_append_right (Nat.le_add_right ..), Nat.add_sub_cancel_left]

/-- After the opening every message is delivered exactly if the calls after it are made for the peer
of the first call and the others before it are not. -/
theorem delivered_talking :
    (talking first before after).Delivered ↔
      (∀ m ∈ before, hashCode m.to ≠ hashCode first.to) ∧
        ∀ m ∈ after, hashCode m.to = hashCode first.to := by
  constructor
  · intro h
    refine ⟨fun m hm heq => ?_, fun m hm => ?_⟩
    · obtain ⟨call, hcall, rfl⟩ := List.getElem_of_mem hm
      have hget : (talking first before after).calls[call + 1]? = some before[call] :=
        (calls_before hcall).trans (List.getElem?_eq_getElem hcall)
      -- The message of a call before the opening has not been transmitted, nor will it be.
      have hone := h.sent _ _ hget ⟨_, List.mem_singleton_self _, rfl, heq.symm⟩
      rw [count_sent, if_neg (by omega)] at hone
      cases hone
    · obtain ⟨call, hcall, rfl⟩ := List.getElem_of_mem hm
      have hmem : ⟨0, before.length + 1 + call⟩ ∈ (talking first before after).sent := by
        refine List.mem_cons_of_mem _ (List.mem_map_of_mem ?_)
        exact List.mem_range'_1.2 ⟨by omega, by omega⟩
      obtain ⟨c, message, hconn, hget, hpeer⟩ := h.addressee _ hmem
      rw [calls_after, List.getElem?_eq_getElem hcall] at hget
      cases hconn
      cases hget
      exact hpeer.symm
  · rintro ⟨hbefore, hafter⟩
    refine ⟨fun t ht => ?_, fun call => ?_, fun call message hget hopen => ?_⟩
    · rcases List.mem_cons.1 ht with rfl | ht
      · exact ⟨_, first, rfl, rfl, rfl⟩
      · obtain ⟨call, hcall, rfl⟩ := List.mem_map.1 ht
        obtain ⟨hl, hr⟩ := List.mem_range'_1.1 hcall
        obtain ⟨k, rfl⟩ := Nat.exists_eq_add_of_le hl
        have hk : k < after.length := by omega
        refine ⟨_, after[k], rfl, ?_, (hafter _ (List.getElem_mem hk)).symm⟩
        rw [calls_after, List.getElem?_eq_getElem hk]
    · rw [count_sent]
      split <;> decide
    · obtain ⟨c, hc, -, hpeer⟩ := hopen
      cases List.mem_singleton.1 hc
      have hlen : call < before.length + 1 + after.length := by
        have := (List.getElem?_eq_some_iff.1 hget).1
        simp only [talking, List.length_cons, List.length_append] at this
        omega
      rw [count_sent, if_pos]
      by_contra hnot
      obtain ⟨k, rfl⟩ := Nat.exists_eq_succ_of_ne_zero (n := call) (by omega)
      rw [calls_before (by omega)] at hget
      exact hbefore message (List.mem_of_getElem? hget) hpeer.symm

end Page

/-! ## What each event does to the calls of a run -/

section
variable {es : List Event} {message : Message} {conn : Nat}

/-- One more event before the first opening, or the first opening. -/
theorem callsBefore_append (h : callsAfter es = none) (e : Event) :
    callsBefore (es ++ [e]) = callsBefore es ++ callsBefore [e] ∧
      callsAfter (es ++ [e]) = callsAfter [e] := by
  induction es with
  | nil => exact ⟨rfl, rfl⟩
  | cons e' es ih =>
    cases e' with
    | sendMessage m =>
      obtain ⟨hb, ha⟩ := ih h
      exact ⟨congrArg (m :: ·) hb, ha⟩
    | opened conn => cases h

/-- The calls of two runs. -/
theorem callsOf_append (es es' : List Event) : callsOf (es ++ es') = callsOf es ++ callsOf es' := by
  induction es with
  | nil => rfl
  | cons e es ih =>
    cases e with
    | sendMessage m => exact congrArg (m :: ·) ih
    | opened conn => exact ih

/-- More events after the first opening. -/
theorem callsAfter_append {after : List Message} (h : callsAfter es = some after)
    (es' : List Event) :
    callsBefore (es ++ es') = callsBefore es ∧
      callsAfter (es ++ es') = some (after ++ callsOf es') := by
  induction es with
  | nil => cases h
  | cons e es ih =>
    cases e with
    | sendMessage m =>
      obtain ⟨hb, ha⟩ := ih h
      exact ⟨congrArg (m :: ·) hb, ha⟩
    | opened conn =>
      cases h
      exact ⟨rfl, congrArg some (callsOf_append es es')⟩

/-- A run whose calls fit begins with one whose calls fit. -/
theorem CallsFit.of_append {es' : List Event} (h : CallsFit (es ++ es')) : CallsFit es := by
  intro first before after hb ha
  obtain ⟨hb', ha'⟩ := callsAfter_append ha es'
  obtain ⟨hbefore, hafter⟩ := h first before _ (hb'.trans hb) ha'
  exact ⟨hbefore, fun m hm => hafter m (List.mem_append_left _ hm)⟩

end

/-- The page at the end of a run, from the calls before and after the opening. -/
theorem Page.eq_of_run {ts : List (Transition Page Event)} {p : Page} (h : Run Step init ts p) :
    (p = init ∧ callsBefore (ts.map (·.label)) = [] ∧ callsAfter (ts.map (·.label)) = none) ∨
    (∃ first before, p = waiting first before ∧
      callsBefore (ts.map (·.label)) = first :: before ∧ callsAfter (ts.map (·.label)) = none) ∨
    ∃ first before after, p = talking first before after ∧
      callsBefore (ts.map (·.label)) = first :: before ∧
      callsAfter (ts.map (·.label)) = some after := by
  induction h with
  | nil => exact .inl ⟨rfl, rfl, rfl⟩
  | @snoc ts p p' e _ hs ih =>
    rw [List.map_append, List.map_singleton]
    obtain ⟨rfl, hb, ha⟩ | ⟨first, before, rfl, hb, ha⟩ | ⟨first, before, after, rfl, hb, ha⟩ := ih
    · cases hs with
      | sendMessage message =>
        obtain ⟨hb', ha'⟩ := callsBefore_append ha (.sendMessage message)
        exact .inr (.inl ⟨message, [], sendMessage_init message, by rw [hb', hb]; rfl, ha'⟩)
      | opened hget => cases hget
    · cases hs with
      | sendMessage message =>
        obtain ⟨hb', ha'⟩ := callsBefore_append ha (.sendMessage message)
        exact .inr (.inl ⟨first, before ++ [message], sendMessage_waiting first before message,
          by rw [hb', hb]; rfl, ha'⟩)
      | @opened conn c hget hclosed =>
        obtain ⟨hb', ha'⟩ := callsBefore_append ha (.opened conn)
        cases conn with
        | succ conn => cases hget
        | zero =>
          exact .inr (.inr ⟨first, before, [], opened_waiting first before,
            by rw [hb', hb]; simp [callsBefore], ha'⟩)
    · cases hs with
      | sendMessage message =>
        obtain ⟨hb', ha'⟩ := callsAfter_append ha [.sendMessage message]
        exact .inr (.inr ⟨first, before, after ++ [message],
          sendMessage_talking first before after message, hb'.trans hb, ha'⟩)
      | @opened conn c hget hclosed =>
        cases conn with
        | succ conn => cases hget
        | zero => cases hget; cases hclosed

/-! ## The runs whose messages are delivered -/

/-- A page delivers if and only if its calls fit. -/
theorem Page.delivered_iff {ts : List (Transition Page Event)} {p : Page} (h : Run Step init ts p) :
    p.Delivered ↔ CallsFit (ts.map (·.label)) := by
  rcases eq_of_run h with ⟨rfl, hb, -⟩ | ⟨first, before, rfl, -, ha⟩ |
    ⟨first, before, after, rfl, hb, ha⟩
  · refine iff_of_true delivered_init fun first before after hb' _ => ?_
    rw [hb] at hb'
    cases hb'
  · refine iff_of_true delivered_waiting fun first before after _ ha' => ?_
    rw [ha] at ha'
    cases ha'
  · rw [delivered_talking]
    refine ⟨fun hfit first' before' after' hb' ha' => ?_, fun hfit => hfit _ _ _ hb ha⟩
    cases hb.symm.trans hb'
    cases ha.symm.trans ha'
    exact hfit

/-- The messages are delivered in every state of a run exactly if its calls fit the one
connection. -/
theorem Page.delivered_run_iff {ts : List (Transition Page Event)} {p : Page}
    (h : Run Step init ts p) :
    (∀ t ∈ ts, t.after.Delivered) ↔ CallsFit (ts.map (·.label)) := by
  constructor
  · intro hall
    induction ts using List.reverseRecOn with
    | nil => exact fun _ _ _ hb => nomatch hb
    | append_singleton us t =>
      obtain ⟨-, -, rfl⟩ := h.snoc_inv
      exact (delivered_iff h).1 (hall t (by simp))
  · intro hfit t ht
    obtain ⟨us, vs, rfl, hr, hs⟩ := h.mem ht
    refine (delivered_iff (.snoc hr hs)).2 ?_
    rw [List.map_append, List.map_cons, List.append_cons] at hfit
    rw [List.map_append]
    exact hfit.of_append

/-- Calls from `bob` (the code units 98, 111, 98). -/
def call («to» : List UInt16) : Message where
  «from» := [98, 111, 98]
  «to» := «to»
  action := [99, 97, 108, 108]

/-- `bob` calls `a` before and after his connection opens. -/
theorem Page.delivered_run_bob : ∃ ts p, Run Step init ts p ∧
    ts.map (·.label) = [.sendMessage (call [97]), .opened 0, .sendMessage (call [97])] ∧
    ∀ t ∈ ts, t.after.Delivered := by
  have hopened : Step (waiting (call [97]) []) (.opened 0) (talking (call [97]) [] []) :=
    .opened rfl rfl
  have hr : Run Step init _ _ := .cons (.sendMessage init (call [97])) (.cons hopened
    (.single (.sendMessage _ (call [97]))))
  refine ⟨_, _, hr, rfl, (delivered_run_iff hr).2 ?_⟩
  intro first before after hb ha
  cases hb
  cases ha
  exact ⟨by simp [callsBefore], by simp [callsOf]⟩

/-- After `bob`'s connection to `a` has opened, his message for `c` goes to `a`. -/
theorem Page.misdelivered_bob :
    ∃ ts p, Run Step init ts p ∧
      ts.map (·.label) = [.sendMessage (call [97]), .opened 0, .sendMessage (call [99])] ∧
      ¬ p.Delivered := by
  refine ⟨_, _, .cons (.sendMessage init (call [97])) (.cons (.opened rfl rfl)
    (.single (.sendMessage _ (call [99])))), rfl, fun h => ?_⟩
  obtain ⟨c, message, hc, hm, hpeer⟩ := h.addressee ⟨0, 1⟩ (by decide)
  cases hc
  cases hm
  revert hpeer
  decide

end WebRtcNetty.Html
