import Mathlib.Logic.Function.Basic
import WebRtcNetty.Html.BinaryPack
import WebRtcNetty.Lib.Run

/-!
# Data connections

The way of the values that a page sends over a connection of PeerJS: they are packed and cut into
chunks, file readers make buffers of the blobs, the data channel refuses messages while it is full,
and the page at the other end puts the chunks together again. The pages load `peer.min.js`, whose
class `DataConnection` this is; the connection is one of the serialization `binary`, and the browser
has SCTP, so that messages arrive as buffers.

The file readers of a page finish in any order. The channel keeps the order, and it loses nothing
before one of the pages closes the connection or the transport fails.
-/

namespace WebRtcNetty.Html

open BinaryPack

namespace Property

/-! The properties of a chunk, as code units. -/

def peerData : Key := [95, 95, 112, 101, 101, 114, 68, 97, 116, 97]
def n : Key := [110]
def data : Key := [100, 97, 116, 97]
def total : Key := [116, 111, 116, 97, 108]

end Property

namespace BinaryPack.Value

/-- `value[key]`, where null and the undefined value throw. -/
def property (key : Key) : Value → Option Value
  | .undefined => none
  | .null => none
  | .object fields => some ((fields.find? (·.1 = key)).elim .undefined (·.2))
  | _ => some .undefined

/-- The conversion to a boolean. -/
def toBoolean : Value → Bool
  | .undefined => false
  | .null => false
  | .bool b => b
  | .number n => n ≠ 0
  | .string s => s.length ≠ 0
  | _ => true

end BinaryPack.Value

/-! ## Chunks -/

/-- Reference: `util.chunkedMTU` (`peer.min.js`). -/
def chunkedMTU : Nat := 16300

/-- A chunk of a blob. -/
def peerData (id n : Nat) (data : List UInt8) (total : Nat) : Value :=
  .object [(Property.peerData, .number id), (Property.n, .number n), (Property.data, .blob data),
    (Property.total, .number total)]

/-- The loop of `util.chunk`. -/
def chunk.loop (blob : List UInt8) (id total start index : Nat) : List Value :=
  if start < blob.length then
    let stop := min blob.length (start + chunkedMTU)
    peerData id index ((blob.drop start).take (stop - start)) total ::
      loop blob id total stop (index + 1)
  else []
termination_by blob.length - start
decreasing_by
  have : 0 < chunkedMTU := by decide
  omega

/-- The rounded-up quotient of `Math.ceil`. -/
def chunkCount (size : Nat) : Nat := (size + chunkedMTU - 1) / chunkedMTU

/-- Reference: `util.chunk` (`peer.min.js`). -/
def chunk (id : Nat) (blob : List UInt8) : List Value :=
  chunk.loop blob id (chunkCount blob.length) 0 0

/-- The chunks of a blob that have arrived, in an array with holes. -/
structure ChunkInfo where
  data : List (Option (List UInt8))
  count : Nat
  total : Int

/-- `data[n] = bytes`. -/
def ChunkInfo.put (data : List (Option (List UInt8))) (n : Nat) (bytes : List UInt8) :
    List (Option (List UInt8)) :=
  (data ++ List.replicate (n + 1 - data.length) none).set n (some bytes)

/-- `new Blob(data)`, where a hole is the text `undefined`. -/
def ChunkInfo.blob (data : List (Option (List UInt8))) : List UInt8 :=
  data.flatMap (·.getD [117, 110, 100, 101, 102, 105, 110, 101, 100])

/-! ## The connection -/

/-- What the browsers can do: whether one of them is in `util.chunkedBrowsers`, and
`util.supports.binaryBlob` of the sending one. -/
structure Browsers where
  chunked : Bool
  binaryBlob : Bool

/-- One direction of a connection: what the sending page has, the messages on the channel, and what
the other page has. `room` is the number of messages that the channel takes before `send` throws,
and a channel that is `closed` takes none. The transport is `up` until the channel is closed at one
of its ends. `sent` and `emitted` log the values, and `lost` the messages that have been taken and
do not arrive. -/
structure DataConnection where
  isOpen : Bool
  dataCount : Nat
  encoding : List (List UInt8)
  buffer : List (List UInt8)
  buffering : Bool
  room : Nat
  closed : Bool
  up : Bool
  channel : List (List UInt8)
  lost : List (List UInt8)
  chunkedData : Int → Option ChunkInfo
  reading : List (List UInt8)
  sent : List Value
  emitted : List Value

namespace DataConnection

def init : DataConnection where
  isOpen := false
  dataCount := 1
  encoding := []
  buffer := []
  buffering := false
  room := 0
  closed := false
  up := true
  channel := []
  lost := []
  chunkedData := fun _ => none
  reading := []
  sent := []
  emitted := []

/-! ### Sending -/

/-- `send` of the channel throws. -/
def refuses (c : DataConnection) : Bool := c.closed || c.room == 0

/-- What `send` of a channel does that takes a message. -/
def put (c : DataConnection) (msg : List UInt8) : DataConnection :=
  if c.up then { c with channel := c.channel ++ [msg], room := c.room - 1 }
  else { c with lost := c.lost ++ [msg], room := c.room - 1 }

/-- `_trySend` has started the timer. -/
def fail (c : DataConnection) : DataConnection := { c with buffering := true }

/-- Reference: `DataConnection.prototype._bufferedSend` (`peer.min.js`), with `_trySend`. -/
def bufferedSend (c : DataConnection) (msg : List UInt8) : DataConnection :=
  if c.buffering then { c with buffer := c.buffer ++ [msg] }
  else if c.refuses then { c.fail with buffer := c.buffer ++ [msg] }
  else c.put msg

/-- The recursion of `_tryBuffer` over the messages of the buffer. -/
def tryBuffer.loop : List (List UInt8) → DataConnection → DataConnection
  | [], c => { c with buffer := [] }
  | msg :: buffer, c =>
    if c.refuses then { c.fail with buffer := msg :: buffer } else loop buffer (c.put msg)

/-- Reference: `DataConnection.prototype._tryBuffer` (`peer.min.js`). -/
def tryBuffer (c : DataConnection) : DataConnection := tryBuffer.loop c.buffer c

/-- A packed value, which a file reader has to read unless the channel takes blobs. -/
def transmit (browsers : Browsers) (c : DataConnection) (blob : List UInt8) : DataConnection :=
  if browsers.binaryBlob then c.bufferedSend blob
  else { c with encoding := c.encoding ++ [blob] }

/-- Reference: `DataConnection.prototype._sendChunks` (`peer.min.js`). -/
def sendChunks (browsers : Browsers) : List Value → DataConnection → DataConnection
  | [], c => c
  | chunk :: chunks, c =>
    match pack chunk with
    | none => c
    | some blob => sendChunks browsers chunks (c.transmit browsers blob)

/-- Reference: `DataConnection.prototype.send` (`peer.min.js`). -/
def send (browsers : Browsers) (c : DataConnection) (data : Value) : DataConnection :=
  if c.isOpen then
    match pack data with
    | none => c
    | some blob =>
      let c := { c with sent := c.sent ++ [data] }
      if browsers.chunked && chunkedMTU < blob.length then
        sendChunks browsers (chunk c.dataCount blob) { c with dataCount := c.dataCount + 1 }
      else c.transmit browsers blob
  else c

/-! ### Receiving -/

/-- What the other page gives to the handlers of `data`. -/
def emit (c : DataConnection) (data : Value) : DataConnection :=
  { c with emitted := c.emitted ++ [data] }

/-- A chunk as `util.chunk` makes them. The information about a message stays when the message is
complete. -/
def handleChunk (c : DataConnection) (data : Value) : DataConnection :=
  match data.property Property.peerData, data.property Property.n, data.property Property.data,
    data.property Property.total with
  | some (.number id), some (.number (.ofNat n)), some (.buffer bytes), some (.number total) =>
    let info := (c.chunkedData id).getD ⟨[], 0, total⟩
    let info := { info with data := ChunkInfo.put info.data n bytes, count := info.count + 1 }
    { c with
      chunkedData := Function.update c.chunkedData id (some info)
      reading := if info.total = info.count then c.reading ++ [ChunkInfo.blob info.data]
        else c.reading }
  | _, _, _, _ => c

/-- A message of the channel. Reference: `DataConnection.prototype._handleDataMessage`
(`peer.min.js`). -/
def handleDataMessage (c : DataConnection) (bytes : List UInt8) : DataConnection :=
  match unpack bytes with
  | none => c
  | some data =>
    match data.property Property.peerData with
    | none => c
    | some id => if id.toBoolean then c.handleChunk data else c.emit data

/-! ### Closing -/

/-- The transport ends. Of the messages on the channel, those that come `first` have reached the
browser of the other page. -/
def lose (c : DataConnection) (first : Nat) : DataConnection :=
  { c with up := false, channel := c.channel.take first, lost := c.channel.drop first ++ c.lost }

/-- The `RTCPeerConnection` is closed, and the channel with it. Reference:
`DataConnection.prototype.close` (`peer.min.js`), with `Negotiator.cleanup`. -/
def close (c : DataConnection) (first : Nat) : DataConnection :=
  if c.isOpen then { c.lose first with isOpen := false, closed := true } else c

/-! ### Steps -/

inductive Event
  /-- The channel opens. -/
  | opened
  | send (data : Value)
  /-- Another connection of the page sends chunks. -/
  | count
  /-- The file reader of the sending page with this place has finished. -/
  | encoded (i : Nat)
  /-- The channel takes so many messages. -/
  | room (n : Nat)
  /-- The timer of `_trySend`. -/
  | timer
  /-- A message arrives. -/
  | message
  /-- The file reader of the other page with this place has finished. -/
  | read (i : Nat)
  /-- The other page closes the connection, or the transport fails. -/
  | lose (first : Nat)
  /-- The page closes the connection. -/
  | close (first : Nat)

inductive Step (browsers : Browsers) : DataConnection → Event → DataConnection → Prop
  | opened {c : DataConnection} :
      c.closed = false → Step browsers c .opened { c with isOpen := true }
  | send (c : DataConnection) (data : Value) : Step browsers c (.send data) (c.send browsers data)
  | count (c : DataConnection) : Step browsers c .count { c with dataCount := c.dataCount + 1 }
  | encoded {c : DataConnection} {i : Nat} {bytes : List UInt8} :
      c.encoding[i]? = some bytes →
      Step browsers c (.encoded i) ({ c with encoding := c.encoding.eraseIdx i }.bufferedSend bytes)
  | room (c : DataConnection) (n : Nat) : Step browsers c (.room n) { c with room := n }
  | timer {c : DataConnection} :
      c.buffering = true → Step browsers c .timer { c with buffering := false }.tryBuffer
  | message {c : DataConnection} {bytes : List UInt8} {channel : List (List UInt8)} :
      c.channel = bytes :: channel →
      Step browsers c .message ({ c with channel := channel }.handleDataMessage bytes)
  | read {c : DataConnection} {i : Nat} {bytes : List UInt8} :
      c.reading[i]? = some bytes →
      Step browsers c (.read i)
        ((unpack bytes).elim { c with reading := c.reading.eraseIdx i }
          { c with reading := c.reading.eraseIdx i }.emit)
  | lose (c : DataConnection) (first : Nat) : Step browsers c (.lose first) (c.lose first)
  | close (c : DataConnection) (first : Nat) : Step browsers c (.close first) (c.close first)

/-- Nothing is underway. -/
structure Idle (c : DataConnection) : Prop where
  encoding : c.encoding = []
  buffer : c.buffer = []
  channel : c.channel = []
  reading : c.reading = []

end DataConnection

end WebRtcNetty.Html
