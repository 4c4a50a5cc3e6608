import ShrimpWisp.Lib.Chan
import ShrimpWisp.Protocol.Frame
import ShrimpWisp.Server.Backend
import ShrimpWisp.Server.Dns
import ShrimpWisp.Ws.Reader

/-!
# The state of a connection (`src/server/connection.rs`)

A connection is its main task, the tasks it spawned, the two channels between them, and the client.

* **Incarnations.** Ids are reused, so the accepted CONNECTs are numbered (`Accept`), and
  `Conn.current` is the latest one of an id. A flag's `owner` is the CONNECT it was made for.
* **Tasks** (`Task`): connect tasks and backend readers, with the point where each of them waits.
* **Program counters** (`Pc`) of the main task: the points where it can be suspended, and the heads
  of its loops. Other tasks run between any two steps of the main task; the runtime lets them run
  only where it is suspended.
* **History** is data that no step reads: the fields `out` to `tried` of `Conn`, the `tag` of an
  `Octet`, the `origin` of a `Posted` event and the `cause` of a CLOSE.

Left out: socket options, log lines and the log's counters.
-/

namespace ShrimpWisp

/-- A payload byte from the client. History: the latest accepted CONNECT of the packet's id when the
packet was handled. -/
structure Octet where
  byte : UInt8
  tag : Option Inc
  deriving DecidableEq, Repr

/-- Control event from the backend tasks to the main loop. -/
inductive ControlEvent where
  | streamClosed (streamId : StreamId) (reason : CloseReason)
  | tcpConnected (streamId : StreamId) (reader : Inc) (writer : OwnedWriteHalf Octet)
      (cancel : CancelFlag)
  | tcpConnectFailed (streamId : StreamId) (reason : CloseReason)
  deriving DecidableEq, Repr

def ControlEvent.streamId : ControlEvent → StreamId
  | .streamClosed s _ => s
  | .tcpConnected s _ _ _ => s
  | .tcpConnectFailed s _ => s

/-- The stream ended: `streamClosed` or `tcpConnectFailed`. -/
def ControlEvent.isEnd : ControlEvent → Bool
  | .tcpConnected .. => false
  | _ => true

/-- An event in the control channel. History: the flag of the task that made it. -/
structure Posted where
  event : ControlEvent
  origin : CancelFlag
  deriving DecidableEq, Repr

/-- A DATA frame for the client. History: the reader and its socket, and a datagram's sender. -/
structure DataMsg where
  streamId : StreamId
  bytes : List UInt8
  reader : CancelFlag
  sock : Inc
  source : Option SocketAddr
  deriving DecidableEq, Repr

/-- A frame written to the client. History: the reader or connect task whose event a CLOSE
answers. -/
inductive ClientFrame where
  | data (m : DataMsg)
  | continue (streamId : StreamId) (bufferRemaining : UInt32)
  | close (streamId : StreamId) (reason : CloseReason) (cause : Option CancelFlag)
  | ping
  | pong (payload : List UInt8)
  | wsClose
  deriving DecidableEq, Repr

/-- Where a spawned task waits. -/
inductive TaskState where
  /-- The connect task before its first poll. -/
  | spawned (addr : Resolved)
  /-- The connect task in `TcpStream::connect`. -/
  | dialing (addr : Resolved)
  /-- A reader at the head of its loop. -/
  | top
  | reading
  | sendingData (m : DataMsg)
  | sendingControl (p : Posted)
  | done
  deriving DecidableEq, Repr

/-- A spawned task with its socket: the one it connects, or the one it reads. -/
structure Task where
  streamId : StreamId
  cancel : CancelFlag
  sock : Inc
  streamType : StreamType
  state : TaskState
  deriving DecidableEq, Repr

/-- The part of `handle_connection` that handles an inbound frame. -/
inductive Site where
  | deferred
  | inner
  | select
  deriving DecidableEq, Repr

/-- The program counter of the main task. -/
inductive Pc where
  /-- Before the loop, with the deferred frame. -/
  | start (deferredFrame : Option (List UInt8))
  /-- The loop over the buffered frames. -/
  | inner
  /-- `dns_resolve_no_hold` in `handle_tcp_connect`; `known` needs no lookup. -/
  | resolvingTcp (site : Site) (streamId : StreamId) (connect : ConnectPayload)
      (cancel : CancelFlag) (known : Option Resolved)
  /-- `dns_resolve_no_hold` in `handle_udp_connect`. -/
  | resolvingUdp (site : Site) (streamId : StreamId) (connect : ConnectPayload)
      (known : Option Resolved)
  /-- `tx.send(TcpConnectFailed ..).await` in `handle_tcp_connect`. -/
  | sending (site : Site) (p : Posted)
  /-- Phase 0: the ids still to visit, those kept, and those with a dead socket. -/
  | phase0 (todo kept dead : List StreamId)
  /-- Phase 0: removal of the streams with a dead socket. -/
  | phase0Dead (dead : List StreamId)
  /-- Phase 1, and Phase 2 once the control channel is empty. -/
  | phase1
  | select
  /-- The rest of the control channel, after an event of `select!`. -/
  | controlRest
  | ended
  deriving DecidableEq, Repr

/-- An accepted CONNECT. -/
structure Accept where
  inc : Inc
  streamId : StreamId
  connect : ConnectPayload
  deriving DecidableEq, Repr

/-- A DATA payload handled for an accepted TCP stream, and whether the stream was still
connecting. -/
structure Received where
  inc : Inc
  early : Bool
  data : List Octet
  deriving DecidableEq, Repr

/-- A CONTINUE granted to a TCP stream, and the number of chunks queued for it then. -/
structure Grant where
  inc : Inc
  queued : Nat
  deriving DecidableEq, Repr

/-- An address that was passed to `TcpStream::connect` or stored in a UDP stream. -/
structure Opened where
  inc : Inc
  addr : Resolved
  deriving DecidableEq, Repr

/-- The state of a connection (module doc). -/
structure Conn where
  pc : Pc
  table : StreamTable Octet
  flags : Flags := {}
  pendingContinues : List (StreamId × UInt32) := []
  streamsWithPending : List StreamId := []
  framesSinceYield : Nat := 0
  awaitingPong : Bool := false
  lastPong : Nat := 0
  idleAt : Nat := 0
  pingAt : Nat := 0
  /-- Control events, 256 slots. -/
  control : Chan 256 Posted := .empty
  /-- Backend DATA, 4096 slots. -/
  data : Chan 4096 DataMsg := .empty
  tasks : List Task := []
  dns : DnsCache
  now : Nat := 0
  /-- Complete frames in the WebSocket buffer, and frames not read from the socket yet. -/
  wsBuf : List WsInput := []
  wire : List WsInput := []
  /-- Writes to the client succeed. -/
  clientUp : Bool := true
  /-- Backend sockets that have become writable. -/
  writable : List Inc := []
  /-- The client: the number of frames it has received, and its credits. -/
  seen : Nat := 0
  credit : StreamId → Nat := fun _ => 0
  /-- Frames written to the client, the oldest first. -/
  out : List ClientFrame := []
  /-- Accepted CONNECTs, the latest first. -/
  accepted : List Accept := []
  /-- Chunks read from the backends, the oldest first. -/
  reads : List DataMsg := []
  received : List Received := []
  /-- CONTINUEs granted, the latest first. -/
  granted : List Grant := []
  /-- Write halves that were dropped. -/
  retired : List (OwnedWriteHalf Octet) := []
  /-- Streams whose socket had a fatal write error. -/
  broken : List Inc := []
  dialed : List Opened := []
  bound : List Opened := []
  /-- Streams whose socket was offered bytes since the loop last woke up. -/
  tried : List StreamId := []

/-- The configuration, and the number of cores. -/
structure Setup where
  config : ServerConfig
  cores : Nat := 4
  /-- The last `Instant`: at most the largest one with an `i64` of seconds. -/
  last : Nat := secs (2 ^ 63 - 1) + 999999999

namespace Setup

variable (S : Setup)

/-- Adaptive yield: 64 frames on many cores, 32 on fewer. -/
def yieldLimit : Nat := if 12 ≤ S.cores then 64 else 32

def idleEnabled : Bool := 0 < S.config.idleTimeoutSecs

def pingEnabled : Bool := 0 < S.config.wsPingIntervalSecs

/-- The loop with timers is used. -/
def full : Bool := S.idleEnabled || S.pingEnabled

/-- A year, where a timer is disabled. -/
def idleDuration : Nat :=
  secs (if S.idleEnabled then S.config.idleTimeoutSecs else 365 * 24 * 3600)

def pingInterval : Nat :=
  secs (if S.pingEnabled then S.config.wsPingIntervalSecs else 365 * 24 * 3600)

def pongTimeout : Nat := secs S.config.wsPongTimeoutSecs

/-- The reader's limit on a frame. -/
def frameLimit : Nat := if 0 < S.config.maxFrameSize then S.config.maxFrameSize else maxMessageSize

end Setup

namespace Conn

/-- The latest accepted CONNECT of an id. -/
def current (c : Conn) (s : StreamId) : Option Inc :=
  (c.accepted.find? fun a => a.streamId == s).map (·.inc)

/-- A payload with the history of its bytes. -/
def tagged (c : Conn) (s : StreamId) (payload : List UInt8) : List Octet :=
  payload.map fun b => ⟨b, c.current s⟩

/-- Write frames to the client. -/
def writeAll (c : Conn) (fs : List ClientFrame) : Conn :=
  { c with out := if c.clientUp then c.out ++ fs else c.out }

/-- `write_ws_binary_frame` and the other writers whose result is ignored. -/
def write (c : Conn) (f : ClientFrame) : Conn := c.writeAll [f]

/-- A write half that goes out of scope. -/
def retire (c : Conn) : Option (ProxyStream Octet) → Conn
  | some (.tcp tcp) => { c with retired := tcp.writer :: c.retired }
  | _ => c

/-- `stream_table.remove`, the stream dropped. -/
def removeStream (c : Conn) (s : StreamId) : Conn :=
  let (stream, table, flags) := c.table.remove c.flags s
  { c with table, flags }.retire stream

/-- `spawn_local`. -/
def spawn (c : Conn) (t : Task) : Conn := { c with tasks := c.tasks ++ [t] }

/-- Record an accepted CONNECT. Its number is the number of those before it. -/
def accept (c : Conn) (s : StreamId) (connect : ConnectPayload) : Conn :=
  { c with accepted := ⟨c.accepted.length, s, connect⟩ :: c.accepted }

/-- The connection after the handshake. Frames that were buffered at the hand-off count as the first
ones that the client sends; `HandOff` (`Proofs/Segments.lean`) has the bytes that are buffered there,
and `handled_in_order` that the loop handles them first. -/
def start (S : Setup) (deferredFrame : Option (List UInt8)) : Conn where
  pc := .start deferredFrame
  table := .new S.config.maxStreams
  dns := .new S.config

end Conn

end ShrimpWisp
