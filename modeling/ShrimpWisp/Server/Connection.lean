import ShrimpWisp.Lib.Sys
import ShrimpWisp.Server.Security
import ShrimpWisp.Server.State

/-!
# The connection handler (`src/server/connection.rs`)

`handle_connection` after the handshake, as a step function: `step S c a` is the state after the
action `a`, or `none` if the action is not enabled. The lean and the full `select!` loop are one
definition, the timers enabled by the configuration.

* **The main task** (`stepMain`) with what its environment answers (`Env`): backend writes, the
  resolver, the bind of a UDP socket, how many frames a read of the client socket brings.
* **Spawned tasks** (`stepTask`): connect tasks and backend readers.
* **The client and the rest of the worker** (`Act`): frames sent and received, the client socket
  going down, other connections filling the shared DNS cache, time.
* **Times** have no bound here. In the code an `Instant + Duration` past the last `Instant` panics,
  which aborts the process, and `sleep` takes a time 30 years ahead instead. `Conn.Fits`
  (`Server/Clock.lean`) says that a step makes no such sum.
-/

namespace ShrimpWisp

/-- What the environment answers in one step of the main task. -/
structure Env where
  writes : List WriteResult := []
  /-- Frames that one read of the client socket brings besides the first. -/
  more : Nat := 0
  bindOk : Bool := true
  answer : Answer := .error []

/-- The `i`-th answer to a backend write. -/
def Env.write (e : Env) (i : Nat) : WriteResult := e.writes.getD i .wouldBlock

namespace Conn

variable (S : Setup)

/-! ## CONTINUEs and the heads of the loop -/

/-- `flush_continues_direct`, then `next`; a failed write ends the connection. -/
def flushThen (c : Conn) (next : Pc) : Conn :=
  let ok := c.pendingContinues.isEmpty || c.clientUp
  { c.writeAll (c.pendingContinues.map fun p => .continue p.1 p.2) with
    pendingContinues := []
    pc := if ok then next else .ended }

/-- Start Phase 0. -/
def phase0Head (c : Conn) : Pc := .phase0 c.streamsWithPending [] []

/-- What follows the handling of a frame. After the deferred one both timers are set, with
`sleep`. -/
def finish (c : Conn) : Site → Conn
  | .deferred =>
    { c with idleAt := c.now + S.idleDuration, pingAt := c.now + S.pingInterval }.flushThen .inner
  | .inner =>
    if S.yieldLimit ≤ c.framesSinceYield + 1 then
      { c with framesSinceYield := 0 }.flushThen c.phase0Head
    else { c with framesSinceYield := c.framesSinceYield + 1, pc := .inner }
  | .select => { c with framesSinceYield := c.framesSinceYield + 1 }.flushThen .inner

/-- The handler asked to break the loop. -/
def breakLoop (c : Conn) : Site → Conn
  | .inner => c.flushThen .ended
  | _ => { c with pc := .ended }

/-! ## Inbound packets -/

/-- A queue that Phase 0 does not know of yet. -/
def needsTracking (tcp : TcpProxyStream Octet) : Bool :=
  !tcp.pending.isEmpty && !tcp.queuedForDrain

/-- Mark the stream as tracked for Phase 0. -/
def track (tcp : TcpProxyStream Octet) : TcpProxyStream Octet :=
  if needsTracking tcp then { tcp with queuedForDrain := true } else tcp

/-- Count a packet; `true` if a CONTINUE is due, the counter then restarts. -/
def countPacket (tcp : TcpProxyStream Octet) : Bool × TcpProxyStream Octet :=
  let (due, tcp) := tcp.recordPacket S.config.continueThreshold
  (due, if due then tcp.resetCounter else tcp)

/-- `handle_data_zerocopy`; the id of a stream whose socket died. -/
def handleDataZerocopy (c : Conn) (streamId : StreamId) (payload : List UInt8) (e : Env) :
    Option StreamId × Conn :=
  match c.table.get? streamId with
  | none => (none, c)
  | some (.tcp tcp) =>
    let data := c.tagged streamId payload
    let c := { c with
      received := c.received ++ [Received.mk tcp.cancel.owner false data]
      tried := streamId :: c.tried }
    -- The first answer is for the queue, the second for the packet.
    let (dead, tcp) := tcpTryWrite tcp data (e.write 0) (e.write 1)
    if dead then
      let c := { c with
        table := c.table.set streamId (.tcp tcp)
        broken := tcp.cancel.owner :: c.broken }
      (some streamId, c.removeStream streamId)
    else
      let queue := needsTracking tcp
      let (due, tcp) := countPacket S (track tcp)
      (none, { c with
        table := c.table.set streamId (.tcp tcp)
        streamsWithPending :=
          if queue then c.streamsWithPending ++ [streamId] else c.streamsWithPending
        pendingContinues :=
          if due then c.pendingContinues ++ [(streamId, S.config.bufferSize)]
          else c.pendingContinues
        granted :=
          if due then ⟨tcp.cancel.owner, tcp.pending.length⟩ :: c.granted else c.granted })
  | some (.udp _) => (none, c)
  | some (.connecting connecting) =>
    let data := c.tagged streamId payload
    let c := { c with received := c.received ++ [Received.mk connecting.cancel.owner true data] }
    -- The early-data queue is capped at 128 packets.
    if connecting.earlyData.length < 128 then
      (none, { c with
        table := c.table.set streamId (.connecting (connecting.queueEarlyData data)) })
    else (none, c)

/-- A DATA packet, with the CLOSE for a dead socket. -/
def handleData (c : Conn) (site : Site) (streamId : StreamId) (payload : List UInt8) (e : Env) :
    Conn :=
  match c.handleDataZerocopy S streamId payload e with
  | (some dead, c) => (c.write (.close dead .networkError none)).finish S site
  | (none, c) => c.finish S site

/-- A CLOSE without an event behind it. -/
def refuse (c : Conn) (site : Site) (streamId : StreamId) (reason : CloseReason) : Conn :=
  (c.write (.close streamId reason none)).finish S site

/-- `handle_tcp_connect` up to the await of the resolver. -/
def handleTcpConnect (c : Conn) (site : Site) (streamId : StreamId) (connect : ConnectPayload) :
    Conn :=
  let (cancel, flags) := c.flags.new c.accepted.length
  match c.table.insert streamId (.connecting (.new cancel)) with
  | (false, table) => { c with table, flags }.refuse S site streamId .throttled
  | (true, table) =>
    { { c with table, flags }.accept streamId connect with
      pc := .resolvingTcp site streamId connect cancel
        (resolveNow c.dns c.now connect.hostname connect.port) }

/-- `handle_tcp_connect` after the resolver. -/
def tcpResolved (c : Conn) (site : Site) (streamId : StreamId) (connect : ConnectPayload)
    (cancel : CancelFlag) (resolved : Option Resolved) : Conn :=
  let fail (reason : CloseReason) : Conn :=
    { c with pc := .sending site ⟨.tcpConnectFailed streamId reason, cancel⟩ }
  match resolved with
  | none => fail .unreachable
  | some r =>
    if Security.isIpBlocked r.addr.ip S.config then fail .blocked
    else if !S.config.allowDirectIp && Security.isRawIp connect.hostname then fail .blocked
    else (c.spawn ⟨streamId, cancel, cancel.owner, .tcp, .spawned r⟩).finish S site

/-- `handle_udp_connect` up to the await of the resolver. -/
def handleUdpConnect (c : Conn) (site : Site) (streamId : StreamId) (connect : ConnectPayload)
    (e : Env) : Conn :=
  if e.bindOk then
    { c with
      pc := .resolvingUdp site streamId connect
        (resolveNow c.dns c.now connect.hostname connect.port) }
  else c.refuse S site streamId .networkError

/-- `handle_udp_connect` after the resolver. -/
def udpResolved (c : Conn) (site : Site) (streamId : StreamId) (connect : ConnectPayload)
    (resolved : Option Resolved) : Conn :=
  match resolved with
  | none => c.refuse S site streamId .unreachable
  | some r =>
    if Security.isIpBlocked r.addr.ip S.config then c.refuse S site streamId .blocked
    else
      let inc := c.accepted.length
      let (cancel, flags) := c.flags.new inc
      match c.table.insert streamId (.udp ⟨inc, r.addr, cancel⟩) with
      | (false, table) => { c with table, flags }.refuse S site streamId .throttled
      | (true, table) =>
        let c := { c with table, flags }.accept streamId connect
        let c := { c with bound := ⟨inc, r⟩ :: c.bound }
        (c.spawn ⟨streamId, cancel, inc, .udp, .top⟩).finish S site

/-- `handle_connect`. -/
def handleConnect (c : Conn) (site : Site) (streamId : StreamId) (connect : ConnectPayload)
    (e : Env) : Conn :=
  if streamId = streamIdControl ∨ c.table.contains streamId = true then
    c.refuse S site streamId .invalidInfo
  else if connect.port = 0 then c.refuse S site streamId .invalidInfo
  else if S.config.isHostnameBlocked connect.hostname then c.refuse S site streamId .blocked
  else if S.config.isPortBlocked connect.port then c.refuse S site streamId .blocked
  else if Security.isHostnameBlockedPreResolution connect.hostname S.config then
    c.refuse S site streamId .blocked
  else
    match connect.streamType with
    | .tcp => c.handleTcpConnect S site streamId connect
    | .udp => c.handleUdpConnect S site streamId connect e

/-- `handle_inbound!`; `none` is an error of the reader. -/
def handleInbound (c : Conn) (site : Site) (e : Env) : Option WispFrameResult → Conn
  | none => c.breakLoop site
  | some (.wisp packetType streamId payload) =>
    if packetType = packetData then c.handleData S site streamId payload e
    else if packetType = packetConnect then
      match parseConnectPayload payload with
      | some connect => c.handleConnect S site streamId connect e
      | none => c.refuse S site streamId .invalidInfo
    else if packetType = packetClose then
      if streamId = streamIdControl then (c.write .wsClose).breakLoop site
      else (c.removeStream streamId).finish S site
    else c.finish S site
  | some (.control f) =>
    match f.opcode with
    | .close => (c.write .wsClose).breakLoop site
    | .ping => (c.write (.pong (f.payload.take 125))).finish S site
    | .pong => { c with awaitingPong := false, lastPong := c.now }.finish S site
    | _ => c.finish S site

/-- `process_inbound_frame`, for the deferred frame. Its result is not used. -/
def processInboundFrame (c : Conn) (e : Env) (payload : List UInt8) : Conn :=
  if 0 < S.config.maxFrameSize ∧ S.config.maxFrameSize < payload.length then c.finish S .deferred
  else
    match payload with
    | t :: b0 :: b1 :: b2 :: b3 :: rest =>
      let streamId := le32 b0 b1 b2 b3
      if t = packetData then c.handleData S .deferred streamId rest e
      else if t = packetConnect then
        match parseWispFrame payload with
        | some (.connect streamId connect) => c.handleConnect S .deferred streamId connect e
        | _ => c.refuse S .deferred streamId .invalidInfo
      else if t = packetClose then
        if streamId = streamIdControl then c.finish S .deferred
        else (c.removeStream streamId).finish S .deferred
      else c.finish S .deferred
    | _ => c.finish S .deferred

/-! ## Control events -/

/-- A stream that has ended on the backend's side. -/
def handleEnd (c : Conn) (streamId : StreamId) (reason : CloseReason) (origin : CancelFlag) : Conn :=
  (c.removeStream streamId).write (.close streamId reason (some origin))

/-- `handle_control_event` for TcpConnected. The event's own flag is ignored. -/
def handleTcpConnected (c : Conn) (e : Env) (streamId : StreamId) (reader : Inc)
    (writer : OwnedWriteHalf Octet) : Conn :=
  match c.table.remove c.flags streamId with
  | (some (.connecting connecting), table, flags) =>
    let (cancel, flags) := flags.new connecting.cancel.owner
    let flushed := flushEarly writer connecting.earlyData e.writes
    let c := { c with
      table, flags
      tried := if connecting.earlyData.isEmpty then c.tried else streamId :: c.tried }
    if flushed.dead then
      let c := { c with
        retired := flushed.writer :: c.retired
        broken := cancel.owner :: c.broken }
      c.write (.close streamId .networkError none)
    else
      let tcp := TcpProxyStream.withPending flushed.writer flushed.pending cancel
      let c := { c with
        table := (c.table.insert streamId (.tcp tcp)).2
        streamsWithPending :=
          if flushed.pending.isEmpty then c.streamsWithPending
          else c.streamsWithPending ++ [streamId]
        granted := ⟨cancel.owner, flushed.pending.length⟩ :: c.granted }
      (c.write (.continue streamId S.config.bufferSize)).spawn
        ⟨streamId, cancel, reader, .tcp, .top⟩
  | (some existing, table, flags) =>
    { c with table := (table.insert streamId existing).2, flags }
  | (none, table, flags) => { c with table, flags }

/-- `handle_control_event`. -/
def handleControlEvent (c : Conn) (e : Env) (p : Posted) : Conn :=
  match p.event with
  | .streamClosed streamId reason => c.handleEnd streamId reason p.origin
  | .tcpConnected streamId reader writer _ => c.handleTcpConnected S e streamId reader writer
  | .tcpConnectFailed streamId reason => c.handleEnd streamId reason p.origin

/-! ## The main task -/

/-- Phase 0 for one id of `streams_with_pending`: kept, and dead. -/
def drainOne (c : Conn) (streamId : StreamId) (r : WriteResult) : Bool × Bool × Conn :=
  match c.table.get? streamId with
  | some (.tcp tcp) =>
    if tcp.pending.isEmpty then
      (false, false,
        { c with table := c.table.set streamId (.tcp { tcp with queuedForDrain := false }) })
    else
      let c := { c with tried := streamId :: c.tried }
      let (dead, tcp) := drainPending tcp r
      let keep := !dead && !tcp.pending.isEmpty
      let tcp := if keep then tcp else { tcp with queuedForDrain := false }
      (keep, dead, { c with
        table := c.table.set streamId (.tcp tcp)
        broken := if dead then tcp.cancel.owner :: c.broken else c.broken })
  | _ => (false, false, c)

/-- The backend DATA in one batched write, then `next`. -/
def writeBatch (c : Conn) (next : Pc) : Conn :=
  let ok := c.data.items.isEmpty || c.clientUp
  { c.writeAll (c.data.items.map .data) with
    data := c.data.drain
    pc := if ok then next else .ended }

/-- The timers of the full loop. -/
def stepTimers (c : Conn) : Option Conn :=
  if !S.full then none
  else if c.idleAt ≤ c.now then some { c with pc := .ended }
  else if c.pingAt ≤ c.now then
    if S.pingEnabled then
      if c.awaitingPong && decide (S.pongTimeout < c.now - c.lastPong) then
        some { c with pc := .ended }
      else
        some { c.write .ping with
          awaitingPong := true, pingAt := c.now + S.pingInterval, pc := .inner }
    else some { c with pc := .inner }
  else none

/-- The idle timer restarts with an inbound frame: `reset(Instant::now() + idle_duration)`. -/
def resetIdle (c : Conn) : Conn :=
  if S.idleEnabled then { c with idleAt := c.now + S.idleDuration } else c

/-- The biased `select!`. -/
def stepSelect (c : Conn) (e : Env) : Option Conn :=
  match c.wsBuf, c.wire with
  | i :: rest, _ =>
    some (({ c with wsBuf := rest, tried := [] }.resetIdle S).handleInbound S .select e
      (readWispFrame S.frameLimit i))
  | [], i :: rest =>
    some (({ c with wsBuf := rest.take e.more, wire := rest.drop e.more, tried := [] }.resetIdle
      S).handleInbound S .select e (readWispFrame S.frameLimit i))
  | [], [] =>
    if c.data.items ≠ [] then some ({ c with tried := [] }.writeBatch .inner)
    else
      match c.control.tryRecv with
      | some (p, control) =>
        some { { c with control, tried := [] }.handleControlEvent S e p with pc := .controlRest }
      | none => { c with tried := [] }.stepTimers S

/-- A step of the main task. -/
def stepMain (c : Conn) (e : Env) : Option Conn :=
  match c.pc with
  | .start none => some (c.finish S .deferred)
  | .start (some payload) => some (c.processInboundFrame S e payload)
  | .inner =>
    match c.wsBuf with
    | i :: rest =>
      some (({ c with wsBuf := rest }.resetIdle S).handleInbound S .inner e
        (tryReadWispFrame S.frameLimit i))
    | [] => some (c.flushThen c.phase0Head)
  | .resolvingTcp site streamId connect cancel known =>
    match known with
    | some r => some (c.tcpResolved S site streamId connect cancel (some r))
    | none =>
      match resolveLookup c.dns c.now connect.hostname connect.port e.answer with
      | .error _ => some (c.tcpResolved S site streamId connect cancel none)
      | .ok (r, dns) =>
        some ({ c with dns }.tcpResolved S site streamId connect cancel (some r))
  | .resolvingUdp site streamId connect known =>
    match known with
    | some r => some (c.udpResolved S site streamId connect (some r))
    | none =>
      match resolveLookup c.dns c.now connect.hostname connect.port e.answer with
      | .error _ => some (c.udpResolved S site streamId connect none)
      | .ok (r, dns) => some ({ c with dns }.udpResolved S site streamId connect (some r))
  | .sending site p =>
    match c.control.trySend p with
    | some control => some ({ c with control }.finish S site)
    | none => none
  | .phase0 [] _ dead => some { c with pc := .phase0Dead dead }
  | .phase0 (s :: todo) kept dead =>
    let (keep, died, c) := c.drainOne s (e.write 0)
    let kept := if keep then kept ++ [s] else kept
    let dead := if died then dead ++ [s] else dead
    some { c with streamsWithPending := kept ++ todo, pc := .phase0 todo kept dead }
  | .phase0Dead [] => some { c with pc := .phase1 }
  | .phase0Dead (s :: dead) =>
    some { (c.removeStream s).write (.close s .networkError none) with pc := .phase0Dead dead }
  | .phase1 =>
    match c.control.tryRecv with
    | some (p, control) =>
      some { { c with control }.handleControlEvent S e p with pc := .phase1 }
    | none => some (c.writeBatch .select)
  | .select => c.stepSelect S e
  | .controlRest =>
    match c.control.tryRecv with
    | some (p, control) =>
      some { { c with control }.handleControlEvent S e p with pc := .controlRest }
    | none => some { c with pc := .inner }
  | .ended => none

end Conn

/-! ## Spawned tasks -/

/-- How `TcpStream::connect` fails under its timeout of 10 seconds. -/
inductive ConnectFailure where
  | refused
  | other
  | timedOut
  deriving DecidableEq, Repr

def ConnectFailure.reason : ConnectFailure → CloseReason
  | .refused => .refused
  | .other => .unreachable
  | .timedOut => .timedOut

/-- What a spawned task waits for. -/
inductive TaskInput where
  /-- Nothing: a poll, or a free slot in a channel. -/
  | go
  | connected
  | connectFailed (f : ConnectFailure)
  /-- Bytes from the backend; a datagram with its sender. -/
  | chunk (bytes : List UInt8) (source : Option SocketAddr)
  | eof
  | readError
  deriving DecidableEq, Repr

/-- A chunk that one read can return: a datagram may be empty, a TCP read of no bytes is the end of
the stream. -/
def chunkOk : StreamType → List UInt8 → Bool
  | .tcp, bytes => decide (0 < bytes.length ∧ bytes.length ≤ 65536)
  | .udp, bytes => decide (bytes.length ≤ 65535)

namespace Conn

/-- The main task has ended: the receivers of both channels are gone. -/
def gone (c : Conn) : Bool := c.pc == .ended

/-- Task `i` goes on to `state`. -/
def setTask (c : Conn) (i : Nat) (t : Task) (state : TaskState) : Conn :=
  { c with tasks := c.tasks.set i { t with state } }

/-- A reader's report of the end of its stream, unless the stream was cancelled. -/
def endReader (c : Conn) (i : Nat) (t : Task) (reason : CloseReason) : Conn :=
  if c.flags.isCancelled t.cancel then c.setTask i t .done
  else c.setTask i t (.sendingControl ⟨.streamClosed t.streamId reason, t.cancel⟩)

/-- A step of the spawned task `i`. -/
def stepTask (c : Conn) (i : Nat) (x : TaskInput) : Option Conn :=
  match c.tasks[i]? with
  | none => none
  | some t =>
    match t.state, x with
    | .spawned r, .go =>
      if c.flags.isCancelled t.cancel then some (c.setTask i t .done)
      else some ({ c with dialed := ⟨t.cancel.owner, r⟩ :: c.dialed }.setTask i t (.dialing r))
    | .dialing _, .connected =>
      some (c.setTask i t
        (.sendingControl ⟨.tcpConnected t.streamId t.sock ⟨t.sock, []⟩ t.cancel, t.cancel⟩))
    | .dialing _, .connectFailed f =>
      some (c.setTask i t (.sendingControl ⟨.tcpConnectFailed t.streamId f.reason, t.cancel⟩))
    | .top, .go =>
      some (c.setTask i t (if c.flags.isCancelled t.cancel then .done else .reading))
    | .reading, .chunk bytes source =>
      if chunkOk t.streamType bytes then
        let m : DataMsg := ⟨t.streamId, bytes, t.cancel, t.sock, source⟩
        let c := { c with reads := c.reads ++ [m] }
        some (c.setTask i t (if c.flags.isCancelled t.cancel then .done else .sendingData m))
      else none
    | .reading, .eof =>
      match t.streamType with
      | .tcp => some (c.endReader i t .voluntary)
      | .udp => none
    | .reading, .readError => some (c.endReader i t .networkError)
    | .sendingData m, .go =>
      if c.gone then some (c.setTask i t .done)
      else
        match c.data.trySend m with
        | some data => some ({ c with data }.setTask i t .top)
        | none => none
    | .sendingControl p, .go =>
      if c.gone then some (c.setTask i t .done)
      else
        match c.control.trySend p with
        | some control => some ({ c with control }.setTask i t .done)
        | none => none
    | _, _ => none

/-! ## The client -/

/-- The client's credits after it sent a frame: a CONNECT opens a stream with the buffer size, a
DATA packet costs one. -/
def creditSent (S : Setup) (c : Conn) : WsInput → StreamId → Nat
  | .broken => c.credit
  | .frame f =>
    match WispFrameResult.ofFrame f with
    | .wisp t s _ =>
      if t = packetConnect then fun s' => if s' = s then S.config.bufferSize.toNat else c.credit s'
      else if t = packetData then fun s' => if s' = s then c.credit s - 1 else c.credit s'
      else c.credit
    | .control _ => c.credit

/-- The client's credits after it received a frame: a CONTINUE sets those of its stream. -/
def creditSeen (c : Conn) : ClientFrame → StreamId → Nat
  | .continue s n => fun s' => if s' = s then n.toNat else c.credit s'
  | _ => c.credit

end Conn

/-- An action: a task's step, or one of the rest of the world. -/
inductive Act where
  | main (e : Env)
  | task (i : Nat) (x : TaskInput)
  | client (i : WsInput)
  | clientReads
  | clientDown
  /-- Another connection of the worker resolves a name. -/
  | otherResolve (hostname : Str) (port : UInt16) (answer : Answer)
  | tick (d : Nat)
  | writable (sock : Inc)

/-- The state after an action. -/
def step (S : Setup) (c : Conn) : Act → Option Conn
  | .main e => c.stepMain S e
  | .task i x => c.stepTask i x
  | .client i => some { c with wire := c.wire ++ [i], credit := c.creditSent S i }
  | .clientReads =>
    match c.out[c.seen]? with
    | some f => some { c with seen := c.seen + 1, credit := c.creditSeen f }
    | none => none
  | .clientDown => some { c with clientUp := false }
  | .otherResolve hostname port answer =>
    match parseIpAddr hostname with
    | some _ => none
    | none =>
      match resolveLookup c.dns c.now hostname port answer with
      | .error _ => none
      | .ok (_, dns) => some { c with dns }
  | .tick d => some { c with now := c.now + d }
  | .writable sock => some { c with writable := sock :: c.writable }

/-- A Wisp packet of the client, in a Binary frame. -/
def packet (packetType : UInt8) (streamId : StreamId) (payload : List UInt8) : WsInput :=
  .frame { opcode := .binary, payload := packetType :: toLe32 streamId ++ payload }

theorem readWispFrame_packet {limit : Nat} {t : UInt8} {s : StreamId} {payload : List UInt8}
    (h : payload.length + 5 ≤ limit) :
    readWispFrame limit (packet t s payload) = some (.wisp t s payload) := by
  have hlen : ¬ limit < (t :: toLe32 s ++ payload).length := by
    simp only [toLe32, List.length_cons, List.length_append, List.length_nil]
    omega
  simp only [readWispFrame, readFrameInner, packet, checkFrame, OpCode.isControl, Bool.false_and,
    Bool.false_eq_true, if_false, hlen, reduceCtorEq, false_and, Option.map_some]
  simp only [WispFrameResult.ofFrame, toLe32, List.cons_append, List.nil_append, le32_toLe32]

/-- What a spawned task can change. -/
theorem Conn.stepTask_changes {c c' : Conn} {i : Nat} {x : TaskInput}
    (hs : c.stepTask i x = some c') :
    ∃ tasks control data reads dialed, c' = { c with tasks, control, data, reads, dialed } := by
  have hend : ∀ t reason, c' = c.endReader i t reason →
      ∃ tasks control data reads dialed, c' = { c with tasks, control, data, reads, dialed } := by
    rintro t reason rfl
    unfold endReader
    split <;> exact ⟨_, _, _, _, _, rfl⟩
  unfold stepTask at hs
  split at hs
  · cases hs
  · split at hs
    · split at hs <;> cases hs <;> exact ⟨_, _, _, _, _, rfl⟩
    · cases hs; exact ⟨_, _, _, _, _, rfl⟩
    · cases hs; exact ⟨_, _, _, _, _, rfl⟩
    · cases hs; exact ⟨_, _, _, _, _, rfl⟩
    · split at hs <;> cases hs; exact ⟨_, _, _, _, _, rfl⟩
    · split at hs
      · exact hend _ _ (Option.some.inj hs).symm
      · cases hs
    · exact hend _ _ (Option.some.inj hs).symm
    · split at hs
      · cases hs; exact ⟨_, _, _, _, _, rfl⟩
      · split at hs <;> cases hs; exact ⟨_, _, _, _, _, rfl⟩
    · split at hs
      · cases hs; exact ⟨_, _, _, _, _, rfl⟩
      · split at hs <;> cases hs; exact ⟨_, _, _, _, _, rfl⟩
    · cases hs

/-- The connection as a transition system: it starts with any deferred frame. -/
def sys (S : Setup) : Sys Conn Act where
  init c := ∃ deferredFrame, c = Conn.start S deferredFrame
  step := step S

/-! ## Concrete runs -/

/-- The TCP stream in the table under the id `s`. -/
def Conn.tcpAt (c : Conn) (s : StreamId) : Option (TcpProxyStream Octet) :=
  match c.table.get? s with
  | some (.tcp tcp) => some tcp
  | _ => none

theorem Conn.get?_of_tcpAt {c : Conn} {s : StreamId} {tcp : TcpProxyStream Octet}
    (h : c.tcpAt s = some tcp) : c.table.get? s = some (.tcp tcp) := by
  unfold tcpAt at h
  split at h
  · rename_i hx; cases h; exact hx
  · cases h

/-- The connecting stream in the table under the id `s`. -/
def Conn.connectingAt (c : Conn) (s : StreamId) : Option (ConnectingStream Octet) :=
  match c.table.get? s with
  | some (.connecting cs) => some cs
  | _ => none

theorem Conn.get?_of_connectingAt {c : Conn} {s : StreamId} {cs : ConnectingStream Octet}
    (h : c.connectingAt s = some cs) : c.table.get? s = some (.connecting cs) := by
  unfold connectingAt at h
  split at h
  · rename_i hx; cases h; exact hx
  · cases h

/-- A run without a deferred frame whose last state is computed to satisfy `P`. -/
theorem Reach.of_run (S : Setup) (ok : Conn → Act → Conn → Prop) [∀ c a c', Decidable (ok c a c')]
    (as : List Act) (P : Conn → Bool)
    (h : ((sys S).run ok (Conn.start S none) as).any P = true) :
    ∃ c, (sys S).Reach ok c ∧ P c = true := by
  obtain ⟨c, hc, hp⟩ := (Option.any_eq_true P _).mp h
  exact ⟨c, Sys.Reach.of_run (.init ⟨none, rfl⟩) hc, hp⟩

/-- A run whose last state is computed to have a TCP stream `s` that satisfies `P`. -/
theorem Reach.exists_tcp (S : Setup) (ok : Conn → Act → Conn → Prop)
    [∀ c a c', Decidable (ok c a c')] (as : List Act) (s : StreamId)
    (P : Conn → TcpProxyStream Octet → Bool)
    (h : ((sys S).run ok (Conn.start S none) as).any (fun c => (c.tcpAt s).any (P c)) = true) :
    ∃ c tcp, (sys S).Reach ok c ∧ c.table.get? s = some (.tcp tcp) ∧ P c tcp = true := by
  obtain ⟨c, hr, hc⟩ := Reach.of_run S ok as _ h
  obtain ⟨tcp, hx, hp⟩ := (Option.any_eq_true _ _).mp hc
  exact ⟨c, tcp, hr, Conn.get?_of_tcpAt hx, hp⟩

/-- A run whose last state is computed to have a connecting stream `s` that satisfies `P`. -/
theorem Reach.exists_connecting (S : Setup) (ok : Conn → Act → Conn → Prop)
    [∀ c a c', Decidable (ok c a c')] (as : List Act) (s : StreamId)
    (P : Conn → ConnectingStream Octet → Bool)
    (h : ((sys S).run ok (Conn.start S none) as).any
      (fun c => (c.connectingAt s).any (P c)) = true) :
    ∃ c cs, (sys S).Reach ok c ∧ c.table.get? s = some (.connecting cs) ∧ P c cs = true := by
  obtain ⟨c, hr, hc⟩ := Reach.of_run S ok as _ h
  obtain ⟨cs, hx, hp⟩ := (Option.any_eq_true _ _).mp hc
  exact ⟨c, cs, hr, Conn.get?_of_connectingAt hx, hp⟩

end ShrimpWisp
