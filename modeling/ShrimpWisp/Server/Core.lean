import ShrimpWisp.Server.Connection

/-!
# The connection as an abstract machine

What the concurrency of a connection is about, without the loop: the streams as a map, the flags,
the two channels as queues, the tasks, and the CONNECT that the main task is working on. An
`Effect` is one change of that state. Every step of `ShrimpWisp.step` is an effect, followed by
frames for the client that no task asked for (`Server/Refine.lean`), so a property of the machine
that every effect keeps is a property of the connection.
-/

namespace ShrimpWisp

/-- The CONNECT that the main task is working on. -/
inductive Attempt where
  | idle
  | tcp (streamId : StreamId) (connect : ConnectPayload) (cancel : CancelFlag)
      (known : Option Resolved)
  | udp (streamId : StreamId) (connect : ConnectPayload) (known : Option Resolved)
  /-- The main task sends its own failure event. -/
  | failed (p : Posted)

def Pc.attempt : Pc → Attempt
  | .resolvingTcp _ s connect cancel known => .tcp s connect cancel known
  | .resolvingUdp _ s connect known => .udp s connect known
  | .sending _ p => .failed p
  | _ => .idle

/-- The state of the machine. -/
structure Core where
  entry : StreamId → Option (ProxyStream Octet)
  flags : Flags
  control : List Posted
  data : List DataMsg
  tasks : List Task
  attempt : Attempt
  dns : DnsCache
  up : Bool
  out : List ClientFrame
  accepted : List Accept
  reads : List DataMsg
  received : List Received
  granted : List Grant
  retired : List (OwnedWriteHalf Octet)
  broken : List Inc
  dialed : List Opened
  bound : List Opened

/-- The machine state of a connection. -/
def Conn.core (c : Conn) : Core where
  entry := c.table.get?
  flags := c.flags
  control := c.control.items
  data := c.data.items
  tasks := c.tasks
  attempt := c.pc.attempt
  dns := c.dns
  up := c.clientUp
  out := c.out
  accepted := c.accepted
  reads := c.reads
  received := c.received
  granted := c.granted
  retired := c.retired
  broken := c.broken
  dialed := c.dialed
  bound := c.bound

namespace Core

/-- The latest accepted CONNECT of an id. -/
def current (c : Core) (s : StreamId) : Option Inc :=
  (c.accepted.find? fun a => a.streamId == s).map (·.inc)

/-- Frames written to the client. -/
def emit (c : Core) (fs : List ClientFrame) : Core :=
  { c with out := if c.up then c.out ++ fs else c.out }

/-- The entry of one id. -/
def put (c : Core) (s : StreamId) (x : Option (ProxyStream Octet)) : Core :=
  { c with entry := fun s' => if s' = s then x else c.entry s' }

/-- The write half of a stream. -/
def writers : ProxyStream Octet → List (OwnedWriteHalf Octet)
  | .tcp tcp => [tcp.writer]
  | _ => []

/-- The stream `x` of an id is removed, its flag set and its write half dropped. -/
def remove (c : Core) (s : StreamId) (x : ProxyStream Octet) : Core :=
  { c.put s none with
    flags := c.flags.cancel x.cancel
    retired := writers x ++ c.retired }

/-- `stream_table.remove`: as `remove`, if the id has an entry. -/
def removeEntry (c : Core) (s : StreamId) : Core :=
  { c.put s none with
    flags := match c.entry s with
      | some x => c.flags.cancel x.cancel
      | none => c.flags
    retired := match c.entry s with
      | some x => writers x ++ c.retired
      | none => c.retired }

/-- Task `i` goes on to `state`. -/
def setTask (c : Core) (i : Nat) (t : Task) (state : TaskState) : Core :=
  { c with tasks := c.tasks.set i { t with state } }

/-- A CONNECT is accepted. -/
def accept (c : Core) (s : StreamId) (connect : ConnectPayload) : Core :=
  { c with accepted := ⟨c.accepted.length, s, connect⟩ :: c.accepted }

end Core

/-- A frame that no task asked for: neither backend DATA nor the answer to an event. -/
def ClientFrame.plain : ClientFrame → Bool
  | .data _ => false
  | .close _ _ cause => cause.isNone
  | _ => true

/-- The result of `dns_resolve_no_hold`, `none` for an error, and the cache after it. -/
def Resolves (d : DnsCache) (connect : ConnectPayload) (known res : Option Resolved)
    (d' : DnsCache) : Prop :=
  (∃ r, known = some r ∧ res = some r ∧ d' = d) ∨
  (known = none ∧ ∃ now answer,
    (res = none ∧ d' = d) ∨
    ∃ r, res = some r ∧
      resolveLookup d now connect.hostname connect.port answer = .ok (r, d'))

/-- What is checked before any I/O: the size of the frame by its reader, the rest by
`handle_connect`. -/
structure Admitted (S : Setup) (s : StreamId) (connect : ConnectPayload) : Prop where
  streamId : s ≠ streamIdControl
  port : connect.port ≠ 0
  hostname : S.config.isHostnameBlocked connect.hostname = false
  portList : S.config.isPortBlocked connect.port = false
  preResolution : Security.isHostnameBlockedPreResolution connect.hostname S.config = false
  frame : connect.hostname.length + 8 ≤ S.frameLimit

/-- The stream after a DATA packet, and whether a CONTINUE is due. -/
def counted (S : Setup) (tcp : TcpProxyStream Octet) : Bool × TcpProxyStream Octet :=
  Conn.countPacket S (Conn.track tcp)

theorem track_frame (tcp : TcpProxyStream Octet) :
    (Conn.track tcp).writer = tcp.writer ∧ (Conn.track tcp).pending = tcp.pending ∧
      (Conn.track tcp).packetsSinceContinue = tcp.packetsSinceContinue ∧
      (Conn.track tcp).cancel = tcp.cancel := by
  unfold Conn.track
  split <;> exact ⟨rfl, rfl, rfl, rfl⟩

theorem counted_frame (S : Setup) (tcp : TcpProxyStream Octet) :
    (counted S tcp).2.writer = tcp.writer ∧ (counted S tcp).2.pending = tcp.pending ∧
      (counted S tcp).2.cancel = tcp.cancel := by
  obtain ⟨hw, hp, -, hc⟩ := track_frame tcp
  unfold counted Conn.countPacket TcpProxyStream.recordPacket
  dsimp only
  split <;> exact ⟨hw, hp, hc⟩

/-- The counter after a packet: below the threshold, and restarted when a CONTINUE is due. -/
theorem counted_packets (S : Setup) (tcp : TcpProxyStream Octet) :
    (counted S tcp).2.packetsSinceContinue =
      if (counted S tcp).1 then 0 else tcp.packetsSinceContinue + 1 := by
  obtain ⟨-, -, hk, -⟩ := track_frame tcp
  unfold counted Conn.countPacket TcpProxyStream.recordPacket
  dsimp only
  split
  · rfl
  · simp only [hk]

theorem counted_due (S : Setup) (tcp : TcpProxyStream Octet) :
    (counted S tcp).1 = decide (S.config.continueThreshold ≤ tcp.packetsSinceContinue + 1) := by
  obtain ⟨-, -, hk, -⟩ := track_frame tcp
  unfold counted Conn.countPacket TcpProxyStream.recordPacket
  simp only [hk]

/-- One change of the machine (module doc). -/
inductive Effect (S : Setup) (c : Core) : Core → Prop
  | nop : Effect S c c
  /-- The client's socket fails from now on. -/
  | down : Effect S c { c with up := false }
  /-- Another connection fills the cache. -/
  | otherResolve {h p now answer r d} : parseIpAddr h = none →
      resolveLookup c.dns now h p answer = .ok (r, d) → Effect S c { c with dns := d }
  -- DATA packets
  | early {s cs data} : c.attempt = .idle → c.entry s = some (.connecting cs) →
      cs.earlyData.length < 128 → (∀ o ∈ data, o.tag = c.current s) →
      Effect S c { c.put s (some (.connecting (cs.queueEarlyData data))) with
        received := c.received ++ [⟨cs.cancel.owner, true, data⟩] }
  | earlyFull {s cs data} : c.attempt = .idle → c.entry s = some (.connecting cs) →
      128 ≤ cs.earlyData.length → (∀ o ∈ data, o.tag = c.current s) →
      Effect S c { c with received := c.received ++ [⟨cs.cancel.owner, true, data⟩] }
  | upload {s tcp tcp' data r₁ r₂} : c.attempt = .idle → c.entry s = some (.tcp tcp) →
      tcpTryWrite tcp data r₁ r₂ = (false, tcp') → (∀ o ∈ data, o.tag = c.current s) →
      Effect S c { c.put s (some (.tcp (counted S tcp').2)) with
        received := c.received ++ [⟨tcp.cancel.owner, false, data⟩]
        granted :=
          if (counted S tcp').1 then
            ⟨(counted S tcp').2.cancel.owner, (counted S tcp').2.pending.length⟩ :: c.granted
          else c.granted }
  | uploadDead {s tcp tcp' data r₁ r₂} : c.attempt = .idle → c.entry s = some (.tcp tcp) →
      tcpTryWrite tcp data r₁ r₂ = (true, tcp') → (∀ o ∈ data, o.tag = c.current s) →
      Effect S c { c.remove s (.tcp tcp') with
        received := c.received ++ [⟨tcp.cancel.owner, false, data⟩]
        broken := tcp'.cancel.owner :: c.broken }
  -- Phase 0
  | untrack {s tcp} : c.attempt = .idle → c.entry s = some (.tcp tcp) →
      Effect S c (c.put s (some (.tcp { tcp with queuedForDrain := false })))
  | drain {s tcp r q} : c.attempt = .idle → c.entry s = some (.tcp tcp) →
      Effect S c { c.put s (some (.tcp { (drainPending tcp r).2 with queuedForDrain := q })) with
        broken :=
          if (drainPending tcp r).1 then (drainPending tcp r).2.cancel.owner :: c.broken
          else c.broken }
  /-- A CLOSE of the client, or a dead socket. -/
  | remove {s} : c.attempt = .idle → Effect S c (c.removeEntry s)
  -- CONNECT packets
  | acceptTcp {s connect n} : c.attempt = .idle → c.entry s = none → Admitted S s connect →
      Effect S c { (c.put s (some (.connecting (.new (c.flags.new c.accepted.length).1)))).accept s
          connect with
        flags := (c.flags.new c.accepted.length).2
        attempt := .tcp s connect (c.flags.new c.accepted.length).1
          (resolveNow c.dns n connect.hostname connect.port) }
  /-- A flag that is dropped with a refused stream. -/
  | newFlag {k} : Effect S c { c with flags := (c.flags.new k).2, attempt := .idle }
  | tcpFailed {s connect cancel known res d reason} : c.attempt = .tcp s connect cancel known →
      Resolves c.dns connect known res d →
      Effect S c { c with dns := d, attempt := .failed ⟨.tcpConnectFailed s reason, cancel⟩ }
  | spawnConnect {s connect cancel known r d} : c.attempt = .tcp s connect cancel known →
      Resolves c.dns connect known (some r) d → Security.isIpBlocked r.addr.ip S.config = false →
      Effect S c { c with
        dns := d
        attempt := .idle
        tasks := c.tasks ++ [⟨s, cancel, cancel.owner, .tcp, .spawned r⟩] }
  | sendFailed {p} : c.attempt = .failed p → c.control.length < 256 →
      Effect S c { c with attempt := .idle, control := c.control ++ [p] }
  | startUdp {s connect n} : c.attempt = .idle → Admitted S s connect →
      Effect S c { c with
        attempt := .udp s connect (resolveNow c.dns n connect.hostname connect.port) }
  | refuseUdp {s connect known res d} : c.attempt = .udp s connect known →
      Resolves c.dns connect known res d → Effect S c { c with dns := d, attempt := .idle }
  | refuseUdpFlag {s connect known res d k} : c.attempt = .udp s connect known →
      Resolves c.dns connect known res d →
      Effect S c { c with dns := d, flags := (c.flags.new k).2, attempt := .idle }
  | acceptUdp {s connect known r d} : c.attempt = .udp s connect known →
      Resolves c.dns connect known (some r) d → Security.isIpBlocked r.addr.ip S.config = false →
      c.entry s = none →
      Effect S c { (c.put s (some (.udp ⟨c.accepted.length, r.addr,
          (c.flags.new c.accepted.length).1⟩))).accept s connect with
        dns := d
        flags := (c.flags.new c.accepted.length).2
        attempt := .idle
        bound := ⟨c.accepted.length, r⟩ :: c.bound
        tasks := c.tasks ++
          [⟨s, (c.flags.new c.accepted.length).1, c.accepted.length, .udp, .top⟩] }
  -- Control events
  | ended {p rest s reason} : c.attempt = .idle → c.control = p :: rest →
      p.event = .streamClosed s reason ∨ p.event = .tcpConnectFailed s reason →
      Effect S c (({ c with control := rest }.removeEntry s).emit
        [.close s reason (some p.origin)])
  | connectedNone {p rest s reader writer cancel} : c.attempt = .idle → c.control = p :: rest →
      p.event = .tcpConnected s reader writer cancel → c.entry s = none →
      Effect S c { c with control := rest }
  /-- The entry is taken out and put back, with its flag set. -/
  | connectedOther {p rest s reader writer cancel x} : c.attempt = .idle → c.control = p :: rest →
      p.event = .tcpConnected s reader writer cancel → c.entry s = some x →
      (∀ cs, x ≠ .connecting cs) →
      Effect S c { c with control := rest, flags := c.flags.cancel x.cancel }
  | attach {p rest s reader writer cancel cs rs} : c.attempt = .idle → c.control = p :: rest →
      p.event = .tcpConnected s reader writer cancel → c.entry s = some (.connecting cs) →
      (flushEarly writer cs.earlyData rs).dead = false →
      Effect S c { c.put s (some (.tcp (.withPending (flushEarly writer cs.earlyData rs).writer
          (flushEarly writer cs.earlyData rs).pending
          ((c.flags.cancel cs.cancel).new cs.cancel.owner).1))) with
        control := rest
        flags := ((c.flags.cancel cs.cancel).new cs.cancel.owner).2
        granted := ⟨cs.cancel.owner, (flushEarly writer cs.earlyData rs).pending.length⟩ :: c.granted
        tasks := c.tasks ++
          [⟨s, ((c.flags.cancel cs.cancel).new cs.cancel.owner).1, reader, .tcp, .top⟩] }
  | attachDead {p rest s reader writer cancel cs rs} : c.attempt = .idle → c.control = p :: rest →
      p.event = .tcpConnected s reader writer cancel → c.entry s = some (.connecting cs) →
      (flushEarly writer cs.earlyData rs).dead = true →
      Effect S c { c.put s none with
        control := rest
        flags := ((c.flags.cancel cs.cancel).new cs.cancel.owner).2
        retired := (flushEarly writer cs.earlyData rs).writer :: c.retired
        broken := cs.cancel.owner :: c.broken }
  /-- The backend DATA in one batch. -/
  | batch : c.attempt = .idle → Effect S c ({ c with data := [] }.emit (c.data.map .data))
  -- Tasks
  | taskDone {i t} : c.tasks[i]? = some t → Effect S c (c.setTask i t .done)
  | dial {i t r} : c.tasks[i]? = some t → t.state = .spawned r →
      c.flags.isCancelled t.cancel = false →
      Effect S c { c.setTask i t (.dialing r) with
        dialed := ⟨t.cancel.owner, r⟩ :: c.dialed }
  | connected {i t r} : c.tasks[i]? = some t → t.state = .dialing r →
      Effect S c (c.setTask i t
        (.sendingControl ⟨.tcpConnected t.streamId t.sock ⟨t.sock, []⟩ t.cancel, t.cancel⟩))
  | connectFailed {i t r reason} : c.tasks[i]? = some t → t.state = .dialing r →
      Effect S c (c.setTask i t (.sendingControl ⟨.tcpConnectFailed t.streamId reason, t.cancel⟩))
  | startRead {i t} : c.tasks[i]? = some t → t.state = .top →
      c.flags.isCancelled t.cancel = false → Effect S c (c.setTask i t .reading)
  | read {i t m} : c.tasks[i]? = some t → t.state = .reading →
      c.flags.isCancelled t.cancel = false → m.reader = t.cancel → m.streamId = t.streamId →
      m.sock = t.sock → chunkOk t.streamType m.bytes = true →
      Effect S c { c.setTask i t (.sendingData m) with reads := c.reads ++ [m] }
  | readCancelled {i t m} : c.tasks[i]? = some t → t.state = .reading → m.reader = t.cancel →
      m.streamId = t.streamId → m.sock = t.sock → chunkOk t.streamType m.bytes = true →
      Effect S c { c.setTask i t .done with reads := c.reads ++ [m] }
  | readEnd {i t reason} : c.tasks[i]? = some t → t.state = .reading →
      c.flags.isCancelled t.cancel = false →
      Effect S c (c.setTask i t (.sendingControl ⟨.streamClosed t.streamId reason, t.cancel⟩))
  | sendData {i t m} : c.tasks[i]? = some t → t.state = .sendingData m →
      Effect S c { c.setTask i t .top with data := c.data ++ [m] }
  | sendControl {i t p} : c.tasks[i]? = some t → t.state = .sendingControl p →
      Effect S c { c.setTask i t .done with control := c.control ++ [p] }

end ShrimpWisp
