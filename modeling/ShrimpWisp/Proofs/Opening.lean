import ShrimpWisp.Proofs.Base

/-!
# Opening streams

Runs that open TCP streams one after the other, for any configuration. `Calm S m n q w c` describes
their states: the ids up to `m` are taken, `n` connect tasks wait for their first poll, both
channels and the cache are empty, the main task is at `q`, and the frames `w` of the client wait in
the socket.

* `calm_start`, `calm_client`, `calm_select`, `calm_accept`: from the start to the await of the
  resolver, one CONNECT accepted on the way.
* `reach_spawn`: the resolver answers, and the connect task is spawned; `reach_dial`: it dials.
-/

namespace ShrimpWisp

variable {S : Setup}

/-- A state of such a run (module doc). -/
structure Calm (S : Setup) (m n : Nat) (q : Pc) (w : List WsInput) (c : Conn) : Prop where
  pc : c.pc = q
  wire : c.wire = w
  wsBuf : c.wsBuf = []
  tracked : c.streamsWithPending = []
  continues : c.pendingContinues = []
  control : c.control.items = []
  data : c.data.items = []
  flags : c.flags.cancelled = []
  dns : c.dns.cache = []
  limit : c.table.maxStreams = S.config.maxStreams
  active : c.table.activeCount = m
  free : ∀ s : StreamId, m < s.toNat → c.table.get? s = none
  length : c.tasks.length = n
  spawned : ∀ t ∈ c.tasks, ∃ r, t.state = .spawned r

/-- Such a state is reached. -/
def CalmAt (S : Setup) (m n : Nat) (q : Pc) (w : List WsInput) : Prop :=
  ∃ c, (sys S).Reach Sys.Any c ∧ Calm S m n q w c

theorem calm_start : CalmAt S 0 0 .inner [] := by
  have hs : step S (Conn.start S none) (.main {}) =
      some ((Conn.start S none).finish S .deferred) := rfl
  refine ⟨_, .step (.main {}) (.init ⟨none, rfl⟩) hs trivial, ?_⟩
  exact {
    pc := rfl, wire := rfl, wsBuf := rfl, tracked := rfl, continues := rfl, control := rfl
    data := rfl, flags := rfl, dns := rfl, limit := rfl, active := rfl, length := rfl
    free := fun s _ => StreamTable.get?_new _ s
    spawned := nofun }

variable {m n : Nat} {w : List WsInput}

theorem calm_client (h : CalmAt S m n .inner []) (i : WsInput) : CalmAt S m n .inner [i] := by
  obtain ⟨c, hr, h⟩ := h
  refine ⟨{ c with wire := c.wire ++ [i], credit := c.creditSent S i },
    .step (.client i) hr rfl trivial, { h with wire := ?_ }⟩
  rw [h.wire]
  rfl

/-- From the head of the loop to `select!`. -/
theorem calm_select (h : CalmAt S m n .inner w) : CalmAt S m n .select w := by
  obtain ⟨c, hr, h⟩ := h
  -- The flush has nothing to write.
  have h1 : step S c (.main {}) = some { c with pc := .phase0 [] [] [] } := by
    simp only [step, Conn.stepMain, h.pc, h.wsBuf, Conn.flushThen, Conn.phase0Head, h.tracked,
      h.continues, List.isEmpty_nil, Bool.true_or, if_true, Conn.writeAll, List.map_nil,
      List.append_nil, ite_self]
  have hr1 : (sys S).Reach Sys.Any { c with pc := .phase0 [] [] [] } :=
    .step (.main {}) hr h1 trivial
  have hr2 : (sys S).Reach Sys.Any { c with pc := .phase0Dead [] } :=
    .step (.main {}) hr1 rfl trivial
  have hr3 : (sys S).Reach Sys.Any { c with pc := .phase1 } := .step (.main {}) hr2 rfl trivial
  have hrecv : c.control.tryRecv = none := Chan.tryRecv_none.mpr h.control
  have h4 : step S { c with pc := .phase1 } (.main {}) =
      some (({ c with pc := .phase1 } : Conn).writeBatch .select) := by
    simp only [step, Conn.stepMain, hrecv]
  refine ⟨_, .step (.main {}) hr3 h4 trivial, { h with pc := ?_, data := rfl }⟩
  simp only [Conn.writeBatch, h.data, List.isEmpty_nil, Bool.true_or, if_true]

/-- `handle_connect` accepts the CONNECT of a free id. -/
theorem calm_handleConnect {c c' : Conn} {s : StreamId} {connect : ConnectPayload}
    (hc : c' = c.handleConnect S .select s connect {}) (h : Calm S m n .select [] c) (hs : s.toNat = m + 1)
    (hroom : S.config.maxStreams = 0 ∨ m < S.config.maxStreams)
    (ha : Admitted S s connect) (htcp : connect.streamType = .tcp) :
    ∃ f, Calm S (m + 1) n (.resolvingTcp .select s connect f
      (resolveNow c'.dns c'.now connect.hostname connect.port)) [] c' := by
  have hnone : c.table.get? s = none := h.free s (by omega)
  have hid : ¬ (s = streamIdControl ∨ c.table.contains s = true) := by
    rw [StreamTable.contains, hnone]
    simp [ha.streamId]
  have hconnect : c' = c.handleTcpConnect S .select s connect := by
    rw [hc, Conn.handleConnect, if_neg hid, if_neg ha.port, ha.hostname, ha.portList, ha.preResolution,
      htcp]
    rfl
  have hins : ∀ x, (c.table.insert s x).1 = true := fun x => by
    rw [StreamTable.insert_fst, StreamTable.full, StreamTable.contains, hnone, h.limit, h.active]
    rcases hroom with h0 | hlt
    · simp [h0]
    · simp [Nat.not_le.mpr hlt]
  refine ⟨(c.flags.new c.accepted.length).1, ?_⟩
  subst hconnect
  rw [Conn.handleTcpConnect]
  dsimp only
  generalize hx : (ProxyStream.connecting (.new (c.flags.new c.accepted.length).1)) = x
  obtain ⟨hlimit, hactive⟩ := StreamTable.insert_counts (hins x)
  have hget := StreamTable.get?_insert (hins x)
  have hok := hins x
  generalize c.table.insert s x = r at hlimit hactive hget hok
  obtain ⟨ok, table⟩ := r
  cases hok
  exact { h with
    pc := rfl
    limit := hlimit.trans h.limit
    active := hactive.trans (congrArg (· + 1) h.active)
    free := fun s' hs' => by
      have := hget s'
      rwa [if_neg (by rintro rfl; omega), h.free s' (by omega)] at this }

/-- The CONNECT of a free id is read and accepted. -/
theorem calm_accept {s : StreamId} {connect : ConnectPayload}
    (h : CalmAt S m n .select [packet packetConnect s (connectPayloadBytes connect)])
    (hs : s.toNat = m + 1) (hroom : S.config.maxStreams = 0 ∨ m < S.config.maxStreams)
    (ha : Admitted S s connect) (htcp : connect.streamType = .tcp) (hne : connect.hostname ≠ [])
    (hl : connect.hostname.length ≤ 253) (hv : Utf8.valid connect.hostname = true) :
    ∃ f c, (sys S).Reach Sys.Any c ∧ Calm S (m + 1) n (.resolvingTcp .select s connect f
      (resolveNow c.dns c.now connect.hostname connect.port)) [] c := by
  obtain ⟨c, hr, h⟩ := h
  have hread : readWispFrame S.frameLimit (packet packetConnect s (connectPayloadBytes connect)) =
      some (.wisp packetConnect s (connectPayloadBytes connect)) :=
    readWispFrame_packet (by
      have := ha.frame
      simp only [connectPayloadBytes, toLe16, List.length_append, List.length_cons, List.length_nil]
      omega)
  have hparse := parseConnectPayload_bytes hne hl hv
  let c₁ : Conn := { c with pc := .select, wsBuf := [], wire := [], tried := [] }.resetIdle S
  have hstep : step S c (.main {}) = some (c₁.handleConnect S .select s connect {}) := by
    simp only [step, Conn.stepMain, h.pc, Conn.stepSelect, h.wsBuf, h.wire, hread,
      Conn.handleInbound, hparse, List.take_nil, List.drop_nil]
    rfl
  have h1 : Calm S m n .select [] c₁ := by
    unfold c₁ Conn.resetIdle
    split <;> exact { h with pc := rfl, wire := rfl, wsBuf := rfl }
  obtain ⟨f, h2⟩ := calm_handleConnect rfl h1 hs hroom ha htcp
  exact ⟨f, _, .step (.main {}) hr hstep trivial, h2⟩

/-- The resolver answers, and the connect task is spawned. -/
theorem reach_spawn {c : Conn} (hr : (sys S).Reach Sys.Any c) {s : StreamId}
    {connect : ConnectPayload} {f : CancelFlag} {known : Option Resolved}
    (hpc : c.pc = .resolvingTcp .select s connect f known) (hcont : c.pendingContinues = [])
    {r : Resolved} {d : DnsCache}
    (hres : known = some r ∧ d = c.dns ∨ known = none ∧
      resolveLookup c.dns c.now connect.hostname connect.port (.error []) = .ok (r, d))
    (hb : Security.isIpBlocked r.addr.ip S.config = false)
    (hraw : (!S.config.allowDirectIp && Security.isRawIp connect.hostname) = false) :
    (sys S).Reach Sys.Any { c with
      dns := d
      tasks := c.tasks ++ [⟨s, f, f.owner, .tcp, .spawned r⟩]
      framesSinceYield := c.framesSinceYield + 1
      pc := .inner } := by
  have hfinish : ∀ q, { c with dns := d, pc := q }.tcpResolved S .select s connect f (some r) =
      { c with
        dns := d
        tasks := c.tasks ++ [⟨s, f, f.owner, .tcp, .spawned r⟩]
        framesSinceYield := c.framesSinceYield + 1
        pc := .inner } := by
    intro q
    simp only [Conn.tcpResolved, hb, hraw, Bool.false_eq_true, if_false]
    simp only [Conn.finish, Conn.flushThen, Conn.spawn, hcont, List.isEmpty_nil, Bool.true_or,
      if_true, Conn.writeAll, List.map_nil, List.append_nil, ite_self]
  refine .step (.main {}) hr ?_ trivial
  rcases hres with ⟨rfl, rfl⟩ | ⟨rfl, hl⟩
  · simp only [sys, step, Conn.stepMain, hpc]
    exact congrArg some (hfinish c.pc)
  · simp only [sys, step, Conn.stepMain, hpc, hl]
    exact congrArg some (hfinish _)

/-- A connect task is polled, and dials. -/
theorem reach_dial {c : Conn} (hr : (sys S).Reach Sys.Any c) {i : Nat} {t : Task} {r : Resolved}
    (ht : c.tasks[i]? = some t) (hst : t.state = .spawned r)
    (hf : c.flags.isCancelled t.cancel = false) :
    (sys S).Reach Sys.Any { c with
      tasks := c.tasks.set i { t with state := .dialing r }
      dialed := ⟨t.cancel.owner, r⟩ :: c.dialed } := by
  refine .step (.task i .go) hr ?_ trivial
  simp only [sys, step, Conn.stepTask, ht, hst]
  rw [if_neg (by rw [hf]; decide)]
  rfl

/-! ## Runs of one stream

A client that opens stream 1 to `a.io:80`, with the default configuration. Spawned tasks run only
where the main task waits. -/

/-- The CONNECT of stream 1. -/
def connectOne : Act :=
  .client (packet packetConnect 1 (connectPayloadBytes ⟨.tcp, 80, lit "a.io"⟩))

def closeOne : Act := .client (packet packetClose 1 [CloseReason.voluntary.asByte])

/-- A DATA packet of stream 1 with one byte. -/
def dataOne (b : UInt8) : Act := .client (packet packetData 1 [b])

/-- From the head of the loop, over Phase 0 and Phase 1, to `select!`. -/
def toSelect : List Act := [.main {}, .main {}, .main {}, .main {}]

/-- The resolver's answer for `a.io`. -/
def resolved : Env := { answer := .ok [⟨.v4 ⟨192, 0, 2, 1⟩, 80⟩] }

/-- Stream 1 is opened, its connect task dials, and the main task waits in `select!`. -/
def openOne : List Act :=
  [connectOne, .main {}] ++ toSelect ++ [.main {}, .main resolved] ++ toSelect ++ [.task 0 .go]

/-- Stream 1 is connected, and the main task waits in `select!`. -/
def attachOne : List Act :=
  openOne ++ [.task 0 .connected, .task 0 .go, .main {}, .main {}] ++ toSelect

end ShrimpWisp
