import ShrimpWisp.Proofs.Incarnation

/-!
# TcpConnected events without a Connecting entry

`handle_control_event` takes the entry of the id out of the table before it looks at it, and puts a
Tcp or Udp entry back. The entry is back where it was, also in a table at its limit, but `remove`
has set its cancel flag, which the stream shares with its backend reader.

* `reinserted_unchanged`: what the handler leaves behind, apart from that flag.
* `tcpConnected_unchanged`: the event changes nothing exactly if the id has no entry, or one whose
  flag is set already.
* `tcpConnected_cancels`: in a run with two connects of an id, the event of the second one stops the
  reader of the stream.
-/

namespace ShrimpWisp

variable {S : Setup}

/-- The connection is as it was: the entries with their queues and counters, the flags that are set,
and everything else. -/
structure Conn.Unchanged (c d : Conn) : Prop where
  entries : ∀ s, d.table.get? s = c.table.get? s
  len : d.table.len = c.table.len
  maxStreams : d.table.maxStreams = c.table.maxStreams
  cancelled : ∀ f, d.flags.isCancelled f = c.flags.isCancelled f
  rest : d = { c with table := d.table, flags := { d.flags with next := c.flags.next } }

/-- The connection after an entry was taken out and put back. -/
def Conn.reinserted (c : Conn) (s : StreamId) (x : ProxyStream Octet) : Conn :=
  { c with table := ((c.table.takeEntry s).insert s x).2, flags := c.flags.cancel x.cancel }

theorem handleTcpConnected_none {c : Conn} {s : StreamId} (h : c.table.get? s = none) (e : Env)
    (reader : Inc) (writer : OwnedWriteHalf Octet) :
    c.handleTcpConnected S e s reader writer = c := by
  simp only [Conn.handleTcpConnected, StreamTable.remove, h]

theorem handleTcpConnected_existing {c : Conn} {s : StreamId} {x : ProxyStream Octet}
    (h : c.table.get? s = some x) (hx : ∀ cs, x ≠ .connecting cs) (e : Env) (reader : Inc)
    (writer : OwnedWriteHalf Octet) :
    c.handleTcpConnected S e s reader writer = c.reinserted s x := by
  cases x with
  | tcp tcp => simp only [Conn.handleTcpConnected, StreamTable.remove, h, Conn.reinserted]
  | udp udp => simp only [Conn.handleTcpConnected, StreamTable.remove, h, Conn.reinserted]
  | connecting cs => exact absurd rfl (hx cs)

/-- Nothing but the flag of the entry differs. -/
theorem reinserted_unchanged {c : Conn} {s : StreamId} {x : ProxyStream Octet}
    (h : c.table.get? s = some x) :
    c.Unchanged (c.reinserted s x) ↔ c.flags.isCancelled x.cancel = true := by
  have hin := StreamTable.insert_takeEntry h x
  obtain ⟨hmax, hcount⟩ := StreamTable.takeEntry_counts h
  obtain ⟨hmax', hcount'⟩ := StreamTable.insert_counts hin
  constructor
  · intro hu
    rw [← hu.cancelled, Conn.reinserted, Flags.isCancelled_cancel]
    simp
  · intro hf
    refine ⟨fun s' => ?_, ?_, hmax'.trans hmax, fun f => ?_, rfl⟩
    · rw [Conn.reinserted]
      dsimp only
      rw [StreamTable.get?_insert hin, StreamTable.get?_takeEntry]
      by_cases hs : s' = s
      · rw [if_pos hs, hs, h]
      · rw [if_neg hs, if_neg hs]
    · change ((c.table.takeEntry s).insert s x).2.activeCount = c.table.activeCount
      omega
    · rw [Conn.reinserted, Flags.isCancelled_cancel]
      by_cases hfx : f = x.cancel
      · rw [hfx, hf]
        simp
      · simp [hfx]

/-- A TcpConnected event for an id without a Connecting entry leaves the connection as it was exactly
if the id has no entry, or the cancel flag of its entry is set already. -/
theorem tcpConnected_unchanged (c : Conn) (e : Env) (s : StreamId) (reader : Inc)
    (writer : OwnedWriteHalf Octet) (cancel origin : CancelFlag)
    (h : ∀ cs, c.table.get? s ≠ some (.connecting cs)) :
    c.Unchanged (c.handleControlEvent S e ⟨.tcpConnected s reader writer cancel, origin⟩) ↔
      c.table.get? s = none ∨
        ∃ x, c.table.get? s = some x ∧ c.flags.isCancelled x.cancel = true := by
  rw [Conn.handleControlEvent]
  dsimp only
  cases hx : c.table.get? s with
  | none =>
    rw [handleTcpConnected_none hx]
    exact iff_of_true ⟨fun _ => rfl, rfl, rfl, fun _ => rfl, rfl⟩ (.inl rfl)
  | some x =>
    rw [handleTcpConnected_existing hx (fun cs hc => h cs (by rw [hx, hc])),
      reinserted_unchanged hx]
    simp

/-- The client closes stream 1 while its connect task dials and opens it again. Both connect tasks
succeed: the event of the first one attaches a socket to the new stream, whose reader starts, and
the event of the second one is in the channel. -/
def connectedTwice : List Act :=
  openOne ++ [closeOne, connectOne, .main { more := 1 }, .main {}, .main {}] ++ toSelect ++
    [.task 1 .go, .task 0 .connected, .task 0 .go, .main {}, .main {}] ++ toSelect ++
    [.task 2 .go, .task 1 .connected, .task 1 .go]

/-- The client closes and opens stream 1 twice while its connect tasks dial, and all three of them
succeed: the first event attaches a socket, the second one sets the flag of the stream, and the third
one is in the channel. -/
def connectedThrice : List Act :=
  openOne ++ [closeOne, connectOne, .main { more := 1 }, .main {}, .main {}] ++ toSelect ++
    [.task 1 .go, closeOne, connectOne, .main { more := 1 }, .main {}, .main {}] ++ toSelect ++
    [.task 2 .go, .task 0 .connected, .task 0 .go, .main {}, .main {}] ++ toSelect ++
    [.task 1 .connected, .task 1 .go, .main {}, .main {}] ++ toSelect ++
    [.task 2 .connected, .task 2 .go]

/-- What `tcpConnected_unchanged_thrice` computes. -/
def meetsCancelled (c : Conn) : Bool :=
  match c.control.items, c.table.get? 1 with
  | [⟨.tcpConnected 1 _ _ _, _⟩], some (.tcp tcp) => c.flags.isCancelled tcp.cancel
  | _, _ => false

/-- The event of the third connect changes nothing. -/
theorem tcpConnected_unchanged_thrice :
    ∃ c p tcp, (sys { config := {} }).Reach Sys.Any c ∧ c.control.items = [p] ∧
      (∃ reader writer f, p.event = .tcpConnected 1 reader writer f) ∧
      c.table.get? 1 = some (.tcp tcp) ∧ c.flags.isCancelled tcp.cancel = true ∧
      c.Unchanged (c.handleControlEvent { config := {} } {} p) := by
  obtain ⟨c, hr, hp⟩ := Reach.of_run { config := {} } Sys.Any connectedThrice meetsCancelled
    (by decide +kernel)
  unfold meetsCancelled at hp
  split at hp
  · next reader writer f origin tcp hctl hx =>
    refine ⟨c, _, tcp, hr, hctl, ⟨reader, writer, f, rfl⟩, hx, hp, ?_⟩
    have hnot : ∀ cs, c.table.get? 1 ≠ some (.connecting cs) := by
      intro cs hc
      rw [hx] at hc
      cases hc
    exact (tcpConnected_unchanged c {} 1 reader writer f origin hnot).mpr (.inr ⟨_, hx, hp⟩)
  · cases hp

/-- What `tcpConnected_cancels` computes. -/
def cancelsReader (c : Conn) : Bool :=
  match c.control.items, c.table.get? 1 with
  | [p], some (.tcp tcp) =>
    (match p.event with | .tcpConnected 1 _ _ _ => true | _ => false) &&
    (c.tasks.any fun t => decide (t.cancel = tcp.cancel ∧ t.state = .reading)) &&
    !c.flags.isCancelled tcp.cancel &&
    (c.handleControlEvent { config := {} } {} p).flags.isCancelled tcp.cancel
  | _, _ => false

/-- The event of the second connect sets the flag of the stream, and so stops its reader. -/
theorem tcpConnected_cancels :
    ∃ c p tcp, (sys { config := {} }).Reach Sys.Any c ∧ c.control.items = [p] ∧
      (∃ reader writer f, p.event = .tcpConnected 1 reader writer f) ∧
      c.table.get? 1 = some (.tcp tcp) ∧
      (∃ t ∈ c.tasks, t.cancel = tcp.cancel ∧ t.state = .reading) ∧
      c.flags.isCancelled tcp.cancel = false ∧
      (c.handleControlEvent { config := {} } {} p).flags.isCancelled tcp.cancel = true ∧
      ¬ c.Unchanged (c.handleControlEvent { config := {} } {} p) := by
  obtain ⟨c, hr, hp⟩ := Reach.of_run { config := {} } Sys.Any connectedTwice cancelsReader
    (by decide +kernel)
  unfold cancelsReader at hp
  split at hp
  · rename_i p tcp hctl hx
    simp only [Bool.and_eq_true, Bool.not_eq_true', List.any_eq_true, decide_eq_true_eq] at hp
    obtain ⟨⟨⟨hevent, hreader⟩, hunset⟩, hset⟩ := hp
    refine ⟨c, p, tcp, hr, hctl, ?_, hx, hreader, hunset, hset, fun hu => ?_⟩
    · split at hevent
      · rename_i reader writer f he
        exact ⟨reader, writer, f, he⟩
      · cases hevent
    · rw [hu.cancelled, hunset] at hset
      cases hset
  · cases hp

end ShrimpWisp
