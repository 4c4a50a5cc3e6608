import ShrimpWisp.Server.Refine

/-!
# The loop of a connection

What a step of a connection does, with the order of the loop and the frames that it writes: the
state that the main task works on (`Loop`), and one constructor of `LoopStep` for each thing that
the code does. `Server/Core.lean` says less about the loop and more about the history; a property
that depends on the program counter, on the batches of CONTINUEs or on who writes which frame is
proved from `LoopStep`.

* `Inbound`: a frame from the client is handled. `Suspends`: its handling awaits the resolver.
* `Finishes`, `Loop.breakLoop`: what follows at the three places that handle frames.
* `Delivers`: a control event is handled. `Drains`: Phase 0 visits one id.
* `TaskMoves`: a spawned task goes on.
* `step_loop`: a step of the connection is a `LoopStep`, unless it is one of the client
  (`step_client`).
-/

namespace ShrimpWisp

/-- The state of the main task, and what it shares with the others. -/
structure Loop where
  pc : Pc
  entry : StreamId → Option (ProxyStream Octet)
  flags : Flags
  control : List Posted
  tasks : List Task
  continues : List (StreamId × UInt32)
  tracked : List StreamId
  wsBuf : List WsInput
  wire : List WsInput
  up : Bool
  out : List ClientFrame
  seen : Nat
  credit : StreamId → Nat

def Conn.loop (c : Conn) : Loop where
  pc := c.pc
  entry := c.table.get?
  flags := c.flags
  control := c.control.items
  tasks := c.tasks
  continues := c.pendingContinues
  tracked := c.streamsWithPending
  wsBuf := c.wsBuf
  wire := c.wire
  up := c.clientUp
  out := c.out
  seen := c.seen
  credit := c.credit

namespace Loop

/-- Frames written to the client. -/
def emit (l : Loop) (fs : List ClientFrame) : Loop :=
  { l with out := if l.up then l.out ++ fs else l.out }

/-- The entry of one id. -/
def put (l : Loop) (s : StreamId) (x : Option (ProxyStream Octet)) : Loop :=
  { l with entry := fun s' => if s' = s then x else l.entry s' }

/-- `stream_table.remove`. -/
def removeEntry (l : Loop) (s : StreamId) : Loop :=
  { l.put s none with
    flags := match l.entry s with
      | some x => l.flags.cancel x.cancel
      | none => l.flags }

/-- The frames of a batch of CONTINUEs. -/
def continueFrames (l : Loop) : List ClientFrame := l.continues.map fun p => .continue p.1 p.2

/-- `flush_continues_direct`, then `next`. -/
def flushThen (l : Loop) (next : Pc) : Loop :=
  { l.emit l.continueFrames with
    continues := []
    pc := if l.continues.isEmpty || l.up then next else .ended }

/-- The handler asked to break the loop. -/
def breakLoop (l : Loop) : Site → Loop
  | .inner => l.flushThen .ended
  | _ => { l with pc := .ended }

/-- A flag for a new stream. -/
def newFlag (l : Loop) (owner : Inc) : Loop := { l with flags := (l.flags.new owner).2 }

end Loop

/-- What follows the handling of a frame. -/
inductive Finishes (l : Loop) : Site → Loop → Prop
  | flush {site} : site ≠ .inner → Finishes l site (l.flushThen .inner)
  /-- The limit on the frames of one turn. -/
  | yield : Finishes l .inner (l.flushThen (.phase0 l.tracked [] []))
  | next : Finishes l .inner { l with pc := .inner }

/-- A frame is taken from the buffer, or from the socket and then some more into the buffer. -/
inductive Takes (l : Loop) : Site → WsInput → Loop → Prop
  | inner {i rest} : l.pc = .inner → l.wsBuf = i :: rest →
      Takes l .inner i { l with wsBuf := rest }
  | buffered {i rest} : l.pc = .select → l.wsBuf = i :: rest →
      Takes l .select i { l with wsBuf := rest }
  | socket {i rest} (n : Nat) : l.pc = .select → l.wsBuf = [] → l.wire = i :: rest →
      Takes l .select i { l with wsBuf := rest.take n, wire := rest.drop n }

/-- The reader at a site. -/
def Site.read (S : Setup) : Site → WsInput → Option WispFrameResult
  | .select => readWispFrame S.frameLimit
  | _ => tryReadWispFrame S.frameLimit

theorem read_eq_some {S : Setup} {site : Site} {i : WsInput} {r : WispFrameResult}
    (h : site.read S i = some r) : ∃ f, i = .frame f ∧ r = .ofFrame f := by
  have htry : tryReadWispFrame S.frameLimit i = some r → ∃ f, i = .frame f ∧ r = .ofFrame f := by
    intro h
    obtain ⟨f, hf, rfl⟩ := Option.map_eq_some_iff.mp h
    exact ⟨f, checkFrame_eq_some hf, rfl⟩
  cases site with
  | select =>
    obtain ⟨f, hf, rfl⟩ := Option.map_eq_some_iff.mp h
    exact ⟨f, readFrameInner_eq_some hf, rfl⟩
  | deferred => exact htry h
  | inner => exact htry h

/-- The result of a closing frame: a WebSocket Close, or a Wisp CLOSE of stream 0. -/
def WispFrameResult.closes : WispFrameResult → Bool
  | .wisp t s _ => t == packetClose && s == streamIdControl
  | .control f => f.opcode == .close

/-- A frame is handled, up to what follows at its site. -/
inductive Inbound (S : Setup) (l : Loop) : WispFrameResult → Loop → Prop
  /-- Nothing to do: not a DATA packet of a connected stream. -/
  | ignored {r} : (∀ s payload tcp, r = .wisp packetData s payload → l.entry s ≠ some (.tcp tcp)) →
      Inbound S l r l
  | early {s payload cs data} : l.entry s = some (.connecting cs) →
      Inbound S l (.wisp packetData s payload)
        (l.put s (some (.connecting (cs.queueEarlyData data))))
  | upload {s payload tcp tcp' data r₁ r₂} : l.entry s = some (.tcp tcp) →
      tcpTryWrite tcp data r₁ r₂ = (false, tcp') →
      Inbound S l (.wisp packetData s payload)
        { l.put s (some (.tcp (counted S tcp').2)) with
          tracked := if Conn.needsTracking tcp' then l.tracked ++ [s] else l.tracked
          continues :=
            if (counted S tcp').1 then l.continues ++ [(s, S.config.bufferSize)]
            else l.continues }
  | uploadDead {s payload tcp tcp' data r₁ r₂} : l.entry s = some (.tcp tcp) →
      tcpTryWrite tcp data r₁ r₂ = (true, tcp') →
      Inbound S l (.wisp packetData s payload)
        ({ l.put s none with flags := l.flags.cancel tcp'.cancel }.emit
          [.close s .networkError none])
  | close {s payload} : Inbound S l (.wisp packetClose s payload) (l.removeEntry s)
  | refused {s payload reason} : reason = .invalidInfo ∨ l.entry s = none →
      Inbound S l (.wisp packetConnect s payload) (l.emit [.close s reason none])
  | throttled {s payload k} : l.entry s = none →
      Inbound S l (.wisp packetConnect s payload)
        ((l.newFlag k).emit [.close s .throttled none])
  | pong {f} : Inbound S l (.control f) (l.emit [.pong (f.payload.take 125)])

/-- A CONNECT is accepted as far as the resolver. -/
inductive Suspends (l : Loop) (site : Site) : WispFrameResult → Loop → Prop
  | tcp {s payload connect k known} : l.entry s = none →
      Suspends l site (.wisp packetConnect s payload)
        { (l.newFlag k).put s (some (.connecting (.new (l.flags.new k).1))) with
          pc := .resolvingTcp site s connect (l.flags.new k).1 known }
  | udp {s payload connect known} : l.entry s = none →
      Suspends l site (.wisp packetConnect s payload)
        { l with pc := .resolvingUdp site s connect known }

/-- An event that was taken from the control channel is handled. -/
inductive Delivers (S : Setup) (l : Loop) (p : Posted) : Loop → Prop
  | ended {s reason} : p.event = .streamClosed s reason ∨ p.event = .tcpConnectFailed s reason →
      Delivers S l p ((l.removeEntry s).emit [.close s reason (some p.origin)])
  | absent {s reader writer cancel} : p.event = .tcpConnected s reader writer cancel →
      l.entry s = none → Delivers S l p l
  /-- The entry is taken out and put back, with its flag set. -/
  | other {s reader writer cancel x} : p.event = .tcpConnected s reader writer cancel →
      l.entry s = some x → (∀ cs, x ≠ .connecting cs) →
      Delivers S l p { l with flags := l.flags.cancel x.cancel }
  | attach {s reader writer cancel cs pending w} :
      p.event = .tcpConnected s reader writer cancel → l.entry s = some (.connecting cs) →
      Delivers S l p
        ({ l.put s (some (.tcp (.withPending w pending
            ((l.flags.cancel cs.cancel).new cs.cancel.owner).1))) with
          flags := ((l.flags.cancel cs.cancel).new cs.cancel.owner).2
          tracked := if pending.isEmpty then l.tracked else l.tracked ++ [s]
          tasks := l.tasks ++
            [Task.mk s ((l.flags.cancel cs.cancel).new cs.cancel.owner).1 reader .tcp .top] }.emit
          [.continue s S.config.bufferSize])
  | attachDead {s reader writer cancel cs} :
      p.event = .tcpConnected s reader writer cancel → l.entry s = some (.connecting cs) →
      Delivers S l p
        ({ l.put s none with
          flags := ((l.flags.cancel cs.cancel).new cs.cancel.owner).2 }.emit
          [.close s .networkError none])

/-- Phase 0 visits an id: whether it is kept, and whether its socket is dead. -/
inductive Drains (l : Loop) (s : StreamId) : Bool → Bool → Loop → Prop
  | other : (∀ tcp, l.entry s ≠ some (.tcp tcp)) → Drains l s false false l
  | empty {tcp} : l.entry s = some (.tcp tcp) → tcp.pending = [] →
      Drains l s false false (l.put s (some (.tcp { tcp with queuedForDrain := false })))
  | dead {tcp r} : l.entry s = some (.tcp tcp) → (drainPending tcp r).1 = true →
      Drains l s false true
        (l.put s (some (.tcp { (drainPending tcp r).2 with queuedForDrain := false })))
  | sent {tcp r} : l.entry s = some (.tcp tcp) → (drainPending tcp r).1 = false →
      (drainPending tcp r).2.pending = [] →
      Drains l s false false
        (l.put s (some (.tcp { (drainPending tcp r).2 with queuedForDrain := false })))
  | kept {tcp r} : l.entry s = some (.tcp tcp) → tcp.pending ≠ [] →
      (drainPending tcp r).1 = false →
      Drains l s true false (l.put s (some (.tcp (drainPending tcp r).2)))

/-- A spawned task goes on: its next state, and the control channel. -/
inductive TaskMoves (l : Loop) (t : Task) : TaskState → List Posted → Prop
  /-- The main task has ended. -/
  | gone : l.pc = .ended → TaskMoves l t .done l.control
  | cancelled : (∀ r, t.state ≠ .dialing r) → (∀ p, t.state ≠ .sendingControl p) →
      l.flags.isCancelled t.cancel = true → TaskMoves l t .done l.control
  | dial {r} : t.state = .spawned r → TaskMoves l t (.dialing r) l.control
  | connected {r} : t.state = .dialing r → TaskMoves l t
      (.sendingControl ⟨.tcpConnected t.streamId t.sock ⟨t.sock, []⟩ t.cancel, t.cancel⟩) l.control
  | connectFailed {r reason} : t.state = .dialing r → TaskMoves l t
      (.sendingControl ⟨.tcpConnectFailed t.streamId reason, t.cancel⟩) l.control
  | startRead : t.state = .top → TaskMoves l t .reading l.control
  | read {m} : t.state = .reading → TaskMoves l t (.sendingData m) l.control
  | readEnd {reason} : t.state = .reading → l.flags.isCancelled t.cancel = false →
      TaskMoves l t (.sendingControl ⟨.streamClosed t.streamId reason, t.cancel⟩) l.control
  | sendData {m} : t.state = .sendingData m → TaskMoves l t .top l.control
  | post {p} : t.state = .sendingControl p → TaskMoves l t .done (l.control ++ [p])

/-- A step of the server, and the frame that it handles (module doc). -/
inductive LoopStep (S : Setup) (l : Loop) : Option WispFrameResult → Loop → Prop
  -- The other tasks and the rest of the worker
  | nop : LoopStep S l none l
  | down : LoopStep S l none { l with up := false }
  | task {i t st control} : l.tasks[i]? = some t → TaskMoves l t st control →
      LoopStep S l none { l with tasks := l.tasks.set i { t with state := st }, control }
  -- Inbound frames
  | start {frame l'} : l.pc = .start frame → Finishes l .deferred l' → LoopStep S l none l'
  | deferred {frame r l₁ l'} : l.pc = .start (some frame) → Inbound S l r l₁ →
      Finishes l₁ .deferred l' → LoopStep S l (some r) l'
  | deferredConnect {frame r l'} : l.pc = .start (some frame) → Suspends l .deferred r l' →
      LoopStep S l (some r) l'
  | inbound {site i r l₁ l₂ l'} : Takes l site i l₁ → site.read S i = some r →
      r.closes = false → Inbound S l₁ r l₂ → Finishes l₂ site l' → LoopStep S l (some r) l'
  | connect {site i r l₁ l'} : Takes l site i l₁ → site.read S i = some r →
      Suspends l₁ site r l' → LoopStep S l (some r) l'
  | closing {site i r l₁} : Takes l site i l₁ → site.read S i = some r → r.closes = true →
      LoopStep S l (some r) ((l₁.emit [.wsClose]).breakLoop site)
  | readError {site i l₁} : Takes l site i l₁ → site.read S i = none →
      LoopStep S l none (l₁.breakLoop site)
  | drained : l.pc = .inner → l.wsBuf = [] →
      LoopStep S l none (l.flushThen (.phase0 l.tracked [] []))
  -- The resolver's answer
  | tcpFailed {site s connect cancel known reason} :
      l.pc = .resolvingTcp site s connect cancel known →
      LoopStep S l none { l with pc := .sending site ⟨.tcpConnectFailed s reason, cancel⟩ }
  | spawned {site s connect cancel known r l'} : l.pc = .resolvingTcp site s connect cancel known →
      Finishes { l with tasks := l.tasks ++ [⟨s, cancel, cancel.owner, .tcp, .spawned r⟩] } site l' →
      LoopStep S l none l'
  | sendFailed {site p l'} : l.pc = .sending site p →
      Finishes { l with control := l.control ++ [p] } site l' → LoopStep S l none l'
  | udpRefused {site s connect known reason l'} : l.pc = .resolvingUdp site s connect known →
      Finishes (l.emit [.close s reason none]) site l' → LoopStep S l none l'
  | udpThrottled {site s connect known k l'} : l.pc = .resolvingUdp site s connect known →
      Finishes ((l.newFlag k).emit [.close s .throttled none]) site l' → LoopStep S l none l'
  | udpAccepted {site s connect known k addr l'} : l.pc = .resolvingUdp site s connect known →
      l.entry s = none →
      Finishes { (l.newFlag k).put s (some (.udp ⟨k, addr, (l.flags.new k).1⟩)) with
        tasks := l.tasks ++ [⟨s, (l.flags.new k).1, k, .udp, .top⟩] } site l' →
      LoopStep S l none l'
  -- The phases
  | phase0 {s todo kept dead keep died l₁} : l.pc = .phase0 (s :: todo) kept dead →
      Drains l s keep died l₁ →
      LoopStep S l none { l₁ with
        tracked := (if keep then kept ++ [s] else kept) ++ todo
        pc := .phase0 todo (if keep then kept ++ [s] else kept) (if died then dead ++ [s] else dead) }
  | phase0End {kept dead} : l.pc = .phase0 [] kept dead →
      LoopStep S l none { l with pc := .phase0Dead dead }
  | deadEnd : l.pc = .phase0Dead [] → LoopStep S l none { l with pc := .phase1 }
  | deadOne {s dead} : l.pc = .phase0Dead (s :: dead) →
      LoopStep S l none
        { (l.removeEntry s).emit [.close s .networkError none] with pc := .phase0Dead dead }
  | event {p rest q l₁} : l.control = p :: rest →
      l.pc = .phase1 ∧ q = .phase1 ∨ (l.pc = .select ∨ l.pc = .controlRest) ∧ q = .controlRest →
      Delivers S { l with control := rest } p l₁ → LoopStep S l none { l₁ with pc := q }
  | batch {ms : List DataMsg} {q} : l.pc = .phase1 ∧ q = .select ∨ l.pc = .select ∧ q = .inner →
      LoopStep S l none
        { l.emit (ms.map .data) with pc := if ms.isEmpty || l.up then q else .ended }
  | restEnd : l.pc = .controlRest → LoopStep S l none { l with pc := .inner }
  -- The timers
  | timedOut : l.pc = .select → LoopStep S l none { l with pc := .ended }
  | noPing : l.pc = .select → LoopStep S l none { l with pc := .inner }
  | ping : l.pc = .select → LoopStep S l none { l.emit [.ping] with pc := .inner }

variable {S : Setup}

namespace Conn

/-- The deferred frame, as far as `process_inbound_frame` looks at it. -/
def deferredResult (S : Setup) (payload : List UInt8) : Option WispFrameResult :=
  if 0 < S.config.maxFrameSize ∧ S.config.maxFrameSize < payload.length then none
  else
    match payload with
    | t :: b0 :: b1 :: b2 :: b3 :: rest => some (.wisp t (le32 b0 b1 b2 b3) rest)
    | _ => none

/-- The frame that an action handles. -/
def handled (S : Setup) (c : Conn) : Act → Option WispFrameResult
  | .main _ =>
    match c.pc with
    | .start (some payload) => deferredResult S payload
    | .inner => c.wsBuf.head?.bind (Site.inner.read S)
    | .select => (c.wsBuf ++ c.wire).head?.bind (Site.select.read S)
    | _ => none
  | _ => none

/-! ## The parts of a step -/

theorem loop_flushThen {c : Conn} {l : Loop} (h : c.loop = l) (q : Pc) :
    (c.flushThen q).loop = l.flushThen q := by
  rw [← h]
  rfl

theorem finishes (c : Conn) (site : Site) : Finishes c.loop site (c.finish S site).loop := by
  cases site with
  | deferred =>
    rw [finish, loop_flushThen (l := c.loop) (by simp only [loop])]
    exact .flush (by rintro ⟨⟩)
  | select =>
    rw [finish, loop_flushThen (l := c.loop) (by simp only [loop])]
    exact .flush (by rintro ⟨⟩)
  | inner =>
    rw [finish]
    split
    · rw [loop_flushThen (l := c.loop) (by simp only [loop])]
      exact .yield
    · exact .next

theorem finishes_of {c : Conn} {l : Loop} (h : c.loop = l) (site : Site) :
    Finishes l site (c.finish S site).loop := h ▸ c.finishes site

theorem loop_breakLoop (c : Conn) (site : Site) : (c.breakLoop site).loop = c.loop.breakLoop site := by
  cases site <;> rfl

theorem loop_removeStream (c : Conn) (s : StreamId) :
    (c.removeStream s).loop = c.loop.removeEntry s := by
  have hget := c.table.get?_remove c.flags s
  unfold removeStream Loop.removeEntry
  cases hx : c.table.get? s with
  | none =>
    simp only [StreamTable.remove, hx] at hget ⊢
    have hentry : c.table.get? = fun s' => if s' = s then none else c.table.get? s' := funext hget
    simp only [retire, loop, Loop.put, hx]
    rw [← hentry]
  | some x =>
    simp only [StreamTable.remove, hx] at hget ⊢
    have hentry : (c.table.takeEntry s).get? = fun s' => if s' = s then none else c.table.get? s' :=
      funext hget
    cases x <;> simp [retire, loop, Loop.put, hentry, hx]

theorem loop_write (c : Conn) (f : ClientFrame) : (c.write f).loop = c.loop.emit [f] := rfl

/-- A frame is handled, with what follows at its site. -/
inductive Handled (S : Setup) (l : Loop) (site : Site) (r : WispFrameResult) (l' : Loop) : Prop
  | finish {l₁} : r.closes = false → Inbound S l r l₁ → Finishes l₁ site l' → Handled S l site r l'
  | suspend : Suspends l site r l' → Handled S l site r l'
  | close : r.closes = true → l' = (l.emit [.wsClose]).breakLoop site → Handled S l site r l'

theorem handled_data (c : Conn) (site : Site) (s : StreamId) (payload : List UInt8) (e : Env) :
    Handled S c.loop site (.wisp packetData s payload) (c.handleData S site s payload e).loop := by
  unfold handleData handleDataZerocopy
  cases hx : c.table.get? s with
  | none =>
    refine .finish rfl (.ignored ?_) (c.finishes site)
    rintro s' _ tcp ⟨⟩ hs
    simp [loop, hx] at hs
  | some x =>
    cases x with
    | udp u =>
      refine .finish rfl (.ignored ?_) (c.finishes site)
      rintro s' _ tcp ⟨⟩ hs
      simp [loop, hx] at hs
    | connecting cs =>
      simp only
      split
      · rename_i hl
        split at hl <;> cases hl
      · rename_i c' hl
        split at hl
        · cases hl
          refine .finish rfl (@Inbound.early S c.loop s payload cs (c.tagged s payload) hx)
            (finishes_of ?_ site)
          simp only [loop, Loop.put, entry_set hx]
        · cases hl
          refine .finish rfl (.ignored ?_) (finishes_of (by rfl) site)
          rintro s' _ tcp ⟨⟩ hs
          simp [loop, hx] at hs
    | tcp tcp =>
      simp only
      rcases hw : tcpTryWrite tcp (c.tagged s payload) (e.write 0) (e.write 1) with ⟨dead, tcp'⟩
      cases dead with
      | true =>
        simp only [if_true]
        refine .finish rfl (.uploadDead hx hw) (finishes_of ?_ site)
        rw [loop_write, loop_removeStream]
        simp only [Loop.removeEntry, loop, if_true, Loop.put, entry_set hx]
        congr 2
        funext s'
        split <;> rfl
      | false =>
        simp only [Bool.false_eq_true, if_false]
        refine .finish rfl (.upload hx hw) (finishes_of ?_ site)
        simp only [loop, Loop.put, entry_set hx]
        rfl

theorem handled_refuse (c : Conn) (site : Site) {s : StreamId} {reason : CloseReason}
    (h : reason = .invalidInfo ∨ c.table.get? s = none) (payload : List UInt8) :
    Handled S c.loop site (.wisp packetConnect s payload) (c.refuse S site s reason).loop :=
  .finish rfl (.refused h) (finishes_of (c := c.write (.close s reason none)) rfl site)

theorem handled_connect (c : Conn) (site : Site) (s : StreamId) (connect : ConnectPayload) (e : Env)
    (payload : List UInt8) :
    Handled S c.loop site (.wisp packetConnect s payload)
      (c.handleConnect S site s connect e).loop := by
  unfold handleConnect
  split
  · exact handled_refuse c site (.inl rfl) payload
  rename_i hs
  have hn : c.table.get? s = none := by
    simp only [not_or, StreamTable.contains, Option.isSome_iff_ne_none, ne_eq, not_not] at hs
    exact hs.2
  have hrefuse : ∀ reason, Handled S c.loop site (.wisp packetConnect s payload)
      (c.refuse S site s reason).loop := fun _ => handled_refuse c site (.inr hn) payload
  split
  · exact hrefuse _
  split
  · exact hrefuse _
  split
  · exact hrefuse _
  split
  · exact hrefuse _
  split
  · unfold handleTcpConnect
    simp only
    rcases hi : c.table.insert s (.connecting (.new (c.flags.new c.accepted.length).1)) with ⟨ok, t⟩
    cases ok with
    | false =>
      refine .finish rfl (.throttled (k := c.accepted.length) hn) (finishes_of ?_ site)
      simp only [loop, write, writeAll, Loop.emit, Loop.newFlag, entry_insert_false hi]
      rfl
    | true =>
      have := @Suspends.tcp c.loop site s payload connect c.accepted.length
        (resolveNow c.dns c.now connect.hostname connect.port) hn
      refine .suspend ?_
      simp only [loop, accept, Loop.newFlag, Loop.put, (entry_insert hi).2] at this ⊢
      exact this
  · unfold handleUdpConnect
    split
    · exact .suspend (.udp hn)
    · exact hrefuse _

/-- A packet or control frame, or an error of the reader. -/
theorem handled_inbound (c : Conn) (site : Site) (e : Env) (r : WispFrameResult) :
    Handled S c.loop site r (c.handleInbound S site e (some r)).loop := by
  have hfinish : ∀ {c' : Conn} {l}, r.closes = false → c'.loop = l → Inbound S c.loop r l →
      Handled S c.loop site r (c'.finish S site).loop :=
    fun hr h hi => .finish hr hi (finishes_of h site)
  have hclose : r.closes = true → Handled S c.loop site r ((c.write .wsClose).breakLoop site).loop :=
    fun h => .close h (by rw [loop_breakLoop, loop_write])
  cases r with
  | wisp t s payload =>
    simp only [handleInbound]
    split
    · rename_i ht
      rw [ht]
      exact c.handled_data site s payload e
    · rename_i hd
      have hignored : Inbound S c.loop (.wisp t s payload) c.loop := by
        refine .ignored ?_
        rintro _ _ _ ⟨⟩
        exact absurd rfl hd
      split
      · rename_i ht
        rw [ht]
        split
        · exact c.handled_connect site s _ e payload
        · exact c.handled_refuse site (.inl rfl) payload
      · split
        · rename_i ht
          split
          · rename_i hs
            exact hclose (by simp [WispFrameResult.closes, ht, hs])
          · rename_i hs
            refine hfinish (by simp [WispFrameResult.closes, hs]) (c.loop_removeStream s) ?_
            rw [ht]
            exact .close
        · rename_i ht
          exact hfinish (by simp [WispFrameResult.closes, ht]) rfl hignored
  | control f =>
    have hignored : Inbound S c.loop (.control f) c.loop := .ignored nofun
    simp only [handleInbound]
    split
    · rename_i ho
      exact hclose (by simp [WispFrameResult.closes, ho])
    · rename_i ho
      exact hfinish (by simp [WispFrameResult.closes, ho]) (c.loop_write _) .pong
    · rename_i ho
      refine hfinish (by simp [WispFrameResult.closes, ho]) ?_ hignored
      rfl
    · rename_i ho _ _
      exact hfinish (by simpa [WispFrameResult.closes] using ho) rfl hignored

theorem deferred_inbound {c : Conn} {payload : List UInt8} (hpc : c.pc = .start (some payload))
    (e : Env) :
    LoopStep S c.loop (deferredResult S payload) (c.processInboundFrame S e payload).loop := by
  have hlift : ∀ {r l'}, Handled S c.loop .deferred r l' → r.closes = false →
      LoopStep S c.loop (some r) l' := by
    intro r l' h hr
    cases h with
    | finish _ hi hf => exact .deferred hpc hi hf
    | suspend hs => exact .deferredConnect hpc hs
    | close hc => rw [hr] at hc; cases hc
  have hskip : LoopStep S c.loop none (c.finish S .deferred).loop :=
    .start hpc (c.finishes _)
  -- Too short for a header: four bytes at most.
  have hshort : deferredResult S payload = none →
      c.processInboundFrame S e payload = c.finish S .deferred →
      LoopStep S c.loop (deferredResult S payload) (c.processInboundFrame S e payload).loop := by
    intro hr hp
    rw [hr, hp]
    exact hskip
  unfold processInboundFrame deferredResult at *
  rcases payload with _ | ⟨t, _ | ⟨b0, _ | ⟨b1, _ | ⟨b2, _ | ⟨b3, rest⟩⟩⟩⟩⟩
  iterate 5 exact hshort (ite_self none) (ite_self _)
  split
  · exact hskip
  · simp only
    have hignored : t ≠ packetData → LoopStep S c.loop (some (.wisp t (le32 b0 b1 b2 b3) rest))
        (c.finish S .deferred).loop := by
      intro hd
      refine .deferred hpc (.ignored ?_) (c.finishes _)
      rintro _ _ _ ⟨⟩
      exact absurd rfl hd
    split
    · rename_i ht
      rw [ht]
      exact hlift (c.handled_data _ _ rest e) rfl
    · rename_i hd
      split
      · rename_i ht
        rw [ht]
        split
        · rename_i hp
          -- The parser repeats the id of the header.
          rw [parseWispFrame, if_neg (by decide), if_pos rfl, parseConnect_eq] at hp
          obtain ⟨_, -, hp⟩ := Option.map_eq_some_iff.mp hp
          cases hp
          exact hlift (c.handled_connect _ _ _ e rest) rfl
        · exact hlift (c.handled_refuse _ (.inl rfl) rest) rfl
      · split
        · rename_i ht
          split
          · exact hignored hd
          · rw [ht]
            exact .deferred hpc .close (finishes_of (c.loop_removeStream _) _)
        · exact hignored hd

/-! ## Control events and the phases -/

theorem delivers (c : Conn) (e : Env) (p : Posted) :
    Delivers S c.loop p (c.handleControlEvent S e p).loop := by
  unfold handleControlEvent
  split
  · rename_i s reason hp
    have := Delivers.ended (S := S) (l := c.loop) (.inl hp)
    rwa [← loop_removeStream] at this
  · rename_i s reader writer cancel hp
    unfold handleTcpConnected StreamTable.remove
    simp only
    cases hx : c.table.get? s with
    | none => exact .absent hp hx
    | some x =>
      have hput : (fun s' => if s' = s then some x else c.table.get? s') = c.table.get? := by
        funext s'
        split
        · rename_i hs; rw [hs, hx]
        · rfl
      cases x with
      | tcp tcp =>
        have := Delivers.other (S := S) (l := c.loop) hp hx (by rintro _ ⟨⟩)
        simp only [loop, entry_replace hx, hput, ProxyStream.cancel] at this ⊢
        exact this
      | udp udp =>
        have := Delivers.other (S := S) (l := c.loop) hp hx (by rintro _ ⟨⟩)
        simp only [loop, entry_replace hx, hput, ProxyStream.cancel] at this ⊢
        exact this
      | connecting cs =>
        simp only
        have htake : (c.table.takeEntry s).get? =
            fun s' => if s' = s then none else c.table.get? s' :=
          funext (c.table.get?_takeEntry s)
        split
        · have := Delivers.attachDead (S := S) (l := c.loop) hp hx
          simp only [loop, write, writeAll, Loop.emit, Loop.put, htake, ProxyStream.cancel] at this ⊢
          exact this
        · have := @Delivers.attach S c.loop _ _ _ _ _ cs
            (flushEarly writer cs.earlyData e.writes).pending
            (flushEarly writer cs.earlyData e.writes).writer hp hx
          simp only [loop, write, writeAll, spawn, Loop.emit, Loop.put, entry_replace hx,
            ProxyStream.cancel] at this ⊢
          exact this
  · rename_i s reason hp
    have := Delivers.ended (S := S) (l := c.loop) (.inr hp)
    rwa [← loop_removeStream] at this

/-- An event of Phase 1, of `select!` or of the rest after it. -/
theorem event_step {c : Conn} (e : Env) {p : Posted} {ctl : Chan 256 Posted} {q : Pc}
    (hr : c.control.tryRecv = some (p, ctl))
    (hpc : c.pc = .phase1 ∧ q = .phase1 ∨ (c.pc = .select ∨ c.pc = .controlRest) ∧ q = .controlRest) :
    LoopStep S c.loop none
      { { c with control := ctl }.handleControlEvent S e p with pc := q }.loop := by
  have hd := Conn.delivers (S := S) { c with control := ctl } e p
  exact LoopStep.event (l := c.loop) (Chan.tryRecv_some hr) hpc hd

theorem drains (c : Conn) (s : StreamId) (r : WriteResult) :
    Drains c.loop s (c.drainOne s r).1 (c.drainOne s r).2.1 (c.drainOne s r).2.2.loop := by
  unfold drainOne
  cases hx : c.table.get? s with
  | none => exact .other fun tcp => by simp [loop, hx]
  | some x =>
    cases x with
    | udp _ => exact .other fun tcp => by simp [loop, hx]
    | connecting _ => exact .other fun tcp => by simp [loop, hx]
    | tcp tcp =>
      simp only
      split
      · rename_i hp
        have := Drains.empty (l := c.loop) hx (by simpa using hp)
        simp only [loop, Loop.put, entry_set hx] at this ⊢
        exact this
      · rename_i hp
        have hp : tcp.pending ≠ [] := by simpa using hp
        simp only
        cases hd : (drainPending tcp r).1 with
        | true =>
          have := Drains.dead (l := c.loop) (r := r) hx hd
          simp only [loop, Loop.put, entry_set hx, Bool.not_true, Bool.false_and,
            Bool.false_eq_true, if_false] at this ⊢
          exact this
        | false =>
          cases he : (drainPending tcp r).2.pending.isEmpty with
          | true =>
            have := Drains.sent (l := c.loop) (r := r) hx hd (by simpa using he)
            simp only [loop, Loop.put, entry_set hx, Bool.not_true, Bool.and_false,
              Bool.false_eq_true, if_false] at this ⊢
            exact this
          | false =>
            have := Drains.kept (l := c.loop) (r := r) hx hp hd
            simp only [loop, Loop.put, entry_set hx, Bool.not_false, Bool.and_true, if_true] at this ⊢
            exact this

/-- The answer of the resolver for a TCP stream. -/
theorem tcpResolved_step {c c₁ : Conn} {site : Site} {s : StreamId} {connect : ConnectPayload}
    {cancel : CancelFlag} {known : Option Resolved} (res : Option Resolved)
    (hpc : c.pc = .resolvingTcp site s connect cancel known) (hc : c₁.loop = c.loop) :
    LoopStep S c.loop none (c₁.tcpResolved S site s connect cancel res).loop := by
  have hfail : ∀ reason, LoopStep S c.loop none
      { c₁ with pc := .sending site ⟨.tcpConnectFailed s reason, cancel⟩ }.loop := by
    intro reason
    have := @LoopStep.tcpFailed S c.loop _ _ _ _ _ reason hpc
    rw [← hc] at this ⊢
    exact this
  unfold tcpResolved
  simp only
  split
  · exact hfail _
  · rename_i r
    split
    · exact hfail _
    · split
      · exact hfail _
      · refine .spawned hpc (r := r) (finishes_of ?_ site)
        rw [← hc]
        rfl

/-- The answer of the resolver for a UDP stream. -/
theorem udpResolved_step {c c₁ : Conn} {site : Site} {s : StreamId} {connect : ConnectPayload}
    {known : Option Resolved} (res : Option Resolved)
    (hpc : c.pc = .resolvingUdp site s connect known) (hc : c₁.loop = c.loop) :
    LoopStep S c.loop none (c₁.udpResolved S site s connect res).loop := by
  have hrefuse : ∀ reason, LoopStep S c.loop none (c₁.refuse S site s reason).loop :=
    fun reason => .udpRefused hpc (finishes_of (by rw [loop_write, hc]) site)
  unfold udpResolved
  split
  · exact hrefuse _
  · rename_i r
    split
    · exact hrefuse _
    · simp only
      rcases hi : c₁.table.insert s (.udp ⟨c₁.accepted.length, r.addr,
        (c₁.flags.new c₁.accepted.length).1⟩) with ⟨ok, t⟩
      cases ok with
      | false =>
        refine .udpThrottled hpc (k := c₁.accepted.length) (finishes_of ?_ site)
        rw [← hc, loop_write]
        simp only [loop, Loop.newFlag, entry_insert_false hi]
      | true =>
        obtain ⟨hn, ht⟩ := entry_insert hi
        have hn : c.loop.entry s = none := by rw [← hc]; exact hn
        refine @LoopStep.udpAccepted S c.loop site s connect known c₁.accepted.length r.addr _ hpc hn
          (finishes_of ?_ site)
        rw [← hc]
        simp only [loop, accept, spawn, Loop.newFlag, Loop.put, ht]

theorem stepTimers_step {c c' : Conn} {l : Loop} (hc : c.loop = l) (hpc : l.pc = .select)
    (hs : c.stepTimers S = some c') : LoopStep S l none c'.loop := by
  subst hc
  unfold stepTimers at hs
  split at hs
  · cases hs
  split at hs
  · cases hs; exact .timedOut hpc
  split at hs
  · split at hs
    · split at hs
      · cases hs; exact .timedOut hpc
      · cases hs; exact .ping hpc
    · cases hs; exact .noPing hpc
  · cases hs

theorem loop_resetIdle (c : Conn) : (c.resetIdle S).loop = c.loop := by
  unfold resetIdle
  split
  · simp only [loop]
  · rfl

/-- A frame that was taken from the buffer or the socket. -/
theorem taken_step {c c₁ : Conn} {site : Site} {i : WsInput} (ht : Takes c.loop site i c₁.loop)
    (e : Env) :
    LoopStep S c.loop (site.read S i)
      ((c₁.resetIdle S).handleInbound S site e (site.read S i)).loop := by
  rw [← loop_resetIdle (S := S) c₁] at ht
  cases hr : site.read S i with
  | none =>
    have := LoopStep.readError (S := S) ht hr
    rwa [← loop_breakLoop] at this
  | some r =>
    cases (c₁.resetIdle S).handled_inbound site e r with
    | finish hc hi hf => exact .inbound ht hr hc hi hf
    | suspend hs => exact .connect ht hr hs
    | close hc hl =>
      rw [hl]
      exact .closing ht hr hc

theorem writeBatch_step {c : Conn} {q : Pc}
    (hpc : c.pc = .phase1 ∧ q = .select ∨ c.pc = .select ∧ q = .inner) :
    LoopStep S c.loop none (c.writeBatch q).loop := by
  have := @LoopStep.batch S c.loop c.data.items q hpc
  exact this

theorem stepSelect_step {c c' : Conn} (hpc : c.pc = .select) {e : Env}
    (hs : c.stepSelect S e = some c') : LoopStep S c.loop (c.handled S (.main e)) c'.loop := by
  unfold stepSelect at hs
  simp only [handled, hpc]
  split at hs
  · rename_i i rest hb
    cases hs
    rw [hb]
    exact @taken_step S c { c with wsBuf := rest, tried := [] } _ i (.buffered hpc hb) e
  · rename_i i rest hb hw
    cases hs
    rw [hb, hw]
    exact @taken_step S c
      { c with wsBuf := rest.take e.more, wire := rest.drop e.more, tried := [] } _ i
      (.socket e.more hpc hb hw) e
  · rename_i hb hw
    rw [hb, hw]
    split at hs
    · cases hs
      exact writeBatch_step (c := { c with tried := [] }) (.inr ⟨hpc, rfl⟩)
    · split at hs
      · rename_i p ctl hr
        cases hs
        exact event_step (c := { c with tried := [] }) e hr (.inr ⟨.inl hpc, rfl⟩)
      · exact stepTimers_step (c := { c with tried := [] }) rfl hpc hs

theorem stepMain_step {c c' : Conn} {e : Env} (hs : c.stepMain S e = some c') :
    LoopStep S c.loop (c.handled S (.main e)) c'.loop := by
  unfold stepMain at hs
  split at hs
  case h_1 hpc =>
    cases hs
    simp only [handled, hpc]
    exact .start hpc (c.finishes _)
  case h_2 hpc =>
    cases hs
    simp only [handled, hpc]
    exact deferred_inbound hpc e
  case h_3 hpc =>
    simp only [handled, hpc]
    split at hs
    · rename_i i rest hb
      cases hs
      rw [hb]
      exact @taken_step S c { c with wsBuf := rest } _ i (.inner hpc hb) e
    · rename_i hb
      cases hs
      rw [hb]
      exact .drained hpc hb
  case h_4 hpc =>
    simp only [handled, hpc]
    split at hs
    · cases hs; exact tcpResolved_step _ hpc rfl
    · split at hs
      · cases hs; exact tcpResolved_step _ hpc rfl
      · cases hs; exact tcpResolved_step _ hpc rfl
  case h_5 hpc =>
    simp only [handled, hpc]
    split at hs
    · cases hs; exact udpResolved_step _ hpc rfl
    · split at hs
      · cases hs; exact udpResolved_step _ hpc rfl
      · cases hs; exact udpResolved_step _ hpc rfl
  case h_6 site p hpc =>
    simp only [handled, hpc]
    split at hs
    · rename_i ctl hsend
      cases hs
      refine .sendFailed hpc (finishes_of ?_ site)
      simp only [loop, (Chan.trySend_some hsend).1]
    · cases hs
  case h_7 hpc =>
    cases hs
    simp only [handled, hpc]
    exact .phase0End hpc
  case h_8 s todo kept dead hpc =>
    cases hs
    have hh : c.handled S (.main e) = none := by simp only [handled, hpc]
    rw [hh]
    exact LoopStep.phase0 (l := c.loop) hpc (c.drains s (e.write 0))
  case h_9 hpc =>
    cases hs
    simp only [handled, hpc]
    exact .deadEnd hpc
  case h_10 s dead hpc =>
    cases hs
    simp only [handled, hpc]
    have := LoopStep.deadOne (S := S) (l := c.loop) hpc
    rw [← loop_removeStream] at this
    exact this
  case h_11 hpc =>
    simp only [handled, hpc]
    split at hs
    · rename_i hr
      cases hs
      exact event_step e hr (.inl ⟨hpc, rfl⟩)
    · cases hs
      exact writeBatch_step (.inl ⟨hpc, rfl⟩)
  case h_12 hpc => exact stepSelect_step hpc hs
  case h_13 hpc =>
    simp only [handled, hpc]
    split at hs
    · rename_i hr
      cases hs
      exact event_step e hr (.inr ⟨.inr hpc, rfl⟩)
    · cases hs
      exact .restEnd hpc
  case h_14 => cases hs

/-! ## Spawned tasks -/

theorem stepTask_step {c c' : Conn} {i : Nat} {x : TaskInput} (hs : c.stepTask i x = some c') :
    LoopStep S c.loop none c'.loop := by
  have hgone : c.gone = true → c.loop.pc = .ended := fun h => by simpa [gone, loop] using h
  have hend : ∀ {t reason}, c.tasks[i]? = some t → t.state = .reading →
      LoopStep S c.loop none (c.endReader i t reason).loop := by
    intro t reason ht hst
    unfold endReader
    split
    · rename_i hf
      exact .task ht (.cancelled (by rw [hst]; nofun) (by rw [hst]; nofun) hf)
    · rename_i hf
      exact .task ht (.readEnd hst (Bool.eq_false_iff.mpr hf))
  unfold stepTask at hs
  split at hs
  · cases hs
  rename_i t ht
  split at hs
  · rename_i r hst
    split at hs
    · rename_i hf
      cases hs
      exact .task ht (.cancelled (by rw [hst]; nofun) (by rw [hst]; nofun) hf)
    · cases hs
      exact .task ht (.dial hst)
  · rename_i hst; cases hs; exact .task ht (.connected hst)
  · rename_i hst; cases hs; exact .task ht (.connectFailed hst)
  · rename_i hst
    cases hs
    split
    · rename_i hf
      exact .task ht (.cancelled (by rw [hst]; nofun) (by rw [hst]; nofun) hf)
    · exact .task ht (.startRead hst)
  · rename_i hst
    split at hs
    · cases hs
      split
      · rename_i hf
        exact .task ht (.cancelled (by rw [hst]; nofun) (by rw [hst]; nofun) hf)
      · exact .task ht (.read hst)
    · cases hs
  · rename_i hst
    split at hs
    · cases hs; exact hend ht hst
    · cases hs
  · rename_i hst; cases hs; exact hend ht hst
  · rename_i m hst
    split at hs
    · rename_i hg
      cases hs
      exact .task ht (.gone (hgone hg))
    · split at hs
      · cases hs
        exact .task ht (.sendData hst)
      · cases hs
  · rename_i p hst
    split at hs
    · rename_i hg
      cases hs
      exact .task ht (.gone (hgone hg))
    · split at hs
      · rename_i ctl hsend
        cases hs
        have := LoopStep.task (S := S) (l := c.loop) ht (.post hst)
        simp only [loop, setTask, (Chan.trySend_some hsend).1] at this ⊢
        exact this
      · cases hs
  · cases hs

end Conn

/-- The client sends or receives a frame. -/
def Act.isClient : Act → Bool
  | .client _ | .clientReads => true
  | _ => false

/-- Every other step of the connection is a step of the loop. -/
theorem step_loop {c c' : Conn} {a : Act} (ha : a.isClient = false) (hs : step S c a = some c') :
    LoopStep S c.loop (c.handled S a) c'.loop := by
  cases a with
  | main e => exact Conn.stepMain_step hs
  | task i x => exact Conn.stepTask_step hs
  | client i => cases ha
  | clientReads => cases ha
  | clientDown => cases hs; exact .down
  | otherResolve h p answer =>
    simp only [step] at hs
    split at hs
    · cases hs
    · split at hs
      · cases hs
      · cases hs; exact .nop
  | tick d => cases hs; exact .nop
  | writable sock => cases hs; exact .nop

/-- A step of the client leaves the server alone. -/
theorem step_client {c c' : Conn} {a : Act} (ha : a.isClient = true) (hs : step S c a = some c') :
    ∃ wire credit seen, c'.loop = { c.loop with wire, credit, seen } := by
  cases a with
  | client i => cases hs; exact ⟨_, _, _, rfl⟩
  | clientReads =>
    simp only [step] at hs
    split at hs
    · cases hs; exact ⟨_, _, _, rfl⟩
    · cases hs
  | _ => cases ha

theorem Loop.start_entry (frame : Option (List UInt8)) (s : StreamId) :
    (Conn.start S frame).loop.entry s = none := StreamTable.get?_new _ s

/-- The invariant rule for the loop: the step case gets the `LoopStep`. The invariant says nothing
about the client. -/
theorem Reach.loop {ok : Conn → Act → Conn → Prop} {I : Loop → Prop}
    (hinit : ∀ frame, I (Conn.start S frame).loop)
    (hclient : ∀ l wire credit seen, I l → I { l with wire, credit, seen })
    (hstep : ∀ c a c', (sys S).Reach ok c → I c.loop → ok c a c' →
      LoopStep S c.loop (c.handled S a) c'.loop → I c'.loop)
    {c : Conn} (h : (sys S).Reach ok c) : I c.loop := by
  refine h.invariant (I := fun c => I c.loop) ?_ ?_
  · rintro _ ⟨frame, rfl⟩
    exact hinit frame
  · intro c a c' hr hi hs hok
    cases ha : a.isClient with
    | false => exact hstep c a c' hr hi hok (step_loop ha hs)
    | true =>
      obtain ⟨wire, credit, seen, hc⟩ := step_client ha hs
      rw [hc]
      exact hclient _ wire credit seen hi

theorem Loop.breakLoop_pc (l : Loop) (site : Site) : (l.breakLoop site).pc = .ended := by
  cases site with
  | inner => exact ite_self _
  | deferred => rfl
  | select => rfl

theorem Takes.pc {l l' : Loop} {site : Site} {i : WsInput} (h : Takes l site i l') :
    (l.pc = .inner ∧ site = .inner ∨ l.pc = .select ∧ site = .select) ∧ l'.out = l.out ∧
      l'.up = l.up ∧ l'.continues = l.continues := by
  cases h with
  | inner hpc _ => exact ⟨.inl ⟨hpc, rfl⟩, rfl, rfl, rfl⟩
  | buffered hpc _ => exact ⟨.inr ⟨hpc, rfl⟩, rfl, rfl, rfl⟩
  | socket _ hpc _ _ => exact ⟨.inr ⟨hpc, rfl⟩, rfl, rfl, rfl⟩

theorem Takes.ne_ended {l l' : Loop} {site : Site} {i : WsInput} (h : Takes l site i l') : l.pc ≠ .ended := by
  rcases h.pc.1 with ⟨hpc, -⟩ | ⟨hpc, -⟩ <;> rw [hpc] <;> nofun

/-- The main task does not come back after its end. -/
theorem LoopStep.stays_ended {l l' : Loop} {r : Option WispFrameResult} (h : LoopStep S l r l')
    (hend : l.pc = .ended) : l'.pc = .ended := by
  have hno : ∀ {q}, l.pc = q → q ≠ .ended → False := fun hq hne => hne (hq.symm.trans hend)
  cases h with
  | nop => exact hend
  | down => exact hend
  | task _ _ => exact hend
  | start hpc _ => cases hno hpc nofun
  | deferred hpc _ _ => cases hno hpc nofun
  | deferredConnect hpc _ => cases hno hpc nofun
  | inbound ht _ _ _ _ => cases ht.ne_ended hend
  | connect ht _ _ => cases ht.ne_ended hend
  | closing ht _ _ => cases ht.ne_ended hend
  | readError ht _ => cases ht.ne_ended hend
  | drained hpc _ => cases hno hpc nofun
  | tcpFailed hpc => cases hno hpc nofun
  | spawned hpc _ => cases hno hpc nofun
  | sendFailed hpc _ => cases hno hpc nofun
  | udpRefused hpc _ => cases hno hpc nofun
  | udpThrottled hpc _ => cases hno hpc nofun
  | udpAccepted hpc _ _ => cases hno hpc nofun
  | phase0 hpc _ => cases hno hpc nofun
  | phase0End hpc => cases hno hpc nofun
  | deadEnd hpc => cases hno hpc nofun
  | deadOne hpc => cases hno hpc nofun
  | event _ hpc _ => rcases hpc with ⟨hpc, -⟩ | ⟨hpc | hpc, -⟩ <;> cases hno hpc nofun
  | batch hpc => rcases hpc with ⟨hpc, -⟩ | ⟨hpc, -⟩ <;> cases hno hpc nofun
  | restEnd hpc => cases hno hpc nofun
  | timedOut hpc => cases hno hpc nofun
  | noPing hpc => cases hno hpc nofun
  | ping hpc => cases hno hpc nofun

/-! ## Frames -/

theorem Loop.emit_out (l : Loop) (fs : List ClientFrame) :
    (l.emit fs).out = l.out ++ if l.up then fs else [] := by
  unfold Loop.emit
  cases l.up <;> simp

/-- The frames that are new in `l'` satisfy `P`. -/
def Writes (P : ClientFrame → Prop) (l l' : Loop) : Prop :=
  ∃ fs, l'.out = l.out ++ fs ∧ ∀ f ∈ fs, P f

namespace Writes

variable {P : ClientFrame → Prop} {l l₁ l₂ : Loop}

theorem of_eq (h : l₁.out = l.out) : Writes P l l₁ := ⟨[], by rw [h, List.append_nil], by simp⟩

theorem trans (h : Writes P l l₁) (h' : Writes P l₁ l₂) : Writes P l l₂ := by
  obtain ⟨fs, hout, hp⟩ := h
  obtain ⟨gs, hout', hp'⟩ := h'
  refine ⟨fs ++ gs, by rw [hout', hout, List.append_assoc], ?_⟩
  intro f hf
  rcases List.mem_append.mp hf with hf | hf
  · exact hp f hf
  · exact hp' f hf

theorem emit {fs : List ClientFrame} (h : ∀ f ∈ fs, P f) : Writes P l (l.emit fs) := by
  refine ⟨_, l.emit_out fs, ?_⟩
  intro f hf
  split at hf
  · exact h f hf
  · cases hf

theorem flushThen (h : ∀ s n, P (.continue s n)) (q : Pc) : Writes P l (l.flushThen q) := by
  have hfs : ∀ f ∈ l.continueFrames, P f := by
    intro f hf
    obtain ⟨p, -, rfl⟩ := List.mem_map.mp hf
    exact h _ _
  exact emit hfs

theorem finishes {site : Site} (h : ∀ s n, P (.continue s n)) (hf : Finishes l site l₁) :
    Writes P l l₁ := by
  cases hf with
  | flush _ => exact flushThen h _
  | yield => exact flushThen h _
  | next => exact of_eq rfl

theorem breakLoop (h : ∀ s n, P (.continue s n)) (site : Site) : Writes P l (l.breakLoop site) := by
  cases site with
  | inner => exact flushThen h _
  | deferred => exact of_eq rfl
  | select => exact of_eq rfl

end Writes

/-- An inbound frame is answered with CLOSEs that no task asked for, and with short Pongs. -/
theorem Inbound.writes_of {P : ClientFrame → Prop} (hclose : ∀ s reason, P (.close s reason none))
    (hpong : ∀ payload, payload.length ≤ 125 → P (.pong payload)) {l l' : Loop} {r : WispFrameResult}
    (h : Inbound S l r l') : Writes P l l' := by
  cases h with
  | ignored _ => exact .of_eq rfl
  | early _ => exact .of_eq rfl
  | upload _ _ => exact .of_eq rfl
  | uploadDead _ _ => exact .emit (l := l) (by simp [hclose])
  | close => exact .of_eq rfl
  | refused _ => exact .emit (by simp [hclose])
  | throttled _ => exact .emit (l := l) (by simp [hclose])
  | pong => exact .emit (by simpa using hpong _ (List.length_take_le 125 _))

theorem Suspends.out_eq {l l' : Loop} {site : Site} {r : WispFrameResult}
    (h : Suspends l site r l') : l'.out = l.out := by
  cases h <;> rfl

/-- An event is answered with a CLOSE or a CONTINUE. -/
theorem Delivers.writes_of {P : ClientFrame → Prop}
    (hclose : ∀ s reason cause, P (.close s reason cause)) (hcont : ∀ s n, P (.continue s n))
    {l l' : Loop} {p : Posted} (h : Delivers S l p l') : Writes P l l' := by
  cases h with
  | ended _ => exact .emit (l := l) (by simp [hclose])
  | absent _ _ => exact .of_eq rfl
  | other _ _ _ => exact .of_eq rfl
  | attach _ _ => exact .emit (l := l) (by simp [hcont])
  | attachDead _ _ => exact .emit (l := l) (by simp [hclose])

theorem Drains.out_eq {l l' : Loop} {s : StreamId} {keep died : Bool}
    (h : Drains l s keep died l') : l'.out = l.out := by
  cases h <;> rfl

end ShrimpWisp
