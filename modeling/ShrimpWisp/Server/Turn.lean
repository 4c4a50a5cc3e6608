import ShrimpWisp.Server.Loop

/-!
# The turns of the tasks

What one step of a task does, said once for the results about progress, time and the ends of tasks.

* `Desk`: what the main task has before it, which is what it still has to handle (frames, events,
  DATA, queues to drain), its timers, and the tasks it spawned with their history. `Resumes`,
  `Handles`: what the handling of a frame does to it. `MainTurn`: a step of the main task
  (`stepMain_turn`).
* `AtRest`: the main task can not go on. `stepMain_isSome`: otherwise it can, whatever its
  environment answers.
* `TaskTurn`: a step of a spawned task (`stepTask_turn`).
-/

namespace ShrimpWisp

variable {S : Setup}

/-! ## The main task -/

/-- What the main task has before it. -/
structure Desk where
  pc : Pc
  wsBuf : List WsInput
  wire : List WsInput
  control : List Posted
  data : List DataMsg
  tracked : List StreamId
  framesSinceYield : Nat
  now : Nat
  idleAt : Nat
  pingAt : Nat
  /-- Writes to the client succeed. -/
  up : Bool
  /-- The limit of the table. -/
  limit : Nat
  tasks : List Task
  reads : List DataMsg
  dialed : List Opened

def Conn.desk (c : Conn) : Desk where
  pc := c.pc
  wsBuf := c.wsBuf
  wire := c.wire
  control := c.control.items
  data := c.data.items
  tracked := c.streamsWithPending
  framesSinceYield := c.framesSinceYield
  now := c.now
  idleAt := c.idleAt
  pingAt := c.pingAt
  up := c.clientUp
  limit := c.table.maxStreams
  tasks := c.tasks
  reads := c.reads
  dialed := c.dialed

/-- The idle timer restarts with an inbound frame. -/
def Desk.resetIdle (S : Setup) (d : Desk) : Desk :=
  if S.idleEnabled then { d with idleAt := d.now + S.idleDuration } else d

/-- Where the main task is after a write to the client: at `next`, or at its end if the write
failed. -/
def Desk.Goes (d : Desk) (next q : Pc) : Prop := q = next ∨ q = .ended ∧ d.up = false

/-- What follows the handling of a frame. -/
inductive Resumes (S : Setup) (d : Desk) : Site → Desk → Prop
  | deferred {q} : d.Goes .inner q →
      Resumes S d .deferred
        { d with idleAt := d.now + S.idleDuration, pingAt := d.now + S.pingInterval, pc := q }
  | yield {q} : S.yieldLimit ≤ d.framesSinceYield + 1 → d.Goes (.phase0 d.tracked [] []) q →
      Resumes S d .inner { d with framesSinceYield := 0, pc := q }
  | next : d.framesSinceYield + 1 < S.yieldLimit →
      Resumes S d .inner { d with framesSinceYield := d.framesSinceYield + 1, pc := .inner }
  | select {q} : d.Goes .inner q →
      Resumes S d .select { d with framesSinceYield := d.framesSinceYield + 1, pc := q }

/-- A frame is handled at a site, at once or up to the await of the resolver. The flag says that it
breaks the loop: a closing frame, or an error of the reader. -/
inductive Handles (S : Setup) (d : Desk) (site : Site) : Bool → Desk → Prop
  | resumes {tracked d'} : Resumes S { d with tracked } site d' → Handles S d site false d'
  | tcp {s connect cancel known} :
      Handles S d site false { d with pc := .resolvingTcp site s connect cancel known }
  | udp {s connect known} :
      Handles S d site false { d with pc := .resolvingUdp site s connect known }
  | breaks : Handles S d site true { d with pc := .ended }

/-- The result of a reader breaks the loop. -/
def breaksLoop : Option WispFrameResult → Bool
  | none => true
  | some r => r.closes

/-- A frame breaks the loop at a site. -/
def Site.breaks (S : Setup) (site : Site) (i : WsInput) : Bool := breaksLoop (site.read S i)

/-- Nothing is left for the `select!` but its timers. -/
structure Desk.Clear (d : Desk) : Prop where
  pc : d.pc = .select
  wsBuf : d.wsBuf = []
  wire : d.wire = []
  data : d.data = []
  control : d.control = []

/-- A step of the main task. -/
inductive MainTurn (S : Setup) (d : Desk) : Desk → Prop
  -- Frames
  | begin {frame d'} : d.pc = .start frame → Handles S d .deferred false d' → MainTurn S d d'
  | inbound {i rest d'} : d.pc = .inner → d.wsBuf = i :: rest →
      Handles S ({ d with wsBuf := rest }.resetIdle S) .inner (Site.inner.breaks S i) d' →
      MainTurn S d d'
  | buffered {i rest d'} : d.pc = .select → d.wsBuf = i :: rest →
      Handles S ({ d with wsBuf := rest }.resetIdle S) .select (Site.select.breaks S i) d' →
      MainTurn S d d'
  | socket {i rest n d'} : d.pc = .select → d.wsBuf = [] → d.wire = i :: rest →
      Handles S ({ d with wsBuf := rest.take n, wire := rest.drop n }.resetIdle S) .select
        (Site.select.breaks S i) d' → MainTurn S d d'
  | drained {q} : d.pc = .inner → d.wsBuf = [] → d.Goes (.phase0 d.tracked [] []) q →
      MainTurn S d { d with pc := q }
  -- The resolver's answer
  | failed {site s connect cancel known p} : d.pc = .resolvingTcp site s connect cancel known →
      MainTurn S d { d with pc := .sending site p }
  | spawned {site s connect cancel known t d'} : d.pc = .resolvingTcp site s connect cancel known →
      Resumes S { d with tasks := d.tasks ++ [t] } site d' → MainTurn S d d'
  | udp {site s connect known tasks d'} : d.pc = .resolvingUdp site s connect known →
      Resumes S { d with tasks := d.tasks ++ tasks } site d' → MainTurn S d d'
  | sent {site p d'} : d.pc = .sending site p →
      Resumes S { d with control := d.control ++ [p] } site d' → MainTurn S d d'
  -- The phases
  | phase0 {s todo kept kept' dead dead' tracked} : d.pc = .phase0 (s :: todo) kept dead →
      dead'.length ≤ dead.length + 1 →
      MainTurn S d { d with tracked, pc := .phase0 todo kept' dead' }
  | phase0End {kept dead} : d.pc = .phase0 [] kept dead →
      MainTurn S d { d with pc := .phase0Dead dead }
  | deadOne {s dead} : d.pc = .phase0Dead (s :: dead) →
      MainTurn S d { d with pc := .phase0Dead dead }
  | deadEnd : d.pc = .phase0Dead [] → MainTurn S d { d with pc := .phase1 }
  | event {p rest q tracked tasks} : d.control = p :: rest →
      d.pc = .phase1 ∧ q = .phase1 ∨
        d.pc = .controlRest ∧ q = .controlRest ∨
        d.pc = .select ∧ d.wsBuf = [] ∧ d.wire = [] ∧ d.data = [] ∧ q = .controlRest →
      MainTurn S d { d with control := rest, tracked, tasks := d.tasks ++ tasks, pc := q }
  | phase2 {q} : d.pc = .phase1 → d.control = [] → d.Goes .select q →
      MainTurn S d { d with data := [], pc := q }
  | restEnd : d.pc = .controlRest → d.control = [] → MainTurn S d { d with pc := .inner }
  -- The other branches of the `select!`
  | batch {q} : d.pc = .select → d.wsBuf = [] → d.wire = [] → d.data ≠ [] →
      d.Goes .inner q → MainTurn S d { d with data := [], pc := q }
  | idle : d.Clear → S.full = true → d.idleAt ≤ d.now → MainTurn S d { d with pc := .ended }
  | ping : d.Clear → d.now < d.idleAt → d.pingAt ≤ d.now → S.pingEnabled = true →
      MainTurn S d { d with pingAt := d.now + S.pingInterval, pc := .inner }
  | pongTimeout : d.Clear → d.now < d.idleAt → d.pingAt ≤ d.now → S.pingEnabled = true →
      MainTurn S d { d with pc := .ended }
  | noPing : d.Clear → S.full = true → d.now < d.idleAt → d.pingAt ≤ d.now →
      S.pingEnabled = false → MainTurn S d { d with pc := .inner }

namespace Conn

/-! ### The parts of a step -/

theorem desk_removeStream (c : Conn) (s : StreamId) : (c.removeStream s).desk = c.desk := by
  unfold removeStream StreamTable.remove
  cases c.table.get? s with
  | none => rfl
  | some x => cases x <;> simp only [retire, desk, StreamTable.maxStreams_takeEntry]

theorem desk_handleDataZerocopy (c : Conn) (s : StreamId) (payload : List UInt8) (e : Env) :
    ∃ tracked, (c.handleDataZerocopy S s payload e).2.desk = { c.desk with tracked } := by
  unfold handleDataZerocopy
  split
  · exact ⟨_, rfl⟩
  · dsimp only
    split
    · refine ⟨c.streamsWithPending, ?_⟩
      rw [desk_removeStream]
      simp only [desk, StreamTable.maxStreams_set]
    · simp only [desk, StreamTable.maxStreams_set, Desk.mk.injEq, true_and, and_true]
      exact ⟨_, rfl⟩
  · exact ⟨_, rfl⟩
  · dsimp only
    split
    · refine ⟨c.streamsWithPending, ?_⟩
      simp only [desk, StreamTable.maxStreams_set]
    · exact ⟨_, rfl⟩

theorem maxStreams_remove {t t' : StreamTable Octet} {F F' : Flags} {s : StreamId}
    {x : Option (ProxyStream Octet)} (h : t.remove F s = (x, t', F')) :
    t'.maxStreams = t.maxStreams := by
  unfold StreamTable.remove at h
  split at h <;> cases h
  · exact t.maxStreams_takeEntry s
  · rfl

theorem maxStreams_of_insert {t t' : StreamTable Octet} {s : StreamId} {x : ProxyStream Octet}
    {ok : Bool} (h : t.insert s x = (ok, t')) : t'.maxStreams = t.maxStreams := by
  have hi := t.maxStreams_insert s x
  rwa [h] at hi

theorem desk_handleTcpConnected (c : Conn) (e : Env) (s : StreamId) (reader : Inc)
    (writer : OwnedWriteHalf Octet) :
    ∃ tracked tasks, (c.handleTcpConnected S e s reader writer).desk =
      { c.desk with tracked, tasks := c.tasks ++ tasks } := by
  unfold handleTcpConnected
  split
  · next hr =>
    have hlimit := maxStreams_remove hr
    dsimp only
    split
    · refine ⟨c.streamsWithPending, [], ?_⟩
      simp only [desk, write, writeAll, hlimit, List.append_nil]
    · simp only [desk, write, writeAll, spawn, StreamTable.maxStreams_insert, hlimit,
        Desk.mk.injEq, true_and, and_true, List.append_cancel_left_eq]
      exact ⟨_, _, rfl, rfl⟩
  · next hr =>
    refine ⟨c.streamsWithPending, [], ?_⟩
    simp only [desk, StreamTable.maxStreams_insert, maxStreams_remove hr, List.append_nil]
  · next hr =>
    refine ⟨c.streamsWithPending, [], ?_⟩
    simp only [desk, maxStreams_remove hr, List.append_nil]

theorem desk_handleControlEvent (c : Conn) (e : Env) (p : Posted) :
    ∃ tracked tasks, (c.handleControlEvent S e p).desk =
      { c.desk with tracked, tasks := c.tasks ++ tasks } := by
  have hend : ∀ s reason, ∃ tracked tasks, (c.handleEnd s reason p.origin).desk =
      { c.desk with tracked, tasks := c.tasks ++ tasks } := by
    intro s reason
    refine ⟨c.streamsWithPending, [], ?_⟩
    rw [List.append_nil]
    exact desk_removeStream c s
  unfold handleControlEvent
  split
  · exact hend _ _
  · exact desk_handleTcpConnected c e _ _ _
  · exact hend _ _

theorem desk_drainOne (c : Conn) (s : StreamId) (r : WriteResult) :
    (c.drainOne s r).2.2.desk = c.desk := by
  unfold drainOne
  split
  · split <;> simp only [desk, StreamTable.maxStreams_set]
  · rfl

theorem desk_resetIdle (c : Conn) : (c.resetIdle S).desk = c.desk.resetIdle S := by
  unfold resetIdle Desk.resetIdle
  split <;> rfl

/-- A write of what may be nothing. -/
theorem goes_if (c : Conn) (empty : Bool) (next : Pc) :
    c.desk.Goes next (if empty || c.clientUp then next else .ended) := by
  split
  · exact .inl rfl
  · next h =>
    rw [Bool.or_eq_true, not_or] at h
    exact .inr ⟨rfl, Bool.eq_false_iff.mpr h.2⟩

/-- A flush of CONTINUEs goes on, or ends the connection. -/
theorem desk_flushThen (c : Conn) (next : Pc) :
    ∃ q, c.desk.Goes next q ∧ (c.flushThen next).desk = { c.desk with pc := q } :=
  ⟨_, c.goes_if _ next, rfl⟩

/-- The loop begins. The durations are variables here: `rfl` would compute them. -/
theorem desk_begin (c : Conn) {idle ping : Nat} (hidle : S.idleDuration = idle)
    (hping : S.pingInterval = ping) :
    Resumes S c.desk .deferred
      ({ c with idleAt := c.now + idle, pingAt := c.now + ping }.flushThen .inner).desk := by
  obtain ⟨q, hq, hd⟩ :=
    { c with idleAt := c.now + idle, pingAt := c.now + ping }.desk_flushThen .inner
  have h := Resumes.deferred (S := S) (d := c.desk) hq
  rw [hidle, hping] at h
  rw [hd]
  exact h

theorem resumes (c : Conn) (site : Site) : Resumes S c.desk site (c.finish S site).desk := by
  cases site with
  | deferred => exact desk_begin c rfl rfl
  | inner =>
    unfold finish
    dsimp only
    split
    · next hl =>
      obtain ⟨q, hq, hd⟩ := { c with framesSinceYield := 0 }.desk_flushThen c.phase0Head
      rw [hd]
      exact .yield hl hq
    · next hl => exact .next (Nat.lt_of_not_le hl)
  | select =>
    obtain ⟨q, hq, hd⟩ :=
      { c with framesSinceYield := c.framesSinceYield + 1 }.desk_flushThen .inner
    unfold finish
    rw [hd]
    exact .select hq

theorem resumes_of {c : Conn} {d : Desk} (h : c.desk = d) (site : Site) :
    Resumes S d site (c.finish S site).desk := h ▸ c.resumes site

theorem handles_of {c : Conn} {d : Desk} {tracked : List StreamId}
    (h : c.desk = { d with tracked }) (site : Site) : Handles S d site false (c.finish S site).desk :=
  .resumes (resumes_of h site)

theorem handles_finish (c : Conn) (site : Site) : Handles S c.desk site false (c.finish S site).desk :=
  handles_of rfl site

theorem handles_refuse_of {c : Conn} {d : Desk} (h : c.desk = d) (site : Site) (s : StreamId)
    (reason : CloseReason) : Handles S d site false (c.refuse S site s reason).desk :=
  handles_of (c := c.write (.close s reason none)) h site

theorem handles_refuse (c : Conn) (site : Site) (s : StreamId) (reason : CloseReason) :
    Handles S c.desk site false (c.refuse S site s reason).desk :=
  handles_refuse_of rfl site s reason

theorem handles_breakLoop (c : Conn) (site : Site) :
    Handles S c.desk site true (c.breakLoop site).desk := by
  cases site with
  | inner =>
    obtain ⟨q, hq, hd⟩ := c.desk_flushThen .ended
    have hq : q = .ended := hq.elim id And.left
    unfold breakLoop
    rw [hd, hq]
    exact .breaks
  | deferred => exact .breaks
  | select => exact .breaks

theorem handles_data (c : Conn) (site : Site) (s : StreamId) (payload : List UInt8) (e : Env) :
    Handles S c.desk site false (c.handleData S site s payload e).desk := by
  obtain ⟨tracked, hd⟩ := c.desk_handleDataZerocopy (S := S) s payload e
  unfold handleData
  split
  · next c₁ hc =>
    rw [hc] at hd
    exact handles_of (c := c₁.write _) hd site
  · next c₁ hc =>
    rw [hc] at hd
    exact handles_of hd site

theorem handles_connect (c : Conn) (site : Site) (s : StreamId) (connect : ConnectPayload)
    (e : Env) : Handles S c.desk site false (c.handleConnect S site s connect e).desk := by
  unfold handleConnect
  split
  · exact handles_refuse c site s _
  split
  · exact handles_refuse c site s _
  split
  · exact handles_refuse c site s _
  split
  · exact handles_refuse c site s _
  split
  · exact handles_refuse c site s _
  split
  · unfold handleTcpConnect
    dsimp only
    split
    · next hi =>
      refine handles_refuse_of ?_ site s _
      simp only [desk, maxStreams_of_insert hi]
    · next hi =>
      have h := @Handles.tcp S c.desk site s connect (c.flags.new c.accepted.length).1
        (resolveNow c.dns c.now connect.hostname connect.port)
      simp only [desk, accept, maxStreams_of_insert hi] at h ⊢
      exact h
  · unfold handleUdpConnect
    split
    · exact .udp
    · exact handles_refuse c site s _

theorem handles_inbound (c : Conn) (site : Site) (e : Env) (r : Option WispFrameResult) :
    Handles S c.desk site (breaksLoop r) (c.handleInbound S site e r).desk := by
  cases r with
  | none => exact handles_breakLoop c site
  | some r =>
    cases r with
    | wisp t s payload =>
      have hopen : t ≠ packetClose ∨ s ≠ streamIdControl →
          breaksLoop (some (.wisp t s payload)) = false := by
        intro h
        simp only [breaksLoop, WispFrameResult.closes, Bool.and_eq_false_iff, beq_eq_false_iff_ne]
        exact h
      simp only [handleInbound]
      split
      · next ht =>
        rw [hopen (.inl (by rw [ht]; decide))]
        exact handles_data c site _ _ e
      split
      · next ht =>
        rw [hopen (.inl (by rw [ht]; decide))]
        split
        · exact handles_connect c site _ _ e
        · exact handles_refuse c site _ _
      split
      · next ht =>
        split
        · next hs =>
          rw [show breaksLoop (some (.wisp t s payload)) = true by
            simp [breaksLoop, WispFrameResult.closes, ht, hs]]
          exact handles_breakLoop (c.write .wsClose) site
        · next hs =>
          rw [hopen (.inr hs)]
          exact handles_of (desk_removeStream c _) site
      · next ht =>
        rw [hopen (.inl ht)]
        exact handles_finish c site
    | control f =>
      simp only [handleInbound, breaksLoop, WispFrameResult.closes]
      split
      · next hop =>
        rw [hop]
        exact handles_breakLoop (c.write .wsClose) site
      · next hop =>
        rw [hop]
        exact handles_of (c := c.write (.pong _)) rfl site
      · next hop =>
        rw [hop]
        exact handles_finish { c with awaitingPong := false, lastPong := c.now } site
      · next hop _ _ =>
        rw [beq_false_of_ne hop]
        exact handles_finish c site

/-- A frame from the client restarts the idle timer, and is handled. -/
theorem handles_taken (c : Conn) (site : Site) (e : Env) (i : WsInput) :
    Handles S (c.desk.resetIdle S) site (site.breaks S i)
      ((c.resetIdle S).handleInbound S site e (site.read S i)).desk := by
  rw [← desk_resetIdle]
  exact handles_inbound _ site e (site.read S i)

theorem handles_deferred (c : Conn) (e : Env) (payload : List UInt8) :
    Handles S c.desk .deferred false (c.processInboundFrame S e payload).desk := by
  unfold processInboundFrame
  split
  · exact handles_finish c _
  split
  · dsimp only
    split
    · exact handles_data c _ _ _ e
    split
    · split
      · exact handles_connect c _ _ _ e
      · exact handles_refuse c _ _ _
    split
    · split
      · exact handles_finish c _
      · exact handles_of (desk_removeStream c _) _
    · exact handles_finish c _
  · exact handles_finish c _

/-- The resolver's answer for a TCP stream. -/
theorem turn_tcpResolved {c c₁ : Conn} {site : Site} {s : StreamId} {connect : ConnectPayload}
    {cancel : CancelFlag} {known : Option Resolved} (res : Option Resolved)
    (hpc : c.pc = .resolvingTcp site s connect cancel known) (hc : c₁.desk = c.desk) :
    MainTurn S c.desk (c₁.tcpResolved S site s connect cancel res).desk := by
  have hfail : ∀ p, MainTurn S c.desk { c₁ with pc := .sending site p }.desk := by
    intro p
    have h := MainTurn.failed (S := S) (d := c.desk) (p := p) hpc
    rw [← hc] at h ⊢
    exact h
  unfold tcpResolved
  dsimp only
  split
  · exact hfail _
  · next r =>
    split
    · exact hfail _
    split
    · exact hfail _
    · refine .spawned (d := c.desk) (t := ⟨s, cancel, cancel.owner, .tcp, .spawned r⟩) hpc
        (resumes_of ?_ site)
      rw [← hc]
      rfl

/-- The resolver's answer for a UDP stream. -/
theorem turn_udpResolved {c c₁ : Conn} {site : Site} {s : StreamId} {connect : ConnectPayload}
    {known : Option Resolved} (res : Option Resolved)
    (hpc : c.pc = .resolvingUdp site s connect known) (hc : c₁.desk = c.desk) :
    MainTurn S c.desk (c₁.udpResolved S site s connect res).desk := by
  have hrefuse : ∀ {c₂ : Conn} reason, c₂.desk = c.desk →
      MainTurn S c.desk (c₂.refuse S site s reason).desk := by
    intro c₂ reason h₂
    refine @MainTurn.udp S c.desk site s connect known [] _ hpc (resumes_of ?_ site)
    rw [List.append_nil]
    exact h₂
  unfold udpResolved
  split
  · exact hrefuse _ hc
  · next r =>
    split
    · exact hrefuse _ hc
    · dsimp only
      split
      · next hi =>
        refine hrefuse _ ?_
        rw [← hc]
        simp only [desk, maxStreams_of_insert hi]
      · next hi =>
        refine @MainTurn.udp S c.desk site s connect known
          [⟨s, (c₁.flags.new c₁.accepted.length).1, c₁.accepted.length, .udp, .top⟩] _ hpc
          (resumes_of ?_ site)
        rw [← hc]
        simp only [desk, spawn, accept, maxStreams_of_insert hi]

/-- A control event is handled. -/
theorem turn_event {c : Conn} (e : Env) {p : Posted} {ctl : Chan 256 Posted} {q : Pc}
    (hr : c.control.tryRecv = some (p, ctl))
    (hpc : c.pc = .phase1 ∧ q = .phase1 ∨
      c.pc = .controlRest ∧ q = .controlRest ∨
      c.pc = .select ∧ c.wsBuf = [] ∧ c.wire = [] ∧ c.data.items = [] ∧ q = .controlRest) :
    MainTurn S c.desk { { c with control := ctl }.handleControlEvent S e p with pc := q }.desk := by
  obtain ⟨tracked, tasks, hd⟩ := { c with control := ctl }.desk_handleControlEvent (S := S) e p
  have h := @MainTurn.event S c.desk _ _ q tracked tasks (Chan.tryRecv_some hr) hpc
  have hdesk : { { c with control := ctl }.handleControlEvent S e p with pc := q }.desk =
      { ({ c with control := ctl }.handleControlEvent S e p).desk with pc := q } := rfl
  rw [hdesk, hd]
  exact h

/-- A batch of DATA goes on, or ends the connection. -/
theorem desk_writeBatch (c : Conn) (next : Pc) :
    ∃ q, c.desk.Goes next q ∧
      (c.writeBatch next).desk = { c.desk with data := [], pc := q } :=
  ⟨_, c.goes_if _ next, rfl⟩

theorem turn_timers {c c' : Conn} (hclear : c.desk.Clear) (hs : c.stepTimers S = some c') :
    MainTurn S c.desk c'.desk := by
  unfold stepTimers at hs
  split at hs
  · cases hs
  next hfull =>
  have hfull : S.full = true := by simpa using hfull
  split at hs
  · next hidle =>
    cases hs
    exact .idle hclear hfull hidle
  next hidle =>
  have hidle : c.now < c.idleAt := Nat.lt_of_not_le hidle
  split at hs
  · next hping =>
    split at hs
    · next hen =>
      split at hs
      · cases hs
        exact .pongTimeout hclear hidle hping hen
      · cases hs
        exact .ping hclear hidle hping hen
    · next hen =>
      cases hs
      exact .noPing hclear hfull hidle hping (Bool.eq_false_iff.mpr hen)
  · cases hs

theorem turn_select {c c' : Conn} {e : Env} (hpc : c.pc = .select)
    (hs : c.stepSelect S e = some c') : MainTurn S c.desk c'.desk := by
  unfold stepSelect at hs
  split at hs
  · next i rest hbuf =>
    cases hs
    exact .buffered hpc hbuf (handles_taken { c with wsBuf := rest, tried := [] } .select e i)
  · next i rest hbuf hwire =>
    cases hs
    exact .socket hpc hbuf hwire (handles_taken
      { c with wsBuf := rest.take e.more, wire := rest.drop e.more, tried := [] } .select e i)
  · next hbuf hwire =>
    split at hs
    · next hdata =>
      cases hs
      obtain ⟨q, hq, hd⟩ := { c with tried := [] }.desk_writeBatch .inner
      rw [hd]
      exact .batch hpc hbuf hwire hdata hq
    next hdata =>
    have hdata : c.data.items = [] := not_not.mp hdata
    split at hs
    · next p ctl hr =>
      cases hs
      exact turn_event (c := { c with tried := [] }) e hr
        (.inr (.inr ⟨hpc, hbuf, hwire, hdata, rfl⟩))
    · next hr =>
      exact turn_timers (c := { c with tried := [] })
        ⟨hpc, hbuf, hwire, hdata, Chan.tryRecv_none.mp hr⟩ hs

/-- What a step of the main task does. -/
theorem stepMain_turn {c c' : Conn} {e : Env} (hs : c.stepMain S e = some c') :
    MainTurn S c.desk c'.desk := by
  unfold stepMain at hs
  split at hs
  case h_1 hpc =>
    cases hs
    exact .begin hpc (handles_finish c _)
  case h_2 hpc =>
    cases hs
    exact .begin hpc (handles_deferred c e _)
  case h_3 hpc =>
    split at hs
    · next i rest hbuf =>
      cases hs
      exact .inbound hpc hbuf (handles_taken { c with wsBuf := rest } .inner e i)
    · next hbuf =>
      cases hs
      obtain ⟨q, hq, hd⟩ := c.desk_flushThen c.phase0Head
      rw [hd]
      exact .drained hpc hbuf hq
  case h_4 hpc =>
    split at hs
    · cases hs; exact turn_tcpResolved _ hpc rfl
    · split at hs
      · cases hs; exact turn_tcpResolved _ hpc rfl
      · cases hs; exact turn_tcpResolved _ hpc rfl
  case h_5 hpc =>
    split at hs
    · cases hs; exact turn_udpResolved _ hpc rfl
    · split at hs
      · cases hs; exact turn_udpResolved _ hpc rfl
      · cases hs; exact turn_udpResolved _ hpc rfl
  case h_6 site p hpc =>
    split at hs
    · next ctl hsend =>
      cases hs
      refine .sent hpc (resumes_of ?_ site)
      simp only [desk, (Chan.trySend_some hsend).1]
    · cases hs
  case h_7 hpc =>
    cases hs
    exact .phase0End hpc
  case h_8 s todo kept dead hpc =>
    cases hs
    have hd := c.desk_drainOne s (e.write 0)
    have hlen : (if (c.drainOne s (e.write 0)).2.1 then dead ++ [s] else dead).length ≤
        dead.length + 1 := by
      split
      · rw [List.length_append, List.length_singleton]
      · exact Nat.le_succ _
    have h := @MainTurn.phase0 S c.desk s todo kept
      (if (c.drainOne s (e.write 0)).1 then kept ++ [s] else kept) dead _
      ((if (c.drainOne s (e.write 0)).1 then kept ++ [s] else kept) ++ todo) hpc hlen
    rw [← hd] at h ⊢
    exact h
  case h_9 hpc =>
    cases hs
    exact .deadEnd hpc
  case h_10 s dead hpc =>
    cases hs
    have h := MainTurn.deadOne (S := S) (d := c.desk) hpc
    rw [← desk_removeStream c s] at h
    rw [← desk_removeStream c s]
    exact h
  case h_11 hpc =>
    split at hs
    · next hr =>
      cases hs
      exact turn_event e hr (.inl ⟨hpc, rfl⟩)
    · next hr =>
      cases hs
      obtain ⟨q, hq, hd⟩ := c.desk_writeBatch .select
      rw [hd]
      exact .phase2 hpc (Chan.tryRecv_none.mp hr) hq
  case h_12 hpc => exact turn_select hpc hs
  case h_13 hpc =>
    split at hs
    · next hr =>
      cases hs
      exact turn_event e hr (.inr (.inl ⟨hpc, rfl⟩))
    · next hr =>
      cases hs
      exact .restEnd hpc (Chan.tryRecv_none.mp hr)
  case h_14 => cases hs

end Conn

/-- What the main task leaves alone: the time, the client's socket, the limit of the table, and the
tasks, but for those that it spawns. -/
structure Leaves (d d' : Desk) : Prop where
  now : d'.now = d.now
  up : d'.up = d.up
  limit : d'.limit = d.limit
  reads : d'.reads = d.reads
  dialed : d'.dialed = d.dialed
  tasks : ∃ new, d'.tasks = d.tasks ++ new

namespace Leaves

variable {d d₁ d' : Desk}

/-- Only the rest of the desk changes. -/
theorem of_eq (hnow : d'.now = d.now) (hup : d'.up = d.up) (hlimit : d'.limit = d.limit)
    (hreads : d'.reads = d.reads) (hdialed : d'.dialed = d.dialed) (htasks : d'.tasks = d.tasks) :
    Leaves d d' :=
  ⟨hnow, hup, hlimit, hreads, hdialed, [], by rw [htasks, List.append_nil]⟩

theorem trans (h : Leaves d d₁) (h' : Leaves d₁ d') : Leaves d d' := by
  obtain ⟨new, hn⟩ := h.tasks
  obtain ⟨new', hn'⟩ := h'.tasks
  refine ⟨h'.now.trans h.now, h'.up.trans h.up, h'.limit.trans h.limit, h'.reads.trans h.reads,
    h'.dialed.trans h.dialed, new ++ new', ?_⟩
  rw [hn', hn, List.append_assoc]

theorem resetIdle (d : Desk) : Leaves d (d.resetIdle S) := by
  unfold Desk.resetIdle
  split
  · exact of_eq rfl rfl rfl rfl rfl rfl
  · exact of_eq rfl rfl rfl rfl rfl rfl

theorem resumes {site : Site} (h : Resumes S d site d') : Leaves d d' := by
  cases h <;> exact of_eq rfl rfl rfl rfl rfl rfl

theorem handles {site : Site} {b : Bool} (h : Handles S d site b d') : Leaves d d' := by
  cases h with
  | resumes hr =>
    refine trans ?_ (resumes hr)
    exact of_eq rfl rfl rfl rfl rfl rfl
  | tcp => exact of_eq rfl rfl rfl rfl rfl rfl
  | udp => exact of_eq rfl rfl rfl rfl rfl rfl
  | breaks => exact of_eq rfl rfl rfl rfl rfl rfl

end Leaves

theorem MainTurn.leaves {d d' : Desk} (h : MainTurn S d d') : Leaves d d' := by
  have htaken : ∀ {d₁ site b}, Handles S (d₁.resetIdle S) site b d' → Leaves d d₁ → Leaves d d' :=
    fun hh h₁ => h₁.trans ((Leaves.resetIdle _).trans (.handles hh))
  have hresumes : ∀ {d₁ site}, Resumes S d₁ site d' → Leaves d d₁ → Leaves d d' :=
    fun hr h₁ => h₁.trans (.resumes hr)
  cases h with
  | begin _ h => exact .handles h
  | inbound _ _ h => exact htaken h (.of_eq rfl rfl rfl rfl rfl rfl)
  | buffered _ _ h => exact htaken h (.of_eq rfl rfl rfl rfl rfl rfl)
  | socket _ _ _ h => exact htaken h (.of_eq rfl rfl rfl rfl rfl rfl)
  | spawned _ h => exact hresumes h ⟨rfl, rfl, rfl, rfl, rfl, _, rfl⟩
  | udp _ h => exact hresumes h ⟨rfl, rfl, rfl, rfl, rfl, _, rfl⟩
  | sent _ h => exact hresumes h (.of_eq rfl rfl rfl rfl rfl rfl)
  | event _ _ => exact ⟨rfl, rfl, rfl, rfl, rfl, _, rfl⟩
  | _ => exact .of_eq rfl rfl rfl rfl rfl rfl

/-- The main task can not go on: it has ended, or it waits for a slot in the control channel, or its
`select!` has nothing to take and no timer that is due. -/
inductive AtRest (S : Setup) (d : Desk) : Prop
  | ended : d.pc = .ended → AtRest S d
  | blocked {site p} : d.pc = .sending site p → d.control.length = 256 → AtRest S d
  | waits : d.Clear → S.full = false ∨ d.now < d.idleAt ∧ d.now < d.pingAt → AtRest S d

namespace Conn

/-- A main task that is not at rest goes on, whatever its environment answers. -/
theorem stepMain_isSome {c : Conn} (h : ¬ AtRest S c.desk) (e : Env) :
    ∃ c', c.stepMain S e = some c' := by
  rw [← Option.isSome_iff_exists]
  cases hpc : c.pc with
  | start frame => cases frame <;> simp only [stepMain, hpc, Option.isSome_some]
  | inner =>
    simp only [stepMain, hpc]
    split <;> rfl
  | resolvingTcp site s connect cancel known =>
    simp only [stepMain, hpc]
    split
    · rfl
    · split <;> rfl
  | resolvingUdp site s connect known =>
    simp only [stepMain, hpc]
    split
    · rfl
    · split <;> rfl
  | sending site p =>
    simp only [stepMain, hpc]
    split
    · rfl
    · next hsend => exact absurd (.blocked hpc (Chan.trySend_none.mp hsend)) h
  | phase0 todo kept dead => cases todo <;> simp only [stepMain, hpc, Option.isSome_some]
  | phase0Dead dead => cases dead <;> simp only [stepMain, hpc, Option.isSome_some]
  | phase1 =>
    simp only [stepMain, hpc]
    split <;> rfl
  | controlRest =>
    simp only [stepMain, hpc]
    split <;> rfl
  | ended => exact absurd (.ended hpc) h
  | select =>
    simp only [stepMain, hpc, stepSelect]
    split
    · rfl
    · rfl
    next hbuf hwire =>
    split
    · rfl
    next hdata =>
    split
    · rfl
    next hr =>
    have hclear : c.desk.Clear := ⟨hpc, hbuf, hwire, not_not.mp hdata, Chan.tryRecv_none.mp hr⟩
    unfold stepTimers
    split
    · next hfull => exact absurd (.waits hclear (.inl (by simpa using hfull))) h
    split
    · rfl
    next hidle =>
    split
    · split
      · split <;> rfl
      · rfl
    · next hping =>
      exact absurd (.waits hclear (.inr ⟨Nat.lt_of_not_le hidle, Nat.lt_of_not_le hping⟩)) h

end Conn

/-! ## Spawned tasks -/

/-- A step of the spawned task `i`, which is `t`. -/
inductive TaskTurn (c : Conn) (i : Nat) (t : Task) : Conn → Prop
  | cancelled : (∃ r, t.state = .spawned r) ∨ t.state = .top → c.flags.isCancelled t.cancel = true →
      TaskTurn c i t (c.setTask i t .done)
  | dial {r} : t.state = .spawned r → c.flags.isCancelled t.cancel = false →
      TaskTurn c i t ({ c with dialed := ⟨t.cancel.owner, r⟩ :: c.dialed }.setTask i t (.dialing r))
  | connected {r p} : t.state = .dialing r → TaskTurn c i t (c.setTask i t (.sendingControl p))
  | startRead : t.state = .top → c.flags.isCancelled t.cancel = false →
      TaskTurn c i t (c.setTask i t .reading)
  | read {m} : t.state = .reading → c.flags.isCancelled t.cancel = false → m.reader = t.cancel →
      TaskTurn c i t ({ c with reads := c.reads ++ [m] }.setTask i t (.sendingData m))
  | readCancelled {m} : t.state = .reading → c.flags.isCancelled t.cancel = true →
      m.reader = t.cancel → TaskTurn c i t ({ c with reads := c.reads ++ [m] }.setTask i t .done)
  | readEnd {p} : t.state = .reading → c.flags.isCancelled t.cancel = false →
      TaskTurn c i t (c.setTask i t (.sendingControl p))
  | readEndCancelled : t.state = .reading → c.flags.isCancelled t.cancel = true →
      TaskTurn c i t (c.setTask i t .done)
  /-- The main task has ended. -/
  | gone : (∃ m, t.state = .sendingData m) ∨ (∃ p, t.state = .sendingControl p) → c.pc = .ended →
      TaskTurn c i t (c.setTask i t .done)
  | sendData {m data} : t.state = .sendingData m → c.pc ≠ .ended → c.data.trySend m = some data →
      TaskTurn c i t ({ c with data }.setTask i t .top)
  | sendControl {p control} : t.state = .sendingControl p → c.pc ≠ .ended →
      c.control.trySend p = some control → TaskTurn c i t ({ c with control }.setTask i t .done)

/-- What a step of a spawned task does. -/
theorem stepTask_turn {c c' : Conn} {i : Nat} {x : TaskInput} (hs : c.stepTask i x = some c') :
    ∃ t, c.tasks[i]? = some t ∧ TaskTurn c i t c' := by
  have hend : ∀ {t reason}, t.state = .reading → TaskTurn c i t (c.endReader i t reason) := by
    intro t reason hst
    unfold Conn.endReader
    split
    · next hf => exact .readEndCancelled hst hf
    · next hf => exact .readEnd hst (Bool.eq_false_iff.mpr hf)
  unfold Conn.stepTask at hs
  split at hs
  · cases hs
  next t ht =>
  refine ⟨t, ht, ?_⟩
  split at hs
  · next r hst =>
    split at hs
    · next hf => cases hs; exact .cancelled (.inl ⟨r, hst⟩) hf
    · next hf => cases hs; exact .dial hst (Bool.eq_false_iff.mpr hf)
  · next hst => cases hs; exact .connected hst
  · next hst => cases hs; exact .connected hst
  · next hst =>
    cases hs
    split
    · next hf => exact .cancelled (.inr hst) hf
    · next hf => exact .startRead hst (Bool.eq_false_iff.mpr hf)
  · next hst =>
    split at hs
    · cases hs
      split
      · next hf => exact .readCancelled hst hf rfl
      · next hf => exact .read hst (Bool.eq_false_iff.mpr hf) rfl
    · cases hs
  · next hst =>
    split at hs
    · cases hs; exact hend hst
    · cases hs
  · next hst => cases hs; exact hend hst
  · next m hst =>
    split at hs
    · next hg => cases hs; exact .gone (.inl ⟨m, hst⟩) (by simpa [Conn.gone] using hg)
    next hg =>
    split at hs
    · next hsend => cases hs; exact .sendData hst (by simpa [Conn.gone] using hg) hsend
    · cases hs
  · next p hst =>
    split at hs
    · next hg => cases hs; exact .gone (.inr ⟨p, hst⟩) (by simpa [Conn.gone] using hg)
    next hg =>
    split at hs
    · next hsend => cases hs; exact .sendControl hst (by simpa [Conn.gone] using hg) hsend
    · cases hs
  · cases hs

end ShrimpWisp
