import ShrimpWisp.Server.Loop
import ShrimpWisp.Proofs.Codec

/-!
# The deferred frame

The first message of a v2 client that is no INFO is handled by `process_inbound_frame`, before the
main loop. The main loop handles its frames by `handle_inbound!`. The two dispatchers are compared
at every message: what follows a handled frame depends on the `Site`, the handling itself does not.

* `FrameOutcome`: the handling of a frame without its site. It is done, or it waits for the resolver
  or for a slot in the control channel.
* `Uniform`: a handler that does the same at every site. `FrameOutcome.step` goes on with a wait, in
  any interleaving with the tasks and the client.
* `deferred_as_first`: the deferred frame is handled as the first frame of the main loop. A message
  over `max_frame_size` is ignored there, while the reader of the main loop refuses it.
-/

namespace ShrimpWisp

variable {S : Setup}

/-! ## Outcomes -/

/-- What the handling of a frame awaits. -/
inductive FrameWait where
  | tcp (streamId : StreamId) (connect : ConnectPayload) (cancel : CancelFlag)
      (known : Option Resolved)
  | udp (streamId : StreamId) (connect : ConnectPayload) (known : Option Resolved)
  | sending (p : Posted)

def FrameWait.pc (site : Site) : FrameWait → Pc
  | tcp streamId connect cancel known => .resolvingTcp site streamId connect cancel known
  | udp streamId connect known => .resolvingUdp site streamId connect known
  | sending p => .sending site p

/-- A frame that is handled, or whose handling waits. Neither ends the connection. -/
inductive FrameOutcome where
  | done (c : Conn)
  | wait (c : Conn) (w : FrameWait)

namespace FrameOutcome

/-- The connection, apart from what its site does next. -/
def conn : FrameOutcome → Conn
  | done c => c
  | wait c _ => c

/-- The connection at a site. -/
def atSite (S : Setup) (site : Site) : FrameOutcome → Conn
  | done c => c.finish S site
  | wait c w => { c with pc := w.pc site }

end FrameOutcome

/-- The handler `f` has the same outcome at every site, with the CONTINUEs `queue` queued. -/
def Uniform (S : Setup) (queue : List (StreamId × UInt32)) (f : Site → Conn) : Prop :=
  ∃ o : FrameOutcome, (∀ site, f site = o.atSite S site) ∧ o.conn.pendingContinues = queue

namespace Conn

theorem uniform_finish (c : Conn) : Uniform S c.pendingContinues fun site => c.finish S site :=
  ⟨.done c, fun _ => rfl, rfl⟩

theorem uniform_refuse (c : Conn) (streamId : StreamId) (reason : CloseReason) :
    Uniform S c.pendingContinues fun site => c.refuse S site streamId reason :=
  uniform_finish (c.write (.close streamId reason none))

theorem removeStream_pendingContinues (c : Conn) (s : StreamId) :
    (c.removeStream s).pendingContinues = c.pendingContinues := by
  unfold removeStream StreamTable.remove
  cases c.table.get? s with
  | none => rfl
  | some x => cases x <;> rfl

theorem uniform_close (c : Conn) (s : StreamId) :
    Uniform S c.pendingContinues fun site => (c.removeStream s).finish S site := by
  rw [← removeStream_pendingContinues c s]
  exact uniform_finish (c.removeStream s)

theorem uniform_handleData (c : Conn) (streamId : StreamId) (payload : List UInt8) (e : Env) :
    Uniform S (c.handleDataZerocopy S streamId payload e).2.pendingContinues
      fun site => c.handleData S site streamId payload e := by
  unfold handleData
  rcases c.handleDataZerocopy S streamId payload e with ⟨_ | dead, d⟩
  · exact uniform_finish d
  · exact uniform_finish (d.write _)

theorem uniform_handleTcpConnect (c : Conn) (streamId : StreamId) (connect : ConnectPayload) :
    Uniform S c.pendingContinues fun site => c.handleTcpConnect S site streamId connect := by
  unfold handleTcpConnect
  rcases c.flags.new c.accepted.length with ⟨cancel, flags⟩
  dsimp only
  rcases c.table.insert streamId (.connecting (.new cancel)) with ⟨_ | _, table⟩
  · exact uniform_refuse { c with table, flags } streamId .throttled
  · exact ⟨.wait ({ c with table, flags }.accept streamId connect)
      (.tcp streamId connect cancel (resolveNow c.dns c.now connect.hostname connect.port)),
      fun _ => rfl, rfl⟩

theorem uniform_handleUdpConnect (c : Conn) (streamId : StreamId) (connect : ConnectPayload)
    (e : Env) :
    Uniform S c.pendingContinues fun site => c.handleUdpConnect S site streamId connect e := by
  unfold handleUdpConnect
  split
  · exact ⟨.wait c (.udp streamId connect
      (resolveNow c.dns c.now connect.hostname connect.port)), fun _ => rfl, rfl⟩
  · exact uniform_refuse c streamId .networkError

theorem uniform_handleConnect (c : Conn) (streamId : StreamId) (connect : ConnectPayload)
    (e : Env) :
    Uniform S c.pendingContinues fun site => c.handleConnect S site streamId connect e := by
  unfold handleConnect
  split
  · exact uniform_refuse c streamId .invalidInfo
  split
  · exact uniform_refuse c streamId .invalidInfo
  split
  · exact uniform_refuse c streamId .blocked
  split
  · exact uniform_refuse c streamId .blocked
  split
  · exact uniform_refuse c streamId .blocked
  cases connect.streamType with
  | tcp => exact uniform_handleTcpConnect c streamId connect
  | udp => exact uniform_handleUdpConnect c streamId connect e

theorem uniform_tcpResolved (c : Conn) (streamId : StreamId) (connect : ConnectPayload)
    (cancel : CancelFlag) (resolved : Option Resolved) :
    Uniform S c.pendingContinues
      fun site => c.tcpResolved S site streamId connect cancel resolved := by
  have hfail : ∀ reason, Uniform S c.pendingContinues fun site =>
      { c with pc := .sending site ⟨.tcpConnectFailed streamId reason, cancel⟩ } :=
    fun reason => ⟨.wait c (.sending ⟨.tcpConnectFailed streamId reason, cancel⟩),
      fun _ => rfl, rfl⟩
  unfold tcpResolved
  cases resolved with
  | none => exact hfail .unreachable
  | some r =>
    dsimp only
    split
    · exact hfail .blocked
    split
    · exact hfail .blocked
    · exact uniform_finish (c.spawn _)

theorem uniform_udpResolved (c : Conn) (streamId : StreamId) (connect : ConnectPayload)
    (resolved : Option Resolved) :
    Uniform S c.pendingContinues fun site => c.udpResolved S site streamId connect resolved := by
  unfold udpResolved
  cases resolved with
  | none => exact uniform_refuse c streamId .unreachable
  | some r =>
    dsimp only
    split
    · exact uniform_refuse c streamId .blocked
    · rcases c.flags.new c.accepted.length with ⟨cancel, flags⟩
      dsimp only
      rcases c.table.insert streamId _ with ⟨_ | _, table⟩
      · exact uniform_refuse { c with table, flags } streamId .throttled
      · exact uniform_finish (spawn _ _)

end Conn

/-! ## The two dispatchers -/

/-- A message of the client in a Binary frame. -/
def messageFrame (fin : Bool) (m : List UInt8) : WsFrame := ⟨fin, .binary, m⟩

/-- The message closes the connection: CLOSE of stream 0. -/
def ClosesConnection (m : List UInt8) : Prop :=
  ∃ rest, m = packetClose :: toLe32 streamIdControl ++ rest

/-- The CONTINUEs that are queued after the message: only DATA queues one. -/
def queueAfter (S : Setup) (c : Conn) (e : Env) : List UInt8 → List (StreamId × UInt32)
  | t :: b0 :: b1 :: b2 :: b3 :: rest =>
    if t = packetData then
      (c.handleDataZerocopy S (le32 b0 b1 b2 b3) rest e).2.pendingContinues
    else c.pendingContinues
  | _ => c.pendingContinues

/-- Both readers of the main loop, on a Binary frame. -/
theorem read_messageFrame (limit : Nat) (fin : Bool) (m : List UInt8) :
    readWispFrame limit (.frame (messageFrame fin m)) =
        tryReadWispFrame limit (.frame (messageFrame fin m)) ∧
      tryReadWispFrame limit (.frame (messageFrame fin m)) =
        if limit < m.length then none else some (.ofFrame (messageFrame fin m)) := by
  unfold readWispFrame tryReadWispFrame readFrameInner checkFrame messageFrame
  simp only [OpCode.isControl, Bool.false_and, Bool.false_eq_true, if_false]
  by_cases h : limit < m.length
  · simp [h]
  · simp [h]

/-- A message that is too short for a header, and one with a header. -/
theorem message_cases (m : List UInt8) :
    (∀ fin, WispFrameResult.ofFrame (messageFrame fin m) = .wisp 0 0 m) ∧
        (∀ t b0 b1 b2 b3 rest, m ≠ t :: b0 :: b1 :: b2 :: b3 :: rest) ∨
      ∃ t b0 b1 b2 b3 rest, m = t :: b0 :: b1 :: b2 :: b3 :: rest ∧
        ∀ fin, WispFrameResult.ofFrame (messageFrame fin m) = .wisp t (le32 b0 b1 b2 b3) rest := by
  rcases m with _ | ⟨t, _ | ⟨b0, _ | ⟨b1, _ | ⟨b2, _ | ⟨b3, rest⟩⟩⟩⟩⟩
  iterate 5 exact .inl ⟨fun _ => rfl, nofun⟩
  exact .inr ⟨t, b0, b1, b2, b3, rest, rfl, fun _ => rfl⟩

theorem handleInbound_uniform (c : Conn) (e : Env) (fin : Bool) {m : List UInt8}
    (hclose : ¬ ClosesConnection m) :
    Uniform S (queueAfter S c e m) fun site =>
      c.handleInbound S site e (some (.ofFrame (messageFrame fin m))) := by
  rcases message_cases m with ⟨hshort, hno⟩ | ⟨t, b0, b1, b2, b3, rest, rfl, hread⟩
  · have hq : queueAfter S c e m = c.pendingContinues := by
      unfold queueAfter
      split
      · next t b0 b1 b2 b3 rest => exact absurd rfl (hno t b0 b1 b2 b3 rest)
      · rfl
    simp only [hshort, Conn.handleInbound, hq]
    exact c.uniform_finish
  · simp only [hread, Conn.handleInbound, queueAfter]
    split
    · exact c.uniform_handleData (le32 b0 b1 b2 b3) rest e
    split
    · cases parseConnectPayload rest with
      | some connect => exact c.uniform_handleConnect (le32 b0 b1 b2 b3) connect e
      | none => exact c.uniform_refuse (le32 b0 b1 b2 b3) .invalidInfo
    split
    · next ht =>
      split
      · next hid =>
        refine absurd ⟨rest, ?_⟩ hclose
        rw [ht, ← hid, toLe32_le32]
        rfl
      · exact c.uniform_close (le32 b0 b1 b2 b3)
    · exact c.uniform_finish

/-- The dispatcher of the deferred frame, on a message of an allowed size, is that of the main
loop. -/
theorem processInboundFrame_eq (c : Conn) (e : Env) (fin : Bool) {m : List UInt8}
    (hsize : ¬ (0 < S.config.maxFrameSize ∧ S.config.maxFrameSize < m.length))
    (hclose : ¬ ClosesConnection m) :
    c.processInboundFrame S e m =
      c.handleInbound S .deferred e (some (.ofFrame (messageFrame fin m))) := by
  unfold Conn.processInboundFrame
  rw [if_neg hsize]
  rcases message_cases m with ⟨hshort, hno⟩ | ⟨t, b0, b1, b2, b3, rest, rfl, hread⟩
  · rw [hshort]
    split
    · next t b0 b1 b2 b3 rest => exact absurd rfl (hno t b0 b1 b2 b3 rest)
    · rfl
  · rw [hread, Conn.handleInbound]
    dsimp only
    by_cases hdata : t = packetData
    · rw [if_pos hdata, if_pos hdata]
    rw [if_neg hdata, if_neg hdata]
    by_cases hconnect : t = packetConnect
    · rw [if_pos hconnect, if_pos hconnect]
      have hparse : parseWispFrame (t :: b0 :: b1 :: b2 :: b3 :: rest) =
          (parseConnectPayload rest).map (.connect (le32 b0 b1 b2 b3)) := by
        rw [parseWispFrame, if_neg hdata, if_pos hconnect, parseConnect_eq]
      rw [hparse]
      cases parseConnectPayload rest <;> rfl
    rw [if_neg hconnect, if_neg hconnect]
    by_cases ht : t = packetClose
    · rw [if_pos ht, if_pos ht]
      by_cases hid : le32 b0 b1 b2 b3 = streamIdControl
      · refine absurd ⟨rest, ?_⟩ hclose
        rw [ht, ← hid, toLe32_le32]
        rfl
      · rw [if_neg hid, if_neg hid]
    · rw [if_neg ht, if_neg ht]

/-! ## Waits -/

/-- The main task waits in the handling of a frame. -/
def Pc.handling : Pc → Bool
  | .resolvingTcp .. | .resolvingUdp .. | .sending .. => true
  | _ => false

/-- A step that is taken while the main task handles a frame. -/
def Handling (c : Conn) (_ : Act) (_ : Conn) : Prop := c.pc.handling = true

instance (c : Conn) (a : Act) (c' : Conn) : Decidable (Handling c a c') :=
  inferInstanceAs (Decidable (_ = _))

theorem FrameWait.handling_pc (w : FrameWait) (site : Site) : (w.pc site).handling = true := by
  cases w <;> rfl

theorem Conn.handling_finish (c : Conn) (site : Site) :
    (c.finish S site).pc.handling = false := by
  cases site with
  | deferred =>
    simp only [Conn.finish, Conn.flushThen]
    split <;> rfl
  | inner =>
    simp only [Conn.finish, Conn.flushThen, Conn.phase0Head]
    split
    · dsimp only
      split <;> rfl
    · rfl
  | select =>
    simp only [Conn.finish, Conn.flushThen]
    split <;> rfl

theorem gone_eq_false {c : Conn} {pc : Pc} (hpc : pc ≠ .ended) :
    ({ c with pc } : Conn).gone = false := by
  simpa [Conn.gone] using hpc

/-- A spawned task sees of the main task only whether it has ended. -/
theorem stepTask_setPc (c : Conn) {pc : Pc} (hpc : pc ≠ .ended) (i : Nat) (x : TaskInput) :
    ({ c with pc } : Conn).stepTask i x =
      (({ c with pc := .inner } : Conn).stepTask i x).map fun d => { d with pc } := by
  unfold Conn.stepTask
  rw [gone_eq_false hpc, gone_eq_false (by exact nofun)]
  dsimp only
  cases c.tasks[i]? with
  | none => rfl
  | some t =>
    dsimp only
    split
    · split <;> rfl
    · rfl
    · rfl
    · rfl
    · split <;> rfl
    · split
      · unfold Conn.endReader
        dsimp only
        split <;> rfl
      · rfl
    · unfold Conn.endReader
      dsimp only
      split <;> rfl
    · simp only [Bool.false_eq_true, if_false]
      split <;> rfl
    · simp only [Bool.false_eq_true, if_false]
      split <;> rfl
    · rfl

/-- An action of the rest of the world, while the main task has not ended. -/
theorem step_setPc {a : Act} (ha : ∀ e, a ≠ .main e) (c : Conn) {pc : Pc} (hpc : pc ≠ .ended) :
    step S { c with pc } a = (step S { c with pc := .inner } a).map fun d => { d with pc } := by
  cases a with
  | main e => exact absurd rfl (ha e)
  | task i x => exact stepTask_setPc c hpc i x
  | client i => rfl
  | clientReads =>
    simp only [step]
    split <;> rfl
  | clientDown => rfl
  | otherResolve hostname port answer =>
    simp only [step]
    split
    · rfl
    · split <;> rfl
  | tick d => rfl
  | writable sock => rfl

theorem step_pendingContinues {a : Act} (ha : ∀ e, a ≠ .main e) {c c' : Conn}
    (hs : step S c a = some c') : c'.pendingContinues = c.pendingContinues := by
  cases a with
  | main e => exact absurd rfl (ha e)
  | task i x =>
    obtain ⟨tasks, control, data, reads, dialed, rfl⟩ := Conn.stepTask_changes hs
    rfl
  | clientReads =>
    simp only [step] at hs
    split at hs <;> cases hs
    rfl
  | otherResolve hostname port answer =>
    simp only [step] at hs
    split at hs
    · cases hs
    · split at hs <;> cases hs
      rfl
  | _ => cases hs; rfl

namespace Conn

/-! What follows a wait does not read the program counter. -/

theorem finish_setPc (c : Conn) (pc : Pc) (site : Site) :
    ({ c with pc } : Conn).finish S site = c.finish S site := by
  cases site <;> rfl

theorem tcpResolved_setPc (c : Conn) (pc : Pc) (site : Site) (streamId : StreamId)
    (connect : ConnectPayload) (cancel : CancelFlag) (resolved : Option Resolved) :
    ({ c with pc } : Conn).tcpResolved S site streamId connect cancel resolved =
      c.tcpResolved S site streamId connect cancel resolved := by
  unfold tcpResolved
  cases resolved with
  | none => rfl
  | some r =>
    dsimp only
    rw [← finish_setPc (c.spawn _) pc]
    rfl

theorem udpResolved_setPc (c : Conn) (pc : Pc) (site : Site) (streamId : StreamId)
    (connect : ConnectPayload) (resolved : Option Resolved) :
    ({ c with pc } : Conn).udpResolved S site streamId connect resolved =
      c.udpResolved S site streamId connect resolved := by
  have hrefuse : ∀ (d : Conn) reason,
      ({ d with pc } : Conn).refuse S site streamId reason = d.refuse S site streamId reason :=
    fun d reason => finish_setPc (d.write (.close streamId reason none)) pc site
  unfold udpResolved
  cases resolved with
  | none => exact hrefuse c .unreachable
  | some r =>
    dsimp only
    split
    · exact hrefuse c .blocked
    · rcases c.flags.new c.accepted.length with ⟨cancel, flags⟩
      dsimp only
      rcases c.table.insert streamId _ with ⟨_ | _, table⟩
      · exact hrefuse { c with table, flags } .throttled
      · let d : Conn := { { c with table, flags }.accept streamId connect with
          bound := ⟨c.accepted.length, r⟩ :: c.bound }
        exact finish_setPc (d.spawn ⟨streamId, cancel, c.accepted.length, .udp, .top⟩) pc site

end Conn

namespace FrameOutcome

/-- A handler that is the next step of the main task at every site. -/
theorem step_of_uniform {c : Conn} {w : FrameWait} {e : Env} {f : Site → Conn}
    (hf : Uniform S c.pendingContinues f)
    (hs : ∀ site, ({ c with pc := w.pc site } : Conn).stepMain S e = some (f site)) :
    ∃ o : FrameOutcome, o.conn.pendingContinues = c.pendingContinues ∧
      ∀ site, ShrimpWisp.step S ((wait c w).atSite S site) (.main e) = some (o.atSite S site) := by
  obtain ⟨o, ho, hq⟩ := hf
  exact ⟨o, hq, fun site => (hs site).trans (congrArg some (ho site))⟩

theorem step_tcp (c : Conn) (streamId : StreamId) (connect : ConnectPayload) (cancel : CancelFlag)
    (known : Option Resolved) (e : Env) :
    ∃ o : FrameOutcome, o.conn.pendingContinues = c.pendingContinues ∧
      ∀ site, ShrimpWisp.step S ((wait c (.tcp streamId connect cancel known)).atSite S site)
        (.main e) = some (o.atSite S site) := by
  cases known with
  | some r =>
    refine step_of_uniform (c.uniform_tcpResolved streamId connect cancel (some r)) fun site => ?_
    exact congrArg some (c.tcpResolved_setPc _ site streamId connect cancel (some r))
  | none =>
    cases hr : resolveLookup c.dns c.now connect.hostname connect.port e.answer with
    | error err =>
      refine step_of_uniform (c.uniform_tcpResolved streamId connect cancel none) fun site => ?_
      simp only [Conn.stepMain, FrameWait.pc, hr]
      exact congrArg some (c.tcpResolved_setPc _ site streamId connect cancel none)
    | ok p =>
      obtain ⟨r, dns⟩ := p
      have hu := Conn.uniform_tcpResolved (S := S) { c with dns } streamId connect cancel (some r)
      refine step_of_uniform hu fun site => ?_
      simp only [Conn.stepMain, FrameWait.pc, hr]
      exact congrArg some
        (Conn.tcpResolved_setPc { c with dns } _ site streamId connect cancel (some r))

theorem step_udp (c : Conn) (streamId : StreamId) (connect : ConnectPayload)
    (known : Option Resolved) (e : Env) :
    ∃ o : FrameOutcome, o.conn.pendingContinues = c.pendingContinues ∧
      ∀ site, ShrimpWisp.step S ((wait c (.udp streamId connect known)).atSite S site)
        (.main e) = some (o.atSite S site) := by
  cases known with
  | some r =>
    refine step_of_uniform (c.uniform_udpResolved streamId connect (some r)) fun site => ?_
    exact congrArg some (c.udpResolved_setPc _ site streamId connect (some r))
  | none =>
    cases hr : resolveLookup c.dns c.now connect.hostname connect.port e.answer with
    | error err =>
      refine step_of_uniform (c.uniform_udpResolved streamId connect none) fun site => ?_
      simp only [Conn.stepMain, FrameWait.pc, hr]
      exact congrArg some (c.udpResolved_setPc _ site streamId connect none)
    | ok p =>
      obtain ⟨r, dns⟩ := p
      have hu := Conn.uniform_udpResolved (S := S) { c with dns } streamId connect (some r)
      refine step_of_uniform hu fun site => ?_
      simp only [Conn.stepMain, FrameWait.pc, hr]
      exact congrArg some (Conn.udpResolved_setPc { c with dns } _ site streamId connect (some r))

/-- A wait goes on in the same way at every site. -/
theorem step (c : Conn) (w : FrameWait) (a : Act) :
    (∀ site, ShrimpWisp.step S ((wait c w).atSite S site) a = none) ∨
      ∃ o : FrameOutcome, o.conn.pendingContinues = c.pendingContinues ∧
        ∀ site, ShrimpWisp.step S ((wait c w).atSite S site) a = some (o.atSite S site) := by
  by_cases ha : ∃ e, a = .main e
  · obtain ⟨e, rfl⟩ := ha
    cases w with
    | tcp streamId connect cancel known =>
      exact .inr (step_tcp c streamId connect cancel known e)
    | udp streamId connect known => exact .inr (step_udp c streamId connect known e)
    | sending p =>
      cases hsend : c.control.trySend p with
      | none =>
        left
        intro site
        simp only [ShrimpWisp.step, atSite, FrameWait.pc, Conn.stepMain, hsend]
      | some control =>
        right
        refine step_of_uniform (Conn.uniform_finish { c with control }) fun site => ?_
        simp only [FrameWait.pc, Conn.stepMain, hsend]
        exact congrArg some (Conn.finish_setPc { c with control } _ site)
  · have hne : ∀ e, a ≠ .main e := fun e he => ha ⟨e, he⟩
    have hpc : ∀ site, w.pc site ≠ .ended := by
      intro site
      cases w <;> rintro ⟨⟩
    cases hs : ShrimpWisp.step S { c with pc := .inner } a with
    | none =>
      left
      intro site
      rw [atSite, step_setPc hne c (hpc site), hs]
      rfl
    | some d =>
      have hq := step_pendingContinues hne hs
      refine .inr ⟨.wait d w, hq, fun site => ?_⟩
      rw [atSite, step_setPc hne c (hpc site), hs]
      rfl

/-- A run while the frame is handled goes on in the same way at every site. -/
theorem run (o : FrameOutcome) (as : List Act) {s₁ : Site} {d : Conn}
    (h : (sys S).run Handling (o.atSite S s₁) as = some d) :
    ∃ o' : FrameOutcome, o'.conn.pendingContinues = o.conn.pendingContinues ∧
      d = o'.atSite S s₁ ∧ ∀ s₂, (sys S).run Handling (o.atSite S s₂) as = some (o'.atSite S s₂) := by
  induction as generalizing o with
  | nil =>
    cases h
    exact ⟨o, rfl, rfl, fun _ => rfl⟩
  | cons a as ih =>
    rw [Sys.run] at h
    split at h
    · next s' hs =>
      split at h
      · next hok =>
        cases o with
        | done c =>
          -- The frame is handled, so the step is not one of its handling.
          rw [Handling, atSite, Conn.handling_finish] at hok
          cases hok
        | wait c w =>
          rcases step (S := S) c w a with hnone | ⟨o, hq, ho⟩
          · exact absurd (hs.symm.trans (hnone s₁)) (by simp)
          · obtain rfl : s' = o.atSite S s₁ := Option.some.inj (hs.symm.trans (ho s₁))
            obtain ⟨o', hq', hd, hrun⟩ := ih o h
            refine ⟨o', hq'.trans hq, hd, fun s₂ => ?_⟩
            have hs₂ : (sys S).step ((wait c w).atSite S s₂) a = some (o.atSite S s₂) := ho s₂
            have hok₂ : Handling ((wait c w).atSite S s₂) a (o.atSite S s₂) := w.handling_pc s₂
            rw [Sys.run, hs₂]
            simp only [hok₂, if_true]
            exact hrun s₂
      · cases h
    · cases h

end FrameOutcome

/-! ## The effect of a frame -/

/-- The CONTINUEs that are queued, as frames. -/
def Conn.queued (c : Conn) : List ClientFrame := c.pendingContinues.map fun p => .continue p.1 p.2

/-- The same streams, flags, tasks and events, and the same frames for the client: those written and
the CONTINUEs still queued. Both handle the frame yet, or both are done with it. -/
structure SameEffect (c d : Conn) : Prop where
  table : c.table = d.table
  flags : c.flags = d.flags
  tracked : c.streamsWithPending = d.streamsWithPending
  tasks : c.tasks = d.tasks
  control : c.control = d.control
  clientUp : c.clientUp = d.clientUp
  frames : c.clientUp = true → c.out ++ c.queued = d.out ++ d.queued
  written : c.clientUp = false → c.out = d.out
  handling : c.pc.handling = d.pc.handling

theorem SameEffect.symm {c d : Conn} (h : SameEffect c d) : SameEffect d c where
  table := h.table.symm
  flags := h.flags.symm
  tracked := h.tracked.symm
  tasks := h.tasks.symm
  control := h.control.symm
  clientUp := h.clientUp.symm
  frames hu := (h.frames (h.clientUp.trans hu)).symm
  written hd := (h.written (h.clientUp.trans hd)).symm
  handling := h.handling.symm

theorem SameEffect.trans {c d b : Conn} (h : SameEffect c d) (h' : SameEffect d b) :
    SameEffect c b where
  table := h.table.trans h'.table
  flags := h.flags.trans h'.flags
  tracked := h.tracked.trans h'.tracked
  tasks := h.tasks.trans h'.tasks
  control := h.control.trans h'.control
  clientUp := h.clientUp.trans h'.clientUp
  frames hu := (h.frames hu).trans (h'.frames (h.clientUp.symm.trans hu))
  written hd := (h.written hd).trans (h'.written (h.clientUp.symm.trans hd))
  handling := h.handling.trans h'.handling

namespace Conn

theorem flushThen_effect (c : Conn) {next : Pc} (hn : next.handling = false) :
    SameEffect (c.flushThen next) { c with pc := .inner } := by
  refine ⟨rfl, rfl, rfl, rfl, rfl, rfl, fun hu => ?_, fun hd => ?_, ?_⟩
  · have hu : c.clientUp = true := hu
    simp [flushThen, writeAll, queued, hu]
  · have hd : c.clientUp = false := hd
    simp [flushThen, writeAll, hd]
  · simp only [flushThen]
    split
    · exact hn
    · rfl

/-- The counters of the loop are no part of the effect. -/
theorem counters_effect (c : Conn) (framesSinceYield idleAt pingAt : Nat) :
    SameEffect { c with framesSinceYield, idleAt, pingAt, pc := .inner } { c with pc := .inner } :=
  ⟨rfl, rfl, rfl, rfl, rfl, rfl, fun _ => rfl, fun _ => rfl, rfl⟩

/-- The site of a handled frame changes nothing of its effect. -/
theorem finish_effect (c : Conn) (site : Site) :
    SameEffect (c.finish S site) { c with pc := .inner } := by
  cases site with
  | deferred =>
    simp only [finish]
    exact (flushThen_effect _ rfl).trans (c.counters_effect _ _ _)
  | inner =>
    simp only [finish]
    split
    · exact (flushThen_effect _ rfl).trans (c.counters_effect _ _ _)
    · exact c.counters_effect _ _ _
  | select =>
    simp only [finish]
    exact (flushThen_effect _ rfl).trans (c.counters_effect _ _ _)

theorem finish_goesOn {c : Conn} (hq : c.pendingContinues = []) (site : Site) :
    (c.finish S site).pc ≠ .ended := by
  cases site with
  | deferred => simp [finish, flushThen, hq]
  | inner =>
    simp only [finish]
    split
    · simp [flushThen, hq, phase0Head]
    · simp
  | select => simp [finish, flushThen, hq]

end Conn

namespace FrameOutcome

theorem atSite_effect (o : FrameOutcome) (s₁ s₂ : Site) :
    SameEffect (o.atSite S s₁) (o.atSite S s₂) := by
  cases o with
  | done c => exact (c.finish_effect s₁).trans (c.finish_effect s₂).symm
  | wait c w =>
    refine ⟨rfl, rfl, rfl, rfl, rfl, rfl, fun _ => rfl, fun _ => rfl, ?_⟩
    exact (w.handling_pc s₁).trans (w.handling_pc s₂).symm

theorem atSite_goesOn {o : FrameOutcome} (hq : o.conn.pendingContinues = []) (site : Site) :
    (o.atSite S site).pc ≠ .ended := by
  cases o with
  | done c => exact Conn.finish_goesOn hq site
  | wait c w => cases w <;> exact nofun

end FrameOutcome

theorem queueAfter_fresh {c : Conn} (hfresh : ∀ s, c.table.get? s = none) (e : Env)
    (m : List UInt8) : queueAfter S c e m = c.pendingContinues := by
  unfold queueAfter
  split
  · split
    · simp only [Conn.handleDataZerocopy, hfresh]
    · rfl
  · rfl

/-! ## The deferred frame in the main loop -/

/-- The limit of the reader leaves the message alone. -/
theorem read_allowed {m : List UInt8} (hm : m.length ≤ maxMessageSize)
    (hsize : ¬ (0 < S.config.maxFrameSize ∧ S.config.maxFrameSize < m.length)) (site : Site)
    (fin : Bool) :
    site.read S (.frame (messageFrame fin m)) = some (.ofFrame (messageFrame fin m)) := by
  have hlimit : ¬ S.frameLimit < m.length := by
    unfold Setup.frameLimit
    split <;> omega
  obtain ⟨hread, htry⟩ := read_messageFrame S.frameLimit fin m
  rw [if_neg hlimit] at htry
  cases site with
  | select => exact hread.trans htry
  | inner => exact htry
  | deferred => exact htry

/-- The reader refuses a message over `max_frame_size`. -/
theorem read_oversize {m : List UInt8} (h0 : 0 < S.config.maxFrameSize)
    (hlt : S.config.maxFrameSize < m.length) (site : Site) (fin : Bool) :
    site.read S (.frame (messageFrame fin m)) = none := by
  have hlimit : S.frameLimit < m.length := by
    unfold Setup.frameLimit
    rwa [if_pos h0]
  obtain ⟨hread, htry⟩ := read_messageFrame S.frameLimit fin m
  rw [if_pos hlimit] at htry
  cases site with
  | select => exact hread.trans htry
  | inner => exact htry
  | deferred => exact htry

/-- Two states after the same message, one from each dispatcher: every run in which the frame is
handled is one of both, with the same effect. On a connection without streams neither ends. -/
def Agree (S : Setup) (c d : Conn) (fresh : Prop) : Prop :=
  ∀ as c', (sys S).run Handling c as = some c' →
    ∃ d', (sys S).run Handling d as = some d' ∧ SameEffect c' d' ∧
      (fresh → c'.pc ≠ .ended ∧ d'.pc ≠ .ended)

theorem FrameOutcome.agree {o : FrameOutcome} {fresh : Prop}
    (hq : fresh → o.conn.pendingContinues = []) (s₁ s₂ : Site) :
    Agree S (o.atSite S s₁) (o.atSite S s₂) fresh := by
  intro as c' h
  obtain ⟨o', hq', rfl, hrun⟩ := o.run as h
  refine ⟨_, hrun s₂, o'.atSite_effect s₁ s₂, fun hf => ?_⟩
  have hnil := hq'.trans (hq hf)
  exact ⟨atSite_goesOn hnil s₁, atSite_goesOn hnil s₂⟩

/-- The deferred frame has the effect of the first frame of the main loop, for every message of an
allowed size but CLOSE of stream 0, in every interleaving with the rest of the world. A message over
`max_frame_size` is ignored as the deferred frame; in the main loop it ends the connection. -/
theorem deferred_as_first (S : Setup) (c : Conn) (e : Env) (site : Site) (fin : Bool)
    (m : List UInt8) (hm : m.length ≤ maxMessageSize) :
    (¬ (0 < S.config.maxFrameSize ∧ S.config.maxFrameSize < m.length) → ¬ ClosesConnection m →
      let fresh := (∀ s, c.table.get? s = none) ∧ c.pendingContinues = []
      let deferred := c.processInboundFrame S e m
      let first := c.handleInbound S site e (site.read S (.frame (messageFrame fin m)))
      Agree S deferred first fresh ∧ Agree S first deferred fresh) ∧
    (0 < S.config.maxFrameSize ∧ S.config.maxFrameSize < m.length → c.pendingContinues = [] →
      SameEffect (c.processInboundFrame S e m) { c with pc := .inner } ∧
      (c.processInboundFrame S e m).pc ≠ .ended ∧
      SameEffect (c.handleInbound S site e (site.read S (.frame (messageFrame fin m))))
        { c with pc := .ended } ∧
      (c.handleInbound S site e (site.read S (.frame (messageFrame fin m)))).pc = .ended) := by
  constructor
  · intro hsize hclose
    dsimp only
    obtain ⟨o, ho, hq⟩ := handleInbound_uniform (S := S) c e fin hclose
    have hqueue : (∀ s, c.table.get? s = none) ∧ c.pendingContinues = [] →
        o.conn.pendingContinues = [] := by
      rintro ⟨hfresh, hnil⟩
      rw [hq, queueAfter_fresh hfresh, hnil]
    simp only at ho
    rw [processInboundFrame_eq c e fin hsize hclose, read_allowed hm hsize, ho .deferred, ho site]
    exact ⟨FrameOutcome.agree hqueue _ _, FrameOutcome.agree hqueue _ _⟩
  · rintro ⟨h0, hlt⟩ hnil
    have hignored : c.processInboundFrame S e m = c.finish S .deferred := by
      unfold Conn.processInboundFrame
      rw [if_pos ⟨h0, hlt⟩]
    rw [hignored, read_oversize h0 hlt]
    refine ⟨c.finish_effect .deferred, Conn.finish_goesOn hnil _, ?_, ?_⟩
    · have hended : SameEffect { c with pc := .inner } { c with pc := .ended } :=
        ⟨rfl, rfl, rfl, rfl, rfl, rfl, fun _ => rfl, fun _ => rfl, rfl⟩
      cases site with
      | inner => exact (c.flushThen_effect rfl).trans hended
      | deferred => exact hended.symm.trans hended
      | select => exact hended.symm.trans hended
    · cases site <;> simp [Conn.handleInbound, Conn.breakLoop, Conn.flushThen]

/-- A CONNECT as the first message: both dispatchers insert the stream and wait for the resolver. -/
theorem deferred_as_first_connect :
    ∃ m, m.length ≤ maxMessageSize ∧
      Agree { config := {} }
        ((Conn.start { config := {} } (some m)).processInboundFrame { config := {} } {} m)
        ((Conn.start { config := {} } (some m)).handleInbound { config := {} } .inner {}
          (Site.read { config := {} } .inner (.frame (messageFrame true m))))
        ((∀ s, (Conn.start { config := {} } (some m)).table.get? s = none) ∧
          (Conn.start { config := {} } (some m)).pendingContinues = []) ∧
      ((Conn.start { config := {} } (some m)).processInboundFrame
        { config := {} } {} m).table.contains 1 = true := by
  refine ⟨packetConnect :: toLe32 1 ++ connectPayloadBytes ⟨.tcp, 80, lit "a.io"⟩,
    by decide +kernel, ?_, by decide +kernel⟩
  refine ((deferred_as_first { config := {} } _ {} .inner true _ (by decide +kernel)).1 ?_ ?_).1
  · decide +kernel
  · rintro ⟨rest, hr⟩
    exact absurd (List.cons.inj hr).1 (by decide)

/-- A DATA packet of one byte over `max_frame_size`: ignored as the deferred frame, while the main
loop ends the connection. -/
theorem deferred_oversize :
    let S : Setup := { config := { maxFrameSize := 10 } }
    let m : List UInt8 := packetData :: toLe32 1 ++ [1, 2, 3, 4, 5, 6]
    ((Conn.start S (some m)).processInboundFrame S {} m).pc = .inner ∧
      ((Conn.start S (some m)).handleInbound S .inner {}
        (Site.read S .inner (.frame (messageFrame true m)))).pc = .ended ∧
      ((Conn.start S (some m)).handleInbound S .select {}
        (Site.read S .select (.frame (messageFrame true m)))).pc = .ended := by
  decide +kernel

end ShrimpWisp
