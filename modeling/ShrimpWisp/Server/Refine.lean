import ShrimpWisp.Server.Core

/-!
# The connection refines the abstract machine

`step_core`: a step of the connection is an `Effect` on its machine state, followed by plain frames
for the client (`CoreStep`). `Reach.core` is the invariant rule that follows: a property of machine
states that holds initially and that every `CoreStep` keeps holds in every reachable state of the
connection. A condition on the steps of a run carries over as a relation on machine states.
-/

namespace ShrimpWisp

variable {S : Setup}

/-- Frames that no task asked for. -/
def Plain (fs : List ClientFrame) : Prop := ∀ f ∈ fs, f.plain = true

theorem plain_nil : Plain [] := by simp [Plain]

theorem Plain.cons {f : ClientFrame} {fs : List ClientFrame} (hf : f.plain = true)
    (hfs : Plain fs) : Plain (f :: fs) := by
  intro g hg
  rcases List.mem_cons.mp hg with rfl | hg
  · exact hf
  · exact hfs g hg

/-- An effect, then plain frames. -/
def CoreStep (S : Setup) (c c' : Core) : Prop :=
  ∃ d fs, Effect S c d ∧ Plain fs ∧ c' = d.emit fs

theorem Core.emit_nil (c : Core) : c.emit [] = c := by
  simp [Core.emit]

theorem Core.emit_emit (c : Core) (fs gs : List ClientFrame) :
    (c.emit fs).emit gs = c.emit (fs ++ gs) := by
  cases h : c.up <;> simp [Core.emit, h]

theorem Effect.coreStep {c d : Core} (h : Effect S c d) : CoreStep S c d :=
  ⟨d, [], h, plain_nil, (Core.emit_nil d).symm⟩

namespace Conn

/-! ## The parts of a step -/

/-- The main task works on no CONNECT. -/
def idleCore (c : Conn) : Core := { c.core with attempt := .idle }

theorem idleCore_eq {c : Conn} (h : c.pc.attempt = .idle) : c.idleCore = c.core := by
  unfold idleCore core; rw [h]

theorem core_flushThen (c : Conn) {q : Pc} (h : q.attempt = .idle) :
    (c.flushThen q).core =
      c.idleCore.emit (c.pendingContinues.map fun p => .continue p.1 p.2) := by
  have hn : (if c.pendingContinues.isEmpty || c.clientUp then q else .ended).attempt = .idle := by
    split
    · exact h
    · rfl
  simp only [flushThen, core, writeAll, hn, idleCore, Core.emit]
  rfl

theorem plain_continues (l : List (StreamId × UInt32)) :
    Plain (l.map fun p => ClientFrame.continue p.1 p.2) := by
  intro f hf
  obtain ⟨p, -, rfl⟩ := List.mem_map.mp hf
  rfl

theorem core_flushThen_plain {c : Conn} {d : Core} (hd : c.idleCore = d) {q : Pc}
    (h : q.attempt = .idle) : ∃ fs, Plain fs ∧ (c.flushThen q).core = d.emit fs :=
  ⟨_, plain_continues _, hd ▸ core_flushThen c h⟩

theorem core_finish (c : Conn) (site : Site) :
    ∃ fs, Plain fs ∧ (c.finish S site).core = c.idleCore.emit fs := by
  cases site with
  | deferred =>
    rw [finish]
    exact core_flushThen_plain (by simp only [idleCore, core]) rfl
  | inner =>
    rw [finish]
    split
    · exact core_flushThen_plain (by simp only [idleCore, core]) rfl
    · refine ⟨[], plain_nil, ?_⟩
      rw [Core.emit_nil]
      simp only [idleCore, core, Pc.attempt]
  | select =>
    rw [finish]
    exact core_flushThen_plain (by simp only [idleCore, core]) rfl

theorem core_breakLoop (c : Conn) (site : Site) :
    ∃ fs, Plain fs ∧ (c.breakLoop site).core = c.idleCore.emit fs := by
  cases site with
  | inner => exact core_flushThen_plain rfl rfl
  | deferred => exact ⟨[], plain_nil, (Core.emit_nil _).symm⟩
  | select => exact ⟨[], plain_nil, (Core.emit_nil _).symm⟩

theorem step_finish {c₀ : Core} {c : Conn} (h : Effect S c₀ c.idleCore) (site : Site) :
    CoreStep S c₀ (c.finish S site).core := by
  obtain ⟨fs, hp, he⟩ := core_finish (S := S) c site
  exact ⟨_, fs, h, hp, he⟩

theorem step_write_finish {c₀ : Core} {c : Conn} (h : Effect S c₀ c.idleCore) {f : ClientFrame}
    (hf : f.plain = true) (site : Site) : CoreStep S c₀ ((c.write f).finish S site).core := by
  obtain ⟨fs, hp, he⟩ := core_finish (S := S) (c.write f) site
  refine ⟨_, f :: fs, h, hp.cons hf, ?_⟩
  rw [he]
  exact Core.emit_emit c.idleCore [f] fs

theorem step_breakLoop {c₀ : Core} {c : Conn} (h : Effect S c₀ c.idleCore) (site : Site) :
    CoreStep S c₀ (c.breakLoop site).core := by
  obtain ⟨fs, hp, he⟩ := core_breakLoop c site
  exact ⟨_, fs, h, hp, he⟩

theorem step_write_breakLoop {c₀ : Core} {c : Conn} (h : Effect S c₀ c.idleCore) {f : ClientFrame}
    (hf : f.plain = true) (site : Site) : CoreStep S c₀ ((c.write f).breakLoop site).core := by
  obtain ⟨fs, hp, he⟩ := core_breakLoop (c.write f) site
  refine ⟨_, f :: fs, h, hp.cons hf, ?_⟩
  rw [he]
  exact Core.emit_emit c.idleCore [f] fs

theorem core_removeStream (c : Conn) (s : StreamId) :
    (c.removeStream s).core = c.core.removeEntry s := by
  have hget := c.table.get?_remove c.flags s
  unfold removeStream Core.removeEntry
  cases hx : c.table.get? s with
  | none =>
    simp only [StreamTable.remove, hx] at hget ⊢
    have hentry : c.table.get? = fun s' => if s' = s then none else c.table.get? s' := funext hget
    simp only [retire, core, Core.put, hx]
    rw [← hentry]
  | some x =>
    simp only [StreamTable.remove, hx] at hget ⊢
    have hentry : (c.table.takeEntry s).get? = fun s' => if s' = s then none else c.table.get? s' :=
      funext hget
    cases x <;> simp [retire, core, Core.put, Core.writers, hentry, hx]

theorem removeStream_pc (c : Conn) (s : StreamId) : (c.removeStream s).pc = c.pc := by
  unfold removeStream StreamTable.remove
  cases c.table.get? s with
  | none => rfl
  | some x => cases x <;> rfl

/-- A removal, as an effect. -/
theorem effect_removeStream {c : Conn} (h : c.pc.attempt = .idle) (s : StreamId) :
    Effect S c.core (c.removeStream s).idleCore := by
  rw [idleCore_eq (by rw [removeStream_pc, h]), core_removeStream]
  exact .remove h

theorem entry_set {c : Conn} {s : StreamId} {y : ProxyStream Octet} (h : c.table.get? s = some y)
    (x : ProxyStream Octet) :
    (c.table.set s x).get? = fun s' => if s' = s then some x else c.table.get? s' :=
  funext fun s' => StreamTable.get?_set h s'

/-! ## Inbound packets -/

theorem tagged_tag (c : Conn) (s : StreamId) (payload : List UInt8) :
    ∀ o ∈ c.tagged s payload, o.tag = c.core.current s := by
  intro o ho
  obtain ⟨b, -, rfl⟩ := List.mem_map.mp ho
  rfl

theorem step_handleData {c : Conn} (h : c.pc.attempt = .idle) (site : Site) (s : StreamId)
    (payload : List UInt8) (e : Env) : CoreStep S c.core (c.handleData S site s payload e).core := by
  unfold handleData handleDataZerocopy
  cases hx : c.table.get? s with
  | none => exact step_finish (by rw [idleCore_eq h]; exact .nop) site
  | some x =>
    cases x with
    | udp u => exact step_finish (by rw [idleCore_eq h]; exact .nop) site
    | connecting cs =>
      simp only
      split
      · rename_i hl
        split at hl
        · cases hl
        · cases hl
      · rename_i c' hl
        split at hl
        · rename_i hlen
          cases hl
          refine step_finish ?_ site
          rw [idleCore_eq (by exact h)]
          have := Effect.early (S := S) (c := c.core) h hx hlen (c.tagged_tag s payload)
          simpa only [core, Core.put, entry_set hx] using this
        · rename_i hlen
          cases hl
          refine step_finish ?_ site
          rw [idleCore_eq (by exact h)]
          exact .earlyFull h hx (Nat.le_of_not_lt hlen) (c.tagged_tag s payload)
    | tcp tcp =>
      simp only
      rcases hw : tcpTryWrite tcp (c.tagged s payload) (e.write 0) (e.write 1) with ⟨dead, tcp'⟩
      cases dead with
      | true =>
        simp only [if_true]
        refine step_write_finish ?_ rfl site
        rw [idleCore_eq (by rw [removeStream_pc]; exact h), core_removeStream]
        simp only [Core.removeEntry, core, StreamTable.get?_set hx s, if_true]
        have := Effect.uploadDead (S := S) (c := c.core) h hx hw (c.tagged_tag s payload)
        simp only [core, Core.put, Core.remove, entry_set hx] at this ⊢
        convert this using 2
        funext s'
        split <;> rfl
      | false =>
        simp only [Bool.false_eq_true, if_false]
        refine step_finish ?_ site
        rw [idleCore_eq (by exact h)]
        have := Effect.upload (S := S) (c := c.core) h hx hw (c.tagged_tag s payload)
        simp only [core, Core.put, entry_set hx] at this ⊢
        exact this

theorem step_refuse {c₀ : Core} {c : Conn} (h : Effect S c₀ c.idleCore) (site : Site)
    (s : StreamId) (reason : CloseReason) : CoreStep S c₀ (c.refuse S site s reason).core :=
  step_write_finish h rfl site

theorem entry_insert {c : Conn} {s : StreamId} {x : ProxyStream Octet} {t : StreamTable Octet}
    (h : c.table.insert s x = (true, t)) :
    c.table.get? s = none ∧ t.get? = fun s' => if s' = s then some x else c.table.get? s' := by
  have hfst := c.table.insert_fst s x
  rw [h] at hfst
  have hc : c.table.contains s = false := by
    cases hk : c.table.contains s
    · rfl
    · rw [hk] at hfst; simp at hfst
  refine ⟨by simpa [StreamTable.contains] using hc, funext fun s' => ?_⟩
  have := StreamTable.get?_insert (t := c.table) (s := s) (x := x) (by rw [h]) s'
  rwa [h] at this

theorem entry_insert_false {c : Conn} {s : StreamId} {x : ProxyStream Octet} {t : StreamTable Octet}
    (h : c.table.insert s x = (false, t)) : t.get? = c.table.get? := by
  funext s'
  have := StreamTable.get?_insert_false (t := c.table) (s := s) (x := x) (by rw [h]) s'
  rwa [h] at this

theorem step_handleTcpConnect {c : Conn} (h : c.pc.attempt = .idle) (site : Site) {s : StreamId}
    {connect : ConnectPayload} (ha : Admitted S s connect) :
    CoreStep S c.core (c.handleTcpConnect S site s connect).core := by
  unfold handleTcpConnect
  simp only
  rcases hi : c.table.insert s (.connecting (.new (c.flags.new c.accepted.length).1)) with ⟨ok, t⟩
  cases ok with
  | false =>
    refine step_refuse ?_ site s _
    have := Effect.newFlag (S := S) (c := c.core) (k := c.accepted.length)
    simpa only [idleCore, core, entry_insert_false hi] using this
  | true =>
    obtain ⟨hn, ht⟩ := entry_insert hi
    refine Effect.coreStep ?_
    have := Effect.acceptTcp (S := S) (c := c.core) (n := c.now) h hn ha
    simp only [core, Core.put, Core.accept, accept, ht] at this ⊢
    exact this

theorem step_handleUdpConnect {c : Conn} (h : c.pc.attempt = .idle) (site : Site) {s : StreamId}
    {connect : ConnectPayload} (e : Env) (ha : Admitted S s connect) :
    CoreStep S c.core (c.handleUdpConnect S site s connect e).core := by
  unfold handleUdpConnect
  split
  · exact Effect.coreStep (.startUdp h ha)
  · exact step_refuse (by rw [idleCore_eq h]; exact .nop) site s _

theorem step_handleConnect {c : Conn} (h : c.pc.attempt = .idle) (site : Site) (s : StreamId)
    {connect : ConnectPayload} (hf : connect.hostname.length + 8 ≤ S.frameLimit) (e : Env) :
    CoreStep S c.core (c.handleConnect S site s connect e).core := by
  have hrefuse : ∀ reason, CoreStep S c.core (c.refuse S site s reason).core :=
    step_refuse (by rw [idleCore_eq h]; exact .nop) site s
  unfold handleConnect
  split
  · exact hrefuse _
  rename_i hs
  split
  · exact hrefuse _
  rename_i hp
  split
  · exact hrefuse _
  rename_i hh
  split
  · exact hrefuse _
  rename_i hl
  split
  · exact hrefuse _
  rename_i hr
  have ha : Admitted S s connect :=
    ⟨fun e => hs (.inl e), hp, by simpa using hh, by simpa using hl, by simpa using hr, hf⟩
  split
  · exact step_handleTcpConnect h site ha
  · exact step_handleUdpConnect h site e ha

theorem step_handleInbound {c : Conn} (h : c.pc.attempt = .idle) (site : Site) (e : Env)
    {r : Option WispFrameResult} (hr : FitsLimit S.frameLimit r) :
    CoreStep S c.core (c.handleInbound S site e r).core := by
  have hnop : Effect S c.core c.idleCore := by rw [idleCore_eq h]; exact .nop
  unfold handleInbound
  split
  · exact step_breakLoop hnop site
  · split
    · exact step_handleData h site _ _ e
    · split
      · rename_i ht
        split
        · rename_i hp
          have hlen := (parseConnectPayload_hostname hp).1
          refine step_handleConnect h site _ ?_ e
          rcases hr _ _ _ rfl with h0 | hfit
          · rw [h0] at ht; cases ht
          · omega
        · exact step_refuse hnop site _ _
      · split
        · split
          · exact step_write_breakLoop hnop rfl site
          · exact step_finish (effect_removeStream h _) site
        · exact step_finish hnop site
  · split
    · exact step_write_breakLoop hnop rfl site
    · exact step_write_finish hnop rfl site
    · exact step_finish (c := { c with awaitingPong := false, lastPong := c.now }) hnop site
    · exact step_finish hnop site

/-- The deferred frame: its hostname has at most 253 bytes, and `process_inbound_frame` checks the
configured limit. -/
theorem parseWispFrame_fits {payload : List UInt8} {s : StreamId} {connect : ConnectPayload}
    (hmax : ¬ (0 < S.config.maxFrameSize ∧ S.config.maxFrameSize < payload.length))
    (hp : parseWispFrame payload = some (.connect s connect)) :
    connect.hostname.length + 8 ≤ S.frameLimit := by
  obtain ⟨hlen, hhost⟩ : connect.hostname.length + 8 = payload.length ∧
      connect.hostname.length ≤ 253 := by
    unfold parseWispFrame at hp
    split at hp
    · dsimp only at hp
      split at hp
      · cases hp
      · split at hp
        · rw [parseConnect_eq] at hp
          obtain ⟨p, hp, heq⟩ := Option.map_eq_some_iff.mp hp
          cases heq
          obtain ⟨hlen, -, hhost, -⟩ := parseConnectPayload_hostname hp
          simp only [List.length_cons]
          omega
        · split at hp
          · unfold parseContinue at hp; split at hp <;> cases hp
          · split at hp
            · unfold parseClose at hp; split at hp <;> cases hp
            · split at hp
              · unfold parseInfo at hp; split at hp <;> cases hp
              · cases hp
    · cases hp
  unfold Setup.frameLimit
  split
  · omega
  · have : maxMessageSize = 67108864 := rfl
    omega

theorem step_processInboundFrame {c : Conn} (h : c.pc.attempt = .idle) (e : Env)
    (payload : List UInt8) : CoreStep S c.core (c.processInboundFrame S e payload).core := by
  have hnop : Effect S c.core c.idleCore := by rw [idleCore_eq h]; exact .nop
  unfold processInboundFrame
  split
  · exact step_finish hnop _
  · rename_i hmax
    split
    · simp only
      split
      · exact step_handleData h _ _ _ e
      · split
        · split
          · rename_i hp
            exact step_handleConnect h _ _ (parseWispFrame_fits hmax hp) e
          · exact step_refuse hnop _ _ _
        · split
          · split
            · exact step_finish hnop _
            · exact step_finish (effect_removeStream h _) _
          · exact step_finish hnop _
    · exact step_finish hnop _

/-! ## The resolver's answer -/

theorem step_tcpResolved {c c₁ : Conn} {site : Site} {s : StreamId} {connect : ConnectPayload}
    {cancel : CancelFlag} {known res : Option Resolved}
    (hpc : c.pc = .resolvingTcp site s connect cancel known) {d : DnsCache}
    (hc : c₁ = { c with dns := d }) (hr : Resolves c.dns connect known res d) :
    CoreStep S c.core (c₁.tcpResolved S site s connect cancel res).core := by
  subst hc
  have hat : c.core.attempt = .tcp s connect cancel known := by simp only [core, hpc, Pc.attempt]
  unfold tcpResolved
  simp only
  split
  · exact Effect.coreStep (.tcpFailed hat hr)
  · rename_i r
    split
    · exact Effect.coreStep (.tcpFailed hat hr)
    · rename_i hb
      split
      · exact Effect.coreStep (.tcpFailed hat hr)
      · exact step_finish (.spawnConnect hat hr (by simpa using hb)) site

theorem step_udpResolved {c c₁ : Conn} {site : Site} {s : StreamId} {connect : ConnectPayload}
    {known res : Option Resolved} (hpc : c.pc = .resolvingUdp site s connect known) {d : DnsCache}
    (hc : c₁ = { c with dns := d }) (hr : Resolves c.dns connect known res d) :
    CoreStep S c.core (c₁.udpResolved S site s connect res).core := by
  subst hc
  have hat : c.core.attempt = .udp s connect known := by simp only [core, hpc, Pc.attempt]
  unfold udpResolved
  split
  · have := Effect.refuseUdp (S := S) (c := c.core) hat hr
    exact step_refuse (c := { c with dns := d }) this site s _
  · rename_i r
    split
    · have := Effect.refuseUdp (S := S) (c := c.core) hat hr
      exact step_refuse (c := { c with dns := d }) this site s _
    · rename_i hb
      simp only
      rcases hi : c.table.insert s (.udp ⟨c.accepted.length, r.addr,
        (c.flags.new c.accepted.length).1⟩) with ⟨ok, t⟩
      cases ok with
      | false =>
        refine step_refuse ?_ site s _
        have := Effect.refuseUdpFlag (S := S) (c := c.core) (k := c.accepted.length) hat hr
        simpa only [idleCore, core, entry_insert_false hi] using this
      | true =>
        obtain ⟨hn, ht⟩ := entry_insert hi
        refine step_finish ?_ site
        have := Effect.acceptUdp (S := S) (c := c.core) hat hr (by simpa using hb) hn
        simp only [idleCore, core, Core.put, Core.accept, accept, spawn, ht] at this ⊢
        exact this

/-! ## Control events and the phases -/

theorem core_setPc {c : Conn} (h : c.pc.attempt = .idle) {q : Pc} (hn : q.attempt = .idle) :
    { c with pc := q }.core = c.core := by
  simp only [core, hn, h]

theorem step_setPc {c : Conn} (h : c.pc.attempt = .idle) {q : Pc} (hn : q.attempt = .idle) :
    CoreStep S c.core { c with pc := q }.core := by
  rw [core_setPc h hn]
  exact Effect.nop.coreStep

theorem step_handleEnd {c : Conn} (h : c.pc.attempt = .idle) {p : Posted} {ctl : Chan 256 Posted}
    (hctl : c.control.items = p :: ctl.items) {s : StreamId} {reason : CloseReason}
    (hp : p.event = .streamClosed s reason ∨ p.event = .tcpConnectFailed s reason) :
    Effect S c.core ({ c with control := ctl }.handleEnd s reason p.origin).core := by
  have := Effect.ended (S := S) (c := c.core) h hctl hp
  have hrm : ({ c with control := ctl }.removeStream s).core =
      { c.core with control := ctl.items }.removeEntry s := core_removeStream _ s
  rw [← hrm] at this
  exact this

theorem handleEnd_pc (c : Conn) (s : StreamId) (reason : CloseReason) (f : CancelFlag) :
    (c.handleEnd s reason f).pc = c.pc :=
  removeStream_pc c s

/-- The table after an entry was taken out and `y` put in its place. -/
theorem entry_replace {c : Conn} {s : StreamId} {x : ProxyStream Octet}
    (h : c.table.get? s = some x) (y : ProxyStream Octet) :
    ((c.table.takeEntry s).insert s y).2.get? =
      fun s' => if s' = s then some y else c.table.get? s' := by
  funext s'
  rw [StreamTable.get?_insert (StreamTable.insert_takeEntry h y)]
  split
  · rfl
  · rename_i hs; rw [StreamTable.get?_takeEntry, if_neg hs]

theorem step_handleTcpConnected {c : Conn} (h : c.pc.attempt = .idle) (e : Env) {p : Posted}
    {ctl : Chan 256 Posted} (hctl : c.control.items = p :: ctl.items) {s : StreamId} {reader : Inc}
    {writer : OwnedWriteHalf Octet} {cancel : CancelFlag}
    (hp : p.event = .tcpConnected s reader writer cancel) :
    CoreStep S c.core ({ c with control := ctl }.handleTcpConnected S e s reader writer).core := by
  unfold handleTcpConnected StreamTable.remove
  simp only
  cases hx : c.table.get? s with
  | none => exact Effect.coreStep (.connectedNone h hctl hp hx)
  | some x =>
    have hput : ∀ y, x = y → (fun s' => if s' = s then some y else c.table.get? s') =
        c.table.get? := by
      rintro y rfl
      funext s'
      split
      · rename_i hs; rw [hs, hx]
      · rfl
    cases x with
    | tcp tcp =>
      refine Effect.coreStep ?_
      have := Effect.connectedOther (S := S) (c := c.core) h hctl hp hx nofun
      simp only [core, entry_replace hx, hput _ rfl, ProxyStream.cancel] at this ⊢
      exact this
    | udp udp =>
      refine Effect.coreStep ?_
      have := Effect.connectedOther (S := S) (c := c.core) h hctl hp hx nofun
      simp only [core, entry_replace hx, hput _ rfl, ProxyStream.cancel] at this ⊢
      exact this
    | connecting cs =>
      simp only
      have htake : (c.table.takeEntry s).get? =
          fun s' => if s' = s then none else c.table.get? s' :=
        funext (c.table.get?_takeEntry s)
      split
      · rename_i hd
        have := Effect.attachDead (S := S) (c := c.core) h hctl hp hx hd
        refine ⟨_, [.close s .networkError none], this, plain_nil.cons rfl, ?_⟩
        simp only [core, write, writeAll, Core.emit, Core.put, htake, ProxyStream.cancel]
        rfl
      · rename_i hd
        have := Effect.attach (S := S) (c := c.core) h hctl hp hx (by simpa using hd)
        refine ⟨_, [.continue s S.config.bufferSize], this, plain_nil.cons rfl, ?_⟩
        simp only [core, write, writeAll, spawn, Core.emit, Core.put, entry_replace hx,
          ProxyStream.cancel]
        rfl

theorem handleTcpConnected_pc (c : Conn) (e : Env) (s : StreamId) (reader : Inc)
    (writer : OwnedWriteHalf Octet) : (c.handleTcpConnected S e s reader writer).pc = c.pc := by
  unfold handleTcpConnected
  split
  · dsimp only
    split <;> rfl
  · rfl
  · rfl

theorem step_handleControlEvent {c : Conn} (h : c.pc.attempt = .idle) (e : Env) {p : Posted}
    {ctl : Chan 256 Posted} (hctl : c.control.items = p :: ctl.items) {q : Pc}
    (hn : q.attempt = .idle) :
    CoreStep S c.core
      { ({ c with control := ctl }.handleControlEvent S e p) with pc := q }.core := by
  unfold handleControlEvent
  split
  · rename_i s reason hp
    rw [core_setPc (by rw [handleEnd_pc]; exact h) hn]
    exact (step_handleEnd h hctl (.inl hp)).coreStep
  · rename_i s reader writer cancel hp
    rw [core_setPc (by rw [handleTcpConnected_pc]; exact h) hn]
    exact step_handleTcpConnected h e hctl hp
  · rename_i s reason hp
    rw [core_setPc (by rw [handleEnd_pc]; exact h) hn]
    exact (step_handleEnd h hctl (.inr hp)).coreStep

theorem step_writeBatch {c : Conn} (h : c.pc.attempt = .idle) {q : Pc}
    (hn : q.attempt = .idle) : CoreStep S c.core (c.writeBatch q).core := by
  have hpc : (if c.data.items.isEmpty || c.clientUp then q else .ended).attempt = .idle := by
    split
    · exact hn
    · rfl
  have := Effect.batch (S := S) (c := c.core) h
  refine Effect.coreStep ?_
  simp only [writeBatch, core, writeAll, hpc, Core.emit, h, Chan.items_drain] at this ⊢
  exact this

theorem step_drainOne {c : Conn} (h : c.pc.attempt = .idle) (s : StreamId) (r : WriteResult) :
    Effect S c.core (c.drainOne s r).2.2.core := by
  unfold drainOne
  cases hx : c.table.get? s with
  | none => exact .nop
  | some x =>
    cases x with
    | udp _ => exact .nop
    | connecting _ => exact .nop
    | tcp tcp =>
      simp only
      split
      · have := Effect.untrack (S := S) (c := c.core) h hx
        simp only [core, Core.put, entry_set hx] at this ⊢
        exact this
      · simp only
        split
        · have := Effect.drain (S := S) (c := c.core) (r := r)
            (q := (drainPending tcp r).2.queuedForDrain) h hx
          simp only [core, Core.put, entry_set hx] at this ⊢
          exact this
        · have := Effect.drain (S := S) (c := c.core) (r := r) (q := false) h hx
          simp only [core, Core.put, entry_set hx] at this ⊢
          exact this

theorem drainOne_pc (c : Conn) (s : StreamId) (r : WriteResult) :
    (c.drainOne s r).2.2.pc = c.pc := by
  unfold drainOne
  split
  · split <;> rfl
  · rfl

theorem resetIdle_core (c : Conn) : (c.resetIdle S).core = c.core := by
  unfold resetIdle
  split <;> simp only [core]

theorem resetIdle_pc (c : Conn) : (c.resetIdle S).pc = c.pc := by
  unfold resetIdle
  split <;> rfl

/-- A frame that was taken off the buffer. -/
theorem step_inbound {c₀ : Core} {c : Conn} (hc : c.core = c₀) (h : c.pc.attempt = .idle)
    (site : Site) (e : Env) {r : Option WispFrameResult} (hr : FitsLimit S.frameLimit r) :
    CoreStep S c₀ ((c.resetIdle S).handleInbound S site e r).core := by
  have := step_handleInbound (S := S) (c := c.resetIdle S) (by rw [resetIdle_pc, h]) site e hr
  rwa [resetIdle_core, hc] at this

theorem step_stepTimers {c₀ : Core} {c c' : Conn} (hc : c.core = c₀) (h : c.pc.attempt = .idle)
    (hs : c.stepTimers S = some c') : CoreStep S c₀ c'.core := by
  have hnop : ∀ {q : Pc}, q.attempt = .idle → CoreStep S c₀ { c with pc := q }.core := by
    intro q hn
    rw [core_setPc h hn, hc]
    exact Effect.nop.coreStep
  unfold stepTimers at hs
  split at hs
  · cases hs
  split at hs
  · cases hs; exact hnop rfl
  split at hs
  · split at hs
    · split at hs
      · cases hs; exact hnop rfl
      · cases hs
        refine ⟨c₀, [.ping], .nop, plain_nil.cons rfl, ?_⟩
        rw [← hc]
        simp only [core, write, writeAll, Core.emit, h]
        rfl
    · cases hs; exact hnop rfl
  · cases hs

theorem step_stepSelect {c c' : Conn} (h : c.pc.attempt = .idle) {e : Env}
    (hs : c.stepSelect S e = some c') : CoreStep S c.core c'.core := by
  unfold stepSelect at hs
  split at hs
  · cases hs
    exact step_inbound (by rfl) (by exact h) _ _ (fitsLimit_readWispFrame _ _)
  · cases hs
    exact step_inbound (by rfl) (by exact h) _ _ (fitsLimit_readWispFrame _ _)
  · split at hs
    · cases hs
      have := step_writeBatch (S := S) (c := { c with tried := [] }) (q := .inner) h rfl
      exact this
    · split at hs
      · rename_i p ctl hr
        cases hs
        have := step_handleControlEvent (S := S) (c := { c with tried := [] }) (q := .controlRest)
          h e (Chan.tryRecv_some hr) rfl
        exact this
      · exact step_stepTimers (by rfl) (by exact h) hs

/-! ## The main task and the others -/

theorem step_stepMain {c c' : Conn} {e : Env} (hs : c.stepMain S e = some c') :
    CoreStep S c.core c'.core := by
  unfold stepMain at hs
  split at hs
  case h_1 hpc =>
    cases hs
    exact step_finish (by rw [idleCore_eq (by rw [hpc]; rfl)]; exact .nop) _
  case h_2 hpc =>
    cases hs
    exact step_processInboundFrame (by rw [hpc]; rfl) e _
  case h_3 hpc =>
    split at hs
    · cases hs
      exact step_inbound (by rfl) (by rw [hpc]; rfl) _ _ (fitsLimit_tryReadWispFrame _ _)
    · cases hs
      obtain ⟨fs, hp, he⟩ := core_flushThen_plain (q := c.phase0Head)
        (idleCore_eq (by rw [hpc]; rfl)) rfl
      exact ⟨_, fs, .nop, hp, he⟩
  case h_4 site s connect cancel known hpc =>
    split at hs
    · cases hs
      exact step_tcpResolved hpc rfl (.inl ⟨_, rfl, rfl, rfl⟩)
    · split at hs
      · cases hs
        exact step_tcpResolved hpc rfl (.inr ⟨rfl, c.now, e.answer, .inl ⟨rfl, rfl⟩⟩)
      · rename_i hr
        cases hs
        exact step_tcpResolved hpc rfl (.inr ⟨rfl, c.now, e.answer, .inr ⟨_, rfl, hr⟩⟩)
  case h_5 site s connect known hpc =>
    split at hs
    · cases hs
      exact step_udpResolved hpc rfl (.inl ⟨_, rfl, rfl, rfl⟩)
    · split at hs
      · cases hs
        exact step_udpResolved hpc rfl (.inr ⟨rfl, c.now, e.answer, .inl ⟨rfl, rfl⟩⟩)
      · rename_i hr
        cases hs
        exact step_udpResolved hpc rfl (.inr ⟨rfl, c.now, e.answer, .inr ⟨_, rfl, hr⟩⟩)
  case h_6 site p hpc =>
    split at hs
    · rename_i ctl hsend
      cases hs
      obtain ⟨hitems, hlen⟩ := Chan.trySend_some hsend
      have := Effect.sendFailed (S := S) (c := c.core) (p := p)
        (by simp only [core, hpc, Pc.attempt]) hlen
      refine step_finish (c := { c with control := ctl }) ?_ site
      simp only [idleCore, core, hitems] at this ⊢
      exact this
    · cases hs
  case h_7 dead hpc =>
    cases hs
    exact step_setPc (by rw [hpc]; rfl) rfl
  case h_8 s todo kept dead hpc =>
    cases hs
    have hd := step_drainOne (S := S) (c := c) (by rw [hpc]; rfl) s (e.write 0)
    have := core_setPc (c := (c.drainOne s (e.write 0)).2.2)
      (q := .phase0 todo (if (c.drainOne s (e.write 0)).1 then kept ++ [s] else kept)
        (if (c.drainOne s (e.write 0)).2.1 then dead ++ [s] else dead))
      (by rw [drainOne_pc, hpc]; rfl) rfl
    rw [← this] at hd
    exact hd.coreStep
  case h_9 hpc =>
    cases hs
    exact step_setPc (by rw [hpc]; rfl) rfl
  case h_10 s dead hpc =>
    cases hs
    have hidle : c.pc.attempt = .idle := by rw [hpc]; rfl
    rw [core_setPc (c := (c.removeStream s).write (.close s .networkError none))
      (by exact (removeStream_pc c s).symm ▸ hidle) rfl]
    refine ⟨_, [.close s .networkError none], Effect.remove (s := s) hidle, plain_nil.cons rfl, ?_⟩
    rw [← core_removeStream]
    rfl
  case h_11 hpc =>
    split at hs
    · rename_i hr
      cases hs
      exact step_handleControlEvent (by rw [hpc]; rfl) e (Chan.tryRecv_some hr) rfl
    · cases hs
      exact step_writeBatch (by rw [hpc]; rfl) rfl
  case h_12 hpc => exact step_stepSelect (by rw [hpc]; rfl) hs
  case h_13 hpc =>
    split at hs
    · rename_i hr
      cases hs
      exact step_handleControlEvent (by rw [hpc]; rfl) e (Chan.tryRecv_some hr) rfl
    · cases hs
      exact step_setPc (by rw [hpc]; rfl) rfl
  case h_14 => cases hs

theorem step_endReader {c : Conn} {i : Nat} {t : Task} (ht : c.tasks[i]? = some t)
    (hst : t.state = .reading) (reason : CloseReason) :
    Effect S c.core (c.endReader i t reason).core := by
  unfold endReader
  split
  · exact .taskDone ht
  · rename_i hf
    exact .readEnd ht hst (Bool.eq_false_iff.mpr hf)

theorem step_stepTask {c c' : Conn} {i : Nat} {x : TaskInput} (hs : c.stepTask i x = some c') :
    Effect S c.core c'.core := by
  unfold stepTask at hs
  split at hs
  · cases hs
  rename_i t ht
  split at hs
  · rename_i r hst
    split at hs
    · cases hs; exact .taskDone ht
    · rename_i hf
      cases hs; exact .dial ht hst (Bool.eq_false_iff.mpr hf)
  · rename_i hst; cases hs; exact .connected ht hst
  · rename_i hst; cases hs; exact .connectFailed ht hst
  · rename_i hst
    cases hs
    split
    · exact .taskDone ht
    · rename_i hf; exact .startRead ht hst (Bool.eq_false_iff.mpr hf)
  · rename_i bytes source hst
    split at hs
    · rename_i hok
      cases hs
      split
      · exact .readCancelled (m := ⟨t.streamId, bytes, t.cancel, t.sock, source⟩) ht hst rfl rfl rfl
          hok
      · rename_i hf; exact .read ht hst (Bool.eq_false_iff.mpr hf) rfl rfl rfl hok
    · cases hs
  · rename_i hst
    split at hs
    · cases hs; exact step_endReader ht hst _
    · cases hs
  · rename_i hst; cases hs; exact step_endReader ht hst _
  · rename_i m hst
    split at hs
    · cases hs; exact .taskDone ht
    · split at hs
      · rename_i d hsend
        cases hs
        have := Effect.sendData (S := S) (c := c.core) ht hst
        simp only [core, Core.setTask, setTask, (Chan.trySend_some hsend).1] at this ⊢
        exact this
      · cases hs
  · rename_i p hst
    split at hs
    · cases hs; exact .taskDone ht
    · split at hs
      · rename_i d hsend
        cases hs
        have := Effect.sendControl (S := S) (c := c.core) ht hst
        simp only [core, Core.setTask, setTask, (Chan.trySend_some hsend).1] at this ⊢
        exact this
      · cases hs
  · cases hs

end Conn

/-- Every step of the connection is a step of the machine. -/
theorem step_core {c c' : Conn} {a : Act} (hs : step S c a = some c') :
    CoreStep S c.core c'.core := by
  cases a with
  | main e => exact Conn.step_stepMain hs
  | task i x => exact (Conn.step_stepTask hs).coreStep
  | client i => cases hs; exact Effect.nop.coreStep
  | clientReads =>
    simp only [step] at hs
    split at hs
    · cases hs; exact Effect.nop.coreStep
    · cases hs
  | clientDown => cases hs; exact Effect.down.coreStep
  | otherResolve h p answer =>
    simp only [step] at hs
    split at hs
    · cases hs
    · rename_i hip
      split at hs
      · cases hs
      · rename_i hr
        cases hs
        exact (Effect.otherResolve hip hr).coreStep
  | tick d => cases hs; exact Effect.nop.coreStep
  | writable sock => cases hs; exact Effect.nop.coreStep

/-- The machine before the first step. -/
def Core.start (S : Setup) : Core := (Conn.start S none).core

theorem Core.start_entry (s : StreamId) : (Core.start S).entry s = none := StreamTable.get?_new _ s

/-- The invariant rule for machine states (module doc). -/
theorem Reach.core {ok : Conn → Act → Conn → Prop} {R : Core → Core → Prop}
    (hR : ∀ c a c', ok c a c' → R c.core c'.core) {I : Core → Prop} (hinit : I (Core.start S))
    (hstep : ∀ c d fs, (sys S).Reach ok c → I c.core → Effect S c.core d → Plain fs →
      R c.core (d.emit fs) → I (d.emit fs))
    {c : Conn} (h : (sys S).Reach ok c) : I c.core := by
  refine h.invariant (I := fun c => I c.core) ?_ ?_
  · rintro _ ⟨deferredFrame, rfl⟩
    exact hinit
  · intro c a c' hr hi hs hok
    obtain ⟨d, fs, he, hp, hc⟩ := step_core hs
    rw [hc]
    exact hstep c d fs hr hi he hp (hc ▸ hR c a c' hok)

end ShrimpWisp
