import ShrimpWisp.Server.Clock
import ShrimpWisp.Server.Loop

/-!
# Pings and the pong timeout

The full loop sends a WebSocket ping each time its ping timer fires, and ends instead if a pong is
awaited and the last pong is older than the pong timeout. The last pong is not the ping: its time is
that of the last Pong frame, at first that of the connection's start.

* `Beat`: what the pings of a connection show. `Conn.beat`: the one of an action.
* `Beats`: a step, by what it does to the two timers and to the awaited pong (`step_beats`).
* `Overdue`: a ping has had no pong for longer than the timeout.
* `pongTimeout_overdue`: the loop breaks with the pong timeout only when a ping is overdue, in every
  run, exactly if the timeout is shorter than the interval, or the loop ends before its second ping.
  In one direction `Awaits` and `EndsFirst` are invariants; in the other a client sends text frames
  and no pong (`timeout_after_interval`).
-/

namespace ShrimpWisp

/-- What the pings of a connection show, with the time of it. -/
inductive Beat where
  /-- A ping is sent (`write_ws_ping_frame`). -/
  | ping (time : Nat)
  /-- A Pong frame is handled. -/
  | pong (time : Nat)
  /-- The loop breaks with the pong timeout. -/
  | timeout (time : Nat)
  deriving DecidableEq, Repr

def Beat.IsPong (b : Beat) : Prop := ∃ time, b = .pong time

namespace Conn

variable (S : Setup)

/-- What an action shows of the pings. -/
def beat (c : Conn) : Act → Option Beat
  | .main e =>
    match c.handled S (.main e) with
    | some (.control f) => if f.opcode = .pong then some (.pong c.now) else none
    | some (.wisp ..) => none
    | none =>
      if c.pingFires S then some (if c.pongTimedOut S then .timeout c.now else .ping c.now)
      else none
  | _ => none

end Conn

/-- The connection with the log of its pings. -/
def heartbeatSys (S : Setup) : Sys (Conn × List Beat) Act := (sys S).logged (Conn.beat S)

/-- A ping has had no pong for longer than the timeout. -/
def Overdue (S : Setup) (log : List Beat) (time : Nat) : Prop :=
  ∃ sent, Latest Beat.IsPong log (.ping sent) ∧ S.pongTimeout < time - sent

/-! ## A step -/

/-- The main task is neither at a frame nor in its `select!`. -/
def Pc.between : Pc → Bool
  | .start (some _) => false
  | .inner => false
  | .select => false
  | _ => true

/-- What the handling of a frame keeps: the awaited pong, and the timers unless the loop begins. -/
structure Keeps (S : Setup) (site : Site) (c c' : Conn) : Prop where
  awaiting : c'.awaitingPong = c.awaitingPong
  now : c'.now = c.now
  timers : c'.pingAt = c.pingAt ∧ c'.idleAt = c.idleAt ∨
    site = .deferred ∧ c'.pingAt = c.now + S.pingInterval ∧ c'.idleAt = c.now + S.idleDuration
  early : c'.pc.early = true → site = .deferred

variable {S : Setup}

namespace Conn

/-- The awaited pong, the timers and the time. -/
def pulse (c : Conn) : Bool × Nat × Nat × Nat := (c.awaitingPong, c.pingAt, c.idleAt, c.now)

theorem pulse_removeStream (c : Conn) (s : StreamId) : (c.removeStream s).pulse = c.pulse := by
  unfold removeStream StreamTable.remove
  cases c.table.get? s with
  | none => rfl
  | some x => cases x <;> rfl

theorem pulse_handleDataZerocopy (c : Conn) (s : StreamId) (payload : List UInt8) (e : Env) :
    (c.handleDataZerocopy S s payload e).2.pulse = c.pulse := by
  unfold handleDataZerocopy
  split
  · rfl
  · dsimp only
    split
    · exact pulse_removeStream _ _
    · rfl
  · rfl
  · dsimp only
    split <;> rfl

theorem pulse_handleTcpConnected (c : Conn) (e : Env) (s : StreamId) (reader : Inc)
    (writer : OwnedWriteHalf Octet) :
    (c.handleTcpConnected S e s reader writer).pulse = c.pulse := by
  unfold handleTcpConnected
  split
  · dsimp only
    split <;> rfl
  · rfl
  · rfl

theorem pulse_handleControlEvent (c : Conn) (e : Env) (p : Posted) :
    (c.handleControlEvent S e p).pulse = c.pulse := by
  unfold handleControlEvent
  split
  · exact pulse_removeStream c _
  · exact pulse_handleTcpConnected c e _ _ _
  · exact pulse_removeStream c _

theorem pulse_drainOne (c : Conn) (s : StreamId) (r : WriteResult) :
    (c.drainOne s r).2.2.pulse = c.pulse := by
  unfold drainOne
  split
  · split <;> rfl
  · rfl

theorem early_flushThen {c : Conn} {next : Pc} (h : next.early = false) :
    (c.flushThen next).pc.early = false := by
  simp only [flushThen]
  split
  · exact h
  · rfl

end Conn

namespace Keeps

variable {site : Site} {c c' : Conn}

/-- The handling of the frame goes on, and waits. -/
theorem wait (h : c'.pulse = c.pulse) (he : c'.pc.early = true → site = .deferred) :
    Keeps S site c c' := by
  simp only [Conn.pulse, Prod.mk.injEq] at h
  exact ⟨h.1, h.2.2.2, .inl ⟨h.2.1, h.2.2.1⟩, he⟩

/-- The loop begins. The durations are variables here: `rfl` would compute them. -/
theorem begin {d : Conn} (h : d.pulse = c.pulse) {ping idle : Nat} (hping : S.pingInterval = ping)
    (hidle : S.idleDuration = idle) :
    Keeps S .deferred c
      ({ d with idleAt := d.now + idle, pingAt := d.now + ping }.flushThen .inner) := by
  simp only [Conn.pulse, Prod.mk.injEq] at h
  obtain ⟨hawaiting, -, -, hnow⟩ := h
  refine ⟨hawaiting, hnow, .inr ⟨rfl, ?_, ?_⟩, fun _ => rfl⟩
  · rw [hping, ← hnow]
    rfl
  · rw [hidle, ← hnow]
    rfl

/-- The frame is handled. -/
theorem finish (d : Conn) (h : d.pulse = c.pulse) (site : Site) :
    Keeps S site c (d.finish S site) := by
  cases site with
  | deferred => exact .begin h rfl rfl
  | inner =>
    refine .wait ?_ ?_
    · rw [← h]
      unfold Conn.finish
      dsimp only
      split <;> rfl
    · unfold Conn.finish
      dsimp only
      split
      · rw [Conn.early_flushThen rfl]
        nofun
      · nofun
  | select =>
    refine .wait (by rw [← h]; rfl) ?_
    unfold Conn.finish
    rw [Conn.early_flushThen rfl]
    nofun

/-- A frame is written, and the inbound frame is handled. -/
theorem write (d : Conn) (h : d.pulse = c.pulse) (f : ClientFrame) (site : Site) :
    Keeps S site c ((d.write f).finish S site) :=
  finish (d.write f) h site

theorem breakLoop (h : c'.pulse = c.pulse) (site : Site) : Keeps S site c (c'.breakLoop site) := by
  cases site with
  | inner =>
    refine .wait (by rw [← h]; rfl) ?_
    unfold Conn.breakLoop
    rw [Conn.early_flushThen rfl]
    nofun
  | deferred => exact .wait h nofun
  | select => exact .wait h nofun

theorem handleData (c : Conn) (site : Site) (s : StreamId) (payload : List UInt8) (e : Env) :
    Keeps S site c (c.handleData S site s payload e) := by
  have h := c.pulse_handleDataZerocopy (S := S) s payload e
  unfold Conn.handleData
  split
  · next d hd =>
    rw [hd] at h
    exact .write d h _ site
  · next d hd =>
    rw [hd] at h
    exact .finish d h site

theorem handleConnect (c : Conn) (site : Site) (s : StreamId) (connect : ConnectPayload) (e : Env) :
    Keeps S site c (c.handleConnect S site s connect e) := by
  have hrefuse (d : Conn) (hd : d.pulse = c.pulse) (reason : CloseReason) :
      Keeps S site c (d.refuse S site s reason) := .write d hd _ site
  unfold Conn.handleConnect
  split
  · exact hrefuse c rfl _
  split
  · exact hrefuse c rfl _
  split
  · exact hrefuse c rfl _
  split
  · exact hrefuse c rfl _
  split
  · exact hrefuse c rfl _
  split
  · unfold Conn.handleTcpConnect
    dsimp only
    split
    · refine hrefuse _ ?_ _
      rfl
    · exact .wait rfl fun h => eq_of_beq h
  · unfold Conn.handleUdpConnect
    split
    · exact .wait rfl fun h => eq_of_beq h
    · exact hrefuse c rfl _

theorem tcpResolved (h : c'.pulse = c.pulse) (site : Site) (s : StreamId) (connect : ConnectPayload)
    (cancel : CancelFlag) (resolved : Option Resolved) :
    Keeps S site c (c'.tcpResolved S site s connect cancel resolved) := by
  have hfail (reason : CloseReason) :
      Keeps S site c { c' with pc := .sending site ⟨.tcpConnectFailed s reason, cancel⟩ } :=
    .wait h fun hearly => eq_of_beq hearly
  unfold Conn.tcpResolved
  cases resolved with
  | none => exact hfail .unreachable
  | some r =>
    dsimp only
    split
    · exact hfail .blocked
    split
    · exact hfail .blocked
    · exact .finish (c'.spawn _) h site

theorem udpResolved (h : c'.pulse = c.pulse) (site : Site) (s : StreamId) (connect : ConnectPayload)
    (resolved : Option Resolved) : Keeps S site c (c'.udpResolved S site s connect resolved) := by
  have hrefuse (d : Conn) (hd : d.pulse = c.pulse) (reason : CloseReason) :
      Keeps S site c (d.refuse S site s reason) := .write d hd _ site
  unfold Conn.udpResolved
  cases resolved with
  | none => exact hrefuse c' h _
  | some r =>
    dsimp only
    split
    · exact hrefuse c' h _
    · split
      · refine hrefuse _ ?_ _
        exact h
      · refine .finish _ ?_ site
        exact h

theorem of_pulse {d : Conn} (h : d.pulse = c.pulse) (hk : Keeps S site d c') :
    Keeps S site c c' := by
  simp only [Conn.pulse, Prod.mk.injEq] at h
  obtain ⟨hawaiting, hping, hidle, hnow⟩ := h
  refine ⟨hk.awaiting.trans hawaiting, hk.now.trans hnow, ?_, hk.early⟩
  rw [← hping, ← hidle, ← hnow]
  exact hk.timers

/-- An inbound frame that is not a Pong. -/
theorem handleInbound (c : Conn) (site : Site) (e : Env) {r : Option WispFrameResult}
    (hr : ∀ f, r = some (.control f) → f.opcode ≠ .pong) :
    Keeps S site c (c.handleInbound S site e r) := by
  cases r with
  | none => exact .breakLoop rfl site
  | some r =>
    cases r with
    | wisp t s payload =>
      unfold Conn.handleInbound
      dsimp only
      split
      · exact .handleData c site s payload e
      split
      · split
        · exact .handleConnect c site s _ e
        · exact .write c rfl _ site
      split
      · split
        · refine .breakLoop ?_ site
          rfl
        · exact .finish _ (c.pulse_removeStream s) site
      · exact .finish c rfl site
    | control f =>
      have hf := hr f rfl
      unfold Conn.handleInbound
      dsimp only
      split
      · refine .breakLoop ?_ site
        rfl
      · exact .write c rfl _ site
      · next hop => exact absurd hop hf
      · exact .finish c rfl site

/-- A Pong: it is not awaited any more. -/
theorem handlePong (c : Conn) (site : Site) (e : Env) {f : WsFrame} (hf : f.opcode = .pong) :
    Keeps S site { c with awaitingPong := false }
      (c.handleInbound S site e (some (.control f))) := by
  unfold Conn.handleInbound
  dsimp only
  rw [hf]
  refine .finish _ ?_ site
  rfl

/-- The deferred frame. -/
theorem processInboundFrame (c : Conn) (e : Env) (payload : List UInt8) :
    Keeps S .deferred c (c.processInboundFrame S e payload) := by
  unfold Conn.processInboundFrame
  split
  · exact .finish c rfl _
  split
  · dsimp only
    split
    · exact .handleData c _ _ _ e
    split
    · split
      · exact .handleConnect c _ _ _ e
      · exact .write c rfl _ _
    split
    · split
      · exact .finish c rfl _
      · exact .finish _ (c.pulse_removeStream _) _
    · exact .finish c rfl _
  · exact .finish c rfl _

end Keeps

/-- What a step keeps that is neither a ping nor a pong: the awaited pong, the ping timer, and the
idle timer if it is disabled. The two timers start with the loop. -/
structure Rests (S : Setup) (c c' : Conn) : Prop where
  awaiting : c'.awaitingPong = c.awaitingPong
  now : c.now ≤ c'.now
  timers : c'.pingAt = c.pingAt ∧ (c'.idleAt = c.idleAt ∨ S.idleEnabled = true) ∨
    c.pc.early = true ∧ c'.pingAt = c.now + S.pingInterval ∧ c'.idleAt = c.now + S.idleDuration
  early : c'.pc.early = true → c.pc.early = true

/-- A step of the connection, with what it shows of the pings. -/
inductive Beats (S : Setup) (c : Conn) : Option Beat → Conn → Prop
  | rest {c' : Conn} (h : Rests S c c') : Beats S c none c'
  | pong {c' : Conn} (h : Rests S { c with awaitingPong := false } c') :
      Beats S c (some (.pong c.now)) c'
  | ping {c' : Conn} (hf : c.pingFires S = true)
      (h : Rests S { c with awaitingPong := true, pingAt := c.now + S.pingInterval } c') :
      Beats S c (some (.ping c.now)) c'
  | timeout {c' : Conn} (hf : c.pingFires S = true) (hp : c.pongTimedOut S = true)
      (hpc : c'.pc = .ended) (h : Rests S c c') : Beats S c (some (.timeout c.now)) c'

theorem Keeps.rests {site : Site} {c c' : Conn} (h : Keeps S site c c')
    (hsite : site = .deferred → c.pc.early = true) : Rests S c c' where
  awaiting := h.awaiting
  now := h.now.ge
  timers := by
    rcases h.timers with ⟨hping, hidle⟩ | ⟨hs, hping, hidle⟩
    · exact .inl ⟨hping, .inl hidle⟩
    · exact .inr ⟨hsite hs, hping, hidle⟩
  early he := hsite (h.early he)

theorem Keeps.rests_at {site : Site} {c c' : Conn} (h : Keeps S site c c')
    (hpc : c.pc.early = (site == .deferred)) : Rests S c c' := by
  refine h.rests ?_
  rintro rfl
  rw [hpc]
  rfl

/-- The idle timer restarts before the frame is handled. -/
theorem Keeps.rests_resetIdle {site : Site} {c c₁ c' : Conn} (h₁ : c₁.pulse = c.pulse)
    (h : Keeps S site (c₁.resetIdle S) c') (hsite : site ≠ .deferred) : Rests S c c' := by
  unfold Conn.resetIdle at h
  split at h
  · next hidle =>
    simp only [Conn.pulse, Prod.mk.injEq] at h₁
    obtain ⟨hawaiting, hping, -, hnow⟩ := h₁
    refine ⟨h.awaiting.trans hawaiting, (h.now.trans hnow).ge, ?_,
      fun he => absurd (h.early he) hsite⟩
    rcases h.timers with ⟨hp, -⟩ | ⟨hs, -⟩
    · exact .inl ⟨hp.trans hping, .inr hidle⟩
    · exact absurd hs hsite
  · exact (Keeps.of_pulse h₁ h).rests fun hs => absurd hs hsite

/-- The timers and the awaited pong are as they were, and the loop has begun. -/
theorem Rests.of_pulse {c c' : Conn} (h : c'.pulse = c.pulse) (he : c'.pc.early = false) :
    Rests S c c' := by
  have hk : Keeps S .inner c c' := by
    refine .wait h ?_
    rw [he]
    nofun
  exact hk.rests nofun

namespace Conn

/-- The ping timer fires. -/
structure PingFires (S : Setup) (c : Conn) : Prop where
  pc : c.pc = .select
  enabled : S.pingEnabled = true
  notIdle : c.now < c.idleAt
  due : c.pingAt ≤ c.now

theorem pingFires_true {c : Conn} (h : c.pingFires S = true) : PingFires S c := by
  simp only [pingFires, Bool.and_eq_true, decide_eq_true_eq, beq_iff_eq] at h
  exact ⟨h.1.1.1.1.1.1, h.1.1.2, h.1.2, h.2⟩

theorem pingFires_eq_false {c : Conn} (h : c.pc ≠ .select) : c.pingFires S = false := by
  unfold pingFires
  rw [beq_false_of_ne h]
  rfl

theorem beat_eq_none {c : Conn} {e : Env}
    (hh : ∀ f, c.handled S (.main e) = some (.control f) → f.opcode ≠ .pong)
    (hf : c.pingFires S = false) : c.beat S (.main e) = none := by
  unfold beat
  dsimp only
  split
  · next f hr => exact if_neg (hh f hr)
  · rfl
  · rw [if_neg (by rw [hf]; nofun)]

/-- A step between the frames and the `select!`. -/
theorem beats_between {c c' : Conn} {e : Env} (hpc : c.pc.between = true) (h : Rests S c c') :
    Beats S c (c.beat S (.main e)) c' := by
  have hh : c.handled S (.main e) = none := by
    unfold handled
    dsimp only
    split
    · next hp =>
      rw [hp] at hpc
      cases hpc
    · next hp =>
      rw [hp] at hpc
      cases hpc
    · next hp =>
      rw [hp] at hpc
      cases hpc
    · rfl
  have hselect : c.pc ≠ .select := by
    intro hp
    rw [hp] at hpc
    cases hpc
  rw [beat_eq_none (by rw [hh]; nofun) (pingFires_eq_false hselect)]
  exact .rest h

/-- A frame is taken from the buffer or the socket, and handled. -/
theorem beats_inbound {c c₁ : Conn} (h₁ : c₁.pulse = c.pulse) {site : Site}
    (hsite : site ≠ .deferred) {e : Env} {r : Option WispFrameResult}
    (hr : c.handled S (.main e) = r) (hf : c.pingFires S = false) :
    Beats S c (c.beat S (.main e)) ((c₁.resetIdle S).handleInbound S site e r) := by
  by_cases hpong : ∃ f, r = some (.control f) ∧ f.opcode = .pong
  · obtain ⟨f, rfl, hop⟩ := hpong
    simp only [beat, hr, if_pos hop]
    have hk := Keeps.handlePong (S := S) (c₁.resetIdle S) site e hop
    have hreset : { c₁.resetIdle S with awaitingPong := false } =
        { c₁ with awaitingPong := false }.resetIdle S := by
      unfold resetIdle
      split <;> rfl
    rw [hreset] at hk
    refine .pong (hk.rests_resetIdle ?_ hsite)
    simp only [pulse, Prod.mk.injEq, true_and] at h₁ ⊢
    exact h₁.2
  · have hother : ∀ f, r = some (.control f) → f.opcode ≠ .pong :=
      fun f hrf hop => hpong ⟨f, hrf, hop⟩
    rw [beat_eq_none (by rw [hr]; exact hother) hf]
    exact .rest ((Keeps.handleInbound _ site e hother).rests_resetIdle h₁ hsite)

/-- The timers, with nothing to read, to write and to handle. -/
theorem beats_timers {c c' : Conn} {e : Env} (hpc : c.pc = .select) (hbuf : c.wsBuf = [])
    (hwire : c.wire = []) (hdata : c.data.items = []) (hctl : c.control.items = [])
    (hs : { c with tried := [] }.stepTimers S = some c') : Beats S c (c.beat S (.main e)) c' := by
  have hh : c.handled S (.main e) = none := by simp only [handled, hpc, hbuf, hwire]; rfl
  have hfires : c.pingFires S = (S.pingEnabled && decide (c.now < c.idleAt) &&
      decide (c.pingAt ≤ c.now)) := by
    simp only [pingFires, hpc, hbuf, hwire, hdata, hctl, beq_self_eq_true, List.append_nil,
      List.isEmpty_nil, Bool.true_and]
  simp only [beat, hh]
  unfold stepTimers at hs
  split at hs
  · cases hs
  split at hs
  · next hidle =>
    cases hs
    have hidle : ¬ c.now < c.idleAt := Nat.not_lt.mpr hidle
    rw [if_neg (by rw [hfires]; simp [hidle])]
    exact .rest (.of_pulse rfl rfl)
  next hidle =>
  split at hs
  · next hping =>
    split at hs
    · next hen =>
      have hf : c.pingFires S = true := by
        rw [hfires, hen]
        simp only [Bool.true_and, Bool.and_eq_true, decide_eq_true_eq]
        exact ⟨Nat.lt_of_not_le hidle, hping⟩
      rw [if_pos hf]
      split at hs
      · next hout =>
        cases hs
        rw [if_pos (by exact hout)]
        exact .timeout hf hout rfl (.of_pulse rfl rfl)
      · next hout =>
        cases hs
        rw [if_neg (by exact hout)]
        exact .ping hf (.of_pulse rfl rfl)
    · next hen =>
      cases hs
      rw [if_neg (by rw [hfires]; simp [hen])]
      exact .rest (.of_pulse rfl rfl)
  · cases hs

theorem beats_select {c c' : Conn} {e : Env} (hpc : c.pc = .select)
    (hs : c.stepSelect S e = some c') : Beats S c (c.beat S (.main e)) c' := by
  unfold stepSelect at hs
  split at hs
  · next i rest hbuf =>
    cases hs
    refine beats_inbound ?_ ?_ ?_ ?_
    · rfl
    · rintro ⟨⟩
    · simp only [handled, hpc, hbuf]
      rfl
    · simp only [pingFires, hbuf, List.cons_append, List.isEmpty_cons, Bool.and_false,
        Bool.false_and]
  · next i rest hbuf hwire =>
    cases hs
    refine beats_inbound ?_ ?_ ?_ ?_
    · rfl
    · rintro ⟨⟩
    · simp only [handled, hpc, hbuf, hwire]
      rfl
    · simp only [pingFires, hbuf, hwire, List.nil_append, List.isEmpty_cons, Bool.and_false,
        Bool.false_and]
  · next hbuf hwire =>
    have hh : c.handled S (.main e) = none := by simp only [handled, hpc, hbuf, hwire]; rfl
    split at hs
    · next hdata =>
      cases hs
      have hf : c.pingFires S = false := by simp [pingFires, hdata]
      rw [beat_eq_none (by rw [hh]; rintro f ⟨⟩) hf]
      refine .rest (.of_pulse rfl ?_)
      simp only [writeBatch]
      split <;> rfl
    next hdata =>
    split at hs
    · next p control hr =>
      cases hs
      have hf : c.pingFires S = false := by
        simp [pingFires, (Chan.tryRecv_some hr)]
      rw [beat_eq_none (by rw [hh]; rintro f ⟨⟩) hf]
      exact .rest (.of_pulse (pulse_handleControlEvent _ e p) rfl)
    · next hr =>
      exact beats_timers hpc hbuf hwire (not_not.mp hdata) (Chan.tryRecv_none.mp hr) hs

theorem beats_main {c c' : Conn} {e : Env} (hs : c.stepMain S e = some c') :
    Beats S c (c.beat S (.main e)) c' := by
  unfold stepMain at hs
  split at hs
  case h_1 hpc =>
    cases hs
    have hk := Keeps.finish (S := S) c rfl .deferred
    exact beats_between (by rw [hpc]; rfl) (hk.rests_at (by rw [hpc]; rfl))
  case h_2 payload hpc =>
    cases hs
    have hk := Keeps.processInboundFrame (S := S) c e payload
    have hh : ∀ f, c.handled S (.main e) ≠ some (.control f) := by
      intro f
      simp only [handled, hpc, deferredResult]
      split
      · rintro ⟨⟩
      · split <;> rintro ⟨⟩
    rw [beat_eq_none (fun f hf => absurd hf (hh f)) (pingFires_eq_false (by rw [hpc]; rintro ⟨⟩))]
    exact .rest (hk.rests_at (by rw [hpc]; rfl))
  case h_3 hpc =>
    split at hs
    · next i rest hbuf =>
      cases hs
      refine beats_inbound ?_ ?_ ?_ (pingFires_eq_false (by rw [hpc]; rintro ⟨⟩))
      · rfl
      · rintro ⟨⟩
      · simp only [handled, hpc, hbuf]
        rfl
    · next hbuf =>
      cases hs
      have hh : c.handled S (.main e) = none := by simp only [handled, hpc, hbuf]; rfl
      rw [beat_eq_none (by rw [hh]; rintro f ⟨⟩) (pingFires_eq_false (by rw [hpc]; rintro ⟨⟩))]
      exact .rest (.of_pulse rfl (early_flushThen rfl))
  case h_4 site s connect cancel known hpc =>
    have hearly : c.pc.early = (site == .deferred) := by rw [hpc]; rfl
    refine beats_between (by rw [hpc]; rfl) ?_
    split at hs
    · cases hs
      exact (Keeps.tcpResolved rfl site s connect cancel _).rests_at hearly
    · split at hs <;> cases hs
      · exact (Keeps.tcpResolved rfl site s connect cancel _).rests_at hearly
      · refine Keeps.rests_at (Keeps.tcpResolved ?_ site s connect cancel _) hearly
        rfl
  case h_5 site s connect known hpc =>
    have hearly : c.pc.early = (site == .deferred) := by rw [hpc]; rfl
    refine beats_between (by rw [hpc]; rfl) ?_
    split at hs
    · cases hs
      exact (Keeps.udpResolved rfl site s connect _).rests_at hearly
    · split at hs <;> cases hs
      · exact (Keeps.udpResolved rfl site s connect _).rests_at hearly
      · refine Keeps.rests_at (Keeps.udpResolved ?_ site s connect _) hearly
        rfl
  case h_6 site p hpc =>
    have hearly : c.pc.early = (site == .deferred) := by rw [hpc]; rfl
    refine beats_between (by rw [hpc]; rfl) ?_
    split at hs
    · cases hs
      refine Keeps.rests_at (Keeps.finish _ ?_ site) hearly
      rfl
    · cases hs
  case h_7 hpc =>
    cases hs
    exact beats_between (by rw [hpc]; rfl) (.of_pulse rfl rfl)
  case h_8 s todo kept dead hpc =>
    cases hs
    exact beats_between (by rw [hpc]; rfl) (.of_pulse (pulse_drainOne c s (e.write 0)) rfl)
  case h_9 hpc =>
    cases hs
    exact beats_between (by rw [hpc]; rfl) (.of_pulse rfl rfl)
  case h_10 s dead hpc =>
    cases hs
    exact beats_between (by rw [hpc]; rfl) (.of_pulse (pulse_removeStream c s) rfl)
  case h_11 hpc =>
    refine beats_between (by rw [hpc]; rfl) ?_
    split at hs <;> cases hs
    · exact .of_pulse (pulse_handleControlEvent _ e _) rfl
    · refine .of_pulse rfl ?_
      simp only [writeBatch]
      split <;> rfl
  case h_12 hpc => exact beats_select hpc hs
  case h_13 hpc =>
    refine beats_between (by rw [hpc]; rfl) ?_
    split at hs <;> cases hs
    · exact .of_pulse (pulse_handleControlEvent _ e _) rfl
    · exact .of_pulse rfl rfl
  case h_14 => cases hs

end Conn

/-- A step of the connection, with what it shows of the pings. -/
theorem step_beats {c c' : Conn} {a : Act} (hs : step S c a = some c') :
    Beats S c (c.beat S a) c' := by
  cases a with
  | main e => exact Conn.beats_main hs
  | task i x =>
    obtain ⟨tasks, control, data, reads, dialed, rfl⟩ := Conn.stepTask_changes hs
    exact .rest ⟨rfl, Nat.le_refl _, .inl ⟨rfl, .inl rfl⟩, id⟩
  | clientReads =>
    simp only [step] at hs
    split at hs <;> cases hs
    exact .rest ⟨rfl, Nat.le_refl _, .inl ⟨rfl, .inl rfl⟩, id⟩
  | otherResolve hostname port answer =>
    simp only [step] at hs
    split at hs
    · cases hs
    · split at hs <;> cases hs
      exact .rest ⟨rfl, Nat.le_refl _, .inl ⟨rfl, .inl rfl⟩, id⟩
  | tick d =>
    cases hs
    exact .rest ⟨rfl, Nat.le_add_right _ _, .inl ⟨rfl, .inl rfl⟩, id⟩
  | _ =>
    cases hs
    exact .rest ⟨rfl, Nat.le_refl _, .inl ⟨rfl, .inl rfl⟩, id⟩

/-! ## Runs -/

/-- While a pong is awaited, a ping has had none, and the next one is at least an interval later. -/
def Awaits (S : Setup) (c : Conn) (log : List Beat) : Prop :=
  c.awaitingPong = true → ∃ sent, Latest Beat.IsPong log (.ping sent) ∧ sent ≤ c.now ∧
    sent + S.pingInterval ≤ c.pingAt

theorem Awaits.rests {c c' : Conn} {log : List Beat} (h : Awaits S c log) (hr : Rests S c c')
    {l : List Beat} (hl : ∀ b ∈ l, ¬ b.IsPong) : Awaits S c' (log ++ l) := by
  intro ha
  rw [hr.awaiting] at ha
  obtain ⟨sent, hlatest, hnow, hping⟩ := h ha
  refine ⟨sent, hlatest.append hl, hnow.trans hr.now, ?_⟩
  rcases hr.timers with ⟨hp, -⟩ | ⟨-, hp, -⟩
  · rw [hp]
    exact hping
  · rw [hp]
    exact Nat.add_le_add_right hnow _

theorem Awaits.beats {c c' : Conn} {log : List Beat} {b : Option Beat} (h : Awaits S c log)
    (hb : Beats S c b c') : Awaits S c' (log ++ b.toList) := by
  cases hb with
  | rest hr => exact h.rests hr nofun
  | timeout _ _ _ hr =>
    refine h.rests hr ?_
    intro b hb
    rw [List.mem_singleton.mp hb]
    nofun
  | pong hr =>
    have ha : c'.awaitingPong = false := hr.awaiting
    rw [Awaits, ha]
    nofun
  | ping hf hr =>
    have hnew : Awaits S { c with awaitingPong := true, pingAt := c.now + S.pingInterval }
        (log ++ [.ping c.now]) :=
      fun _ => ⟨c.now, .last _ _ _, Nat.le_refl _, Nat.le_refl _⟩
    have := hnew.rests hr (l := []) nofun
    rwa [List.append_nil] at this

/-- An invariant of the steps with what they show holds in every run. -/
theorem Reach.heartbeat {I : Conn → List Beat → Prop} (hinit : ∀ frame, I (Conn.start S frame) [])
    (hstep : ∀ c c' log b, I c log → Beats S c b c' → I c' (log ++ b.toList)) {c : Conn}
    {log : List Beat} (h : (heartbeatSys S).Reach Sys.Any (c, log)) : I c log := by
  refine h.invariant (I := fun p => I p.1 p.2) ?_ ?_
  · rintro ⟨c, log⟩ ⟨⟨frame, rfl⟩, rfl⟩
    exact hinit frame
  · rintro ⟨c, log⟩ a ⟨c', log'⟩ - hi hs -
    obtain ⟨hstep', hlog⟩ := Sys.logged_step hs
    dsimp only at hlog hstep'
    rw [hlog]
    exact hstep c c' log _ hi (step_beats hstep')

theorem Reach.awaits {c : Conn} {log : List Beat}
    (h : (heartbeatSys S).Reach Sys.Any (c, log)) : Awaits S c log :=
  Reach.heartbeat (I := Awaits S) (fun _ => nofun) (fun _ _ _ _ hi hb => hi.beats hb) h

/-- Without an idle timeout the loop ends after a year. With a ping interval of half a year or more,
that is before the ping timer fires for the second time. -/
structure EndsFirst (S : Setup) (c : Conn) : Prop where
  begun : c.awaitingPong = true → c.pc.early = false
  first : c.idleAt ≤ c.pingAt + S.pingInterval
  second : c.awaitingPong = true → c.idleAt ≤ c.pingAt

section EndsFirst

variable {c c' : Conn} (hidle : S.idleEnabled = false)
  (hyear : S.idleDuration ≤ 2 * S.pingInterval)

include hidle hyear

theorem EndsFirst.rests (h : EndsFirst S c) (hr : Rests S c c') : EndsFirst S c' := by
  have hbegun : c'.awaitingPong = true → c'.pc.early = false := by
    intro ha
    rw [hr.awaiting] at ha
    have hc := h.begun ha
    cases he : c'.pc.early with
    | false => rfl
    | true =>
      rw [hr.early he] at hc
      exact hc
  rcases hr.timers with ⟨hp, hi⟩ | ⟨he, hp, hi⟩
  · have hi : c'.idleAt = c.idleAt := by
      rcases hi with hi | hi
      · exact hi
      · rw [hidle] at hi
        cases hi
    refine ⟨hbegun, by rw [hp, hi]; exact h.first, fun ha => ?_⟩
    rw [hr.awaiting] at ha
    rw [hp, hi]
    exact h.second ha
  · refine ⟨hbegun, by rw [hp, hi]; omega, fun ha => ?_⟩
    rw [hr.awaiting] at ha
    rw [h.begun ha] at he
    cases he

theorem EndsFirst.beats {b : Option Beat} (h : EndsFirst S c) (hb : Beats S c b c') :
    EndsFirst S c' := by
  cases hb with
  | rest hr => exact h.rests hidle hyear hr
  | timeout _ _ _ hr => exact h.rests hidle hyear hr
  | pong hr =>
    have hc : EndsFirst S { c with awaitingPong := false } := ⟨nofun, h.first, nofun⟩
    exact hc.rests hidle hyear hr
  | ping hf hr =>
    have hfires := Conn.pingFires_true hf
    have hlate : c.idleAt ≤ c.now + S.pingInterval :=
      h.first.trans (Nat.add_le_add_right hfires.due _)
    have hc : EndsFirst S { c with awaitingPong := true, pingAt := c.now + S.pingInterval } := by
      refine ⟨fun _ => ?_, hlate.trans (Nat.le_add_right _ _), fun _ => hlate⟩
      rw [hfires.pc]
      rfl
    exact hc.rests hidle hyear hr

theorem Reach.endsFirst {log : List Beat} (h : (heartbeatSys S).Reach Sys.Any (c, log)) :
    EndsFirst S c :=
  Reach.heartbeat (I := fun c _ => EndsFirst S c) (fun _ => ⟨nofun, Nat.zero_le _, nofun⟩)
    (fun _ _ _ _ hi hb => hi.beats hidle hyear hb) h

end EndsFirst

/-- The loop breaks with the pong timeout. -/
theorem beat_timeout {c : Conn} {a : Act} {time : Nat} (h : c.beat S a = some (.timeout time)) :
    time = c.now ∧ Conn.PingFires S c ∧ c.awaitingPong = true ∧
      S.pongTimeout < c.now - c.lastPong := by
  cases a with
  | main e =>
    unfold Conn.beat at h
    dsimp only at h
    split at h
    · split at h <;> cases h
    · cases h
    · split at h
      · next hf =>
        split at h
        · next hp =>
          cases h
          rw [Conn.pongTimedOut, Bool.and_eq_true, decide_eq_true_eq] at hp
          exact ⟨rfl, Conn.pingFires_true hf, hp⟩
        · cases h
      · cases h
  | _ => cases h

/-- A pong timeout that is shorter than the interval. -/
theorem overdue_of_short {c : Conn} {log : List Beat} {a : Act} {time : Nat}
    (h : (heartbeatSys S).Reach Sys.Any (c, log)) (hb : c.beat S a = some (.timeout time))
    (hshort : S.pongTimeout < S.pingInterval) : Overdue S log time := by
  obtain ⟨rfl, hfires, ha, -⟩ := beat_timeout hb
  obtain ⟨sent, hlatest, hnow, hping⟩ := Reach.awaits h ha
  have hdue := hfires.due
  exact ⟨sent, hlatest, by omega⟩

/-! ## A client that answers no ping -/

/-- Nothing to read, to write and to handle, and no pong yet. -/
structure Undisturbed (c : Conn) : Prop where
  wsBuf : c.wsBuf = []
  wire : c.wire = []
  data : c.data.items = []
  control : c.control.items = []
  continues : c.pendingContinues = []
  pending : c.streamsWithPending = []
  lastPong : c.lastPong = 0

theorem Reach.silent {c c' : Conn} {log : List Beat}
    (h : (heartbeatSys S).Reach Sys.Any (c, log)) (a : Act) (hs : step S c a = some c')
    (hb : c.beat S a = none) : (heartbeatSys S).Reach Sys.Any (c', log) := by
  refine .step a h ?_ trivial
  simp only [heartbeatSys, Sys.logged, sys, hs, hb, Option.map_some, Option.toList_none,
    List.append_nil]

/-- A step of the main task outside its `select!`. -/
theorem Reach.main {c c' : Conn} {log : List Beat} (h : (heartbeatSys S).Reach Sys.Any (c, log))
    (hpc : c.pc ≠ .select) (hh : c.handled S (.main {}) = none)
    (hs : c.stepMain S {} = some c') : (heartbeatSys S).Reach Sys.Any (c', log) := by
  refine Reach.silent h (.main {}) hs ?_
  exact Conn.beat_eq_none (by rw [hh]; nofun) (Conn.pingFires_eq_false hpc)

/-- The loop goes on to its `select!`. -/
theorem Undisturbed.turn {c : Conn} {log : List Beat} (hq : Undisturbed c) (hpc : c.pc = .inner)
    (h : (heartbeatSys S).Reach Sys.Any (c, log)) :
    ∃ c', (heartbeatSys S).Reach Sys.Any (c', log) ∧ Undisturbed c' ∧ c'.pc = .select ∧
      c'.pulse = c.pulse := by
  obtain ⟨hbuf, hwire, hdata, hctl, hcont, hpend, hlast⟩ := hq
  -- No stream has pending data, so Phase 0 has nothing to visit.
  have hpc₁ : (c.flushThen (.phase0 [] [] [])).pc = .phase0 [] [] [] := by
    simp only [Conn.flushThen, hcont, List.isEmpty_nil, Bool.true_or, if_true]
  have h₁ : (heartbeatSys S).Reach Sys.Any (c.flushThen (.phase0 [] [] []), log) := by
    refine Reach.main h (by rw [hpc]; rintro ⟨⟩) (by simp only [Conn.handled, hpc, hbuf]; rfl) ?_
    simp only [Conn.stepMain, hpc, hbuf, Conn.phase0Head, hpend]
  generalize hc₁ : c.flushThen (.phase0 [] [] []) = c₁ at h₁ hpc₁
  have h₂ : (heartbeatSys S).Reach Sys.Any ({ c₁ with pc := .phase0Dead [] }, log) :=
    Reach.main h₁ (by rw [hpc₁]; rintro ⟨⟩) (by simp only [Conn.handled, hpc₁])
      (by simp only [Conn.stepMain, hpc₁])
  have h₃ : (heartbeatSys S).Reach Sys.Any ({ c₁ with pc := .phase1 }, log) :=
    Reach.main h₂ (by rintro ⟨⟩) rfl rfl
  have h₄ : (heartbeatSys S).Reach Sys.Any ({ c₁ with pc := .phase1 }.writeBatch .select, log) := by
    refine Reach.main h₃ (by rintro ⟨⟩) rfl ?_
    have hrecv : c₁.control.tryRecv = none := by
      rw [← hc₁, Chan.tryRecv_none]
      exact hctl
    simp only [Conn.stepMain, hrecv]
  refine ⟨_, h₄, ?_, ?_, ?_⟩
  · rw [← hc₁]
    exact ⟨hbuf, hwire, rfl, hctl, rfl, hpend, hlast⟩
  · have hempty : c₁.data.items = [] := by
      rw [← hc₁]
      exact hdata
    simp only [Conn.writeBatch, hempty, List.isEmpty_nil, Bool.true_or, if_true]
  · rw [← hc₁]
    rfl

/-- The loop, which began at the time `began`, waits in its `select!` at the time `now`, with a pong
awaited or not. -/
structure Pauses (S : Setup) (began now : Nat) (awaiting : Bool) (pingAt : Nat) (c : Conn) :
    Prop where
  still : Undisturbed c
  pc : c.pc = .select
  now_eq : c.now = now
  awaiting_eq : c.awaitingPong = awaiting
  pingAt_eq : c.pingAt = pingAt
  idle : S.idleEnabled = true → now < c.idleAt
  noIdle : S.idleEnabled = false → c.idleAt = began + S.idleDuration

theorem pingInterval_eq (h : S.pingEnabled = true) :
    S.pingInterval = secs S.config.wsPingIntervalSecs := by
  rw [Setup.pingInterval, h, if_pos rfl]

/-- A year. -/
theorem idleDuration_disabled (h : S.idleEnabled = false) :
    S.idleDuration = secs (365 * 24 * 3600) := by
  rw [Setup.idleDuration, h, if_neg Bool.false_ne_true]

theorem idleDuration_pos (h : S.idleEnabled = true) : 0 < S.idleDuration := by
  have hidle : 0 < S.config.idleTimeoutSecs := of_decide_eq_true h
  simp only [Setup.idleDuration, h, if_true, secs]
  omega

theorem Pauses.of_pulse {began now pingAt idleAt : Nat} {awaiting : Bool} {c : Conn}
    (hq : Undisturbed c) (hpc : c.pc = .select) (h : c.pulse = (awaiting, pingAt, idleAt, now))
    (hidle : S.idleEnabled = true → now < idleAt)
    (hno : S.idleEnabled = false → idleAt = began + S.idleDuration) :
    Pauses S began now awaiting pingAt c := by
  simp only [Conn.pulse, Prod.mk.injEq] at h
  obtain ⟨ha, hp, hi, hn⟩ := h
  exact ⟨hq, hpc, hn, ha, hp, by rwa [hi], by rwa [hi]⟩

/-- The handshake takes the time `began`, then the loop begins. -/
theorem Pauses.start (S : Setup) (began : Nat) :
    ∃ c, (heartbeatSys S).Reach Sys.Any (c, []) ∧
      Pauses S began began false (began + S.pingInterval) c := by
  have h₀ : (heartbeatSys S).Reach Sys.Any (Conn.start S none, []) := .init ⟨⟨none, rfl⟩, rfl⟩
  have h₁ : (heartbeatSys S).Reach Sys.Any ({ Conn.start S none with now := began }, []) := by
    refine Reach.silent h₀ (.tick began) ?_ rfl
    simp only [step, Conn.start, Nat.zero_add]
  have h₂ : (heartbeatSys S).Reach Sys.Any
      ({ Conn.start S none with now := began }.finish S .deferred, []) :=
    Reach.main h₁ (by rintro ⟨⟩) rfl rfl
  unfold Conn.finish at h₂
  dsimp only at h₂
  have hpos := idleDuration_pos (S := S)
  generalize S.pingInterval = ping at h₂ ⊢
  generalize hdur : S.idleDuration = idle at h₂ hpos
  obtain ⟨c, hc, hq, hpc, hpulse⟩ := Undisturbed.turn ⟨rfl, rfl, rfl, rfl, rfl, rfl, rfl⟩ rfl h₂
  refine ⟨c, hc, .of_pulse hq hpc hpulse (fun hen => Nat.lt_add_of_pos_right (hpos hen)) ?_⟩
  rw [hdur]
  exact fun _ => rfl

/-- A text frame. The server ignores it, but it restarts the idle timer. -/
def textFrame : WsInput := .frame { opcode := .text, payload := [] }

theorem read_textFrame (limit : Nat) :
    readWispFrame limit textFrame = some (.control { opcode := .text, payload := [] }) := by
  simp only [readWispFrame, readFrameInner, textFrame, checkFrame, OpCode.isControl]
  rfl

theorem pulse_resetIdle (c : Conn) :
    (c.resetIdle S).pulse = (c.awaitingPong, c.pingAt,
      if S.idleEnabled then c.now + S.idleDuration else c.idleAt, c.now) := by
  unfold Conn.resetIdle
  split <;> rfl

theorem Undisturbed.resetIdle {c : Conn} (hq : Undisturbed c) : Undisturbed (c.resetIdle S) := by
  obtain ⟨hbuf, hwire, hdata, hctl, hcont, hpend, hlast⟩ := hq
  unfold Conn.resetIdle
  split
  · exact ⟨hbuf, hwire, hdata, hctl, hcont, hpend, hlast⟩
  · exact ⟨hbuf, hwire, hdata, hctl, hcont, hpend, hlast⟩

/-- An inbound frame that changes nothing. -/
theorem Undisturbed.finish {c : Conn} (hq : Undisturbed c) :
    Undisturbed (c.finish S .select) ∧ (c.finish S .select).pc = .inner ∧
      (c.finish S .select).pulse = c.pulse := by
  obtain ⟨hbuf, hwire, hdata, hctl, hcont, hpend, hlast⟩ := hq
  unfold Conn.finish
  refine ⟨⟨hbuf, hwire, hdata, hctl, rfl, hpend, hlast⟩, ?_, rfl⟩
  simp only [Conn.flushThen, hcont, List.isEmpty_nil, Bool.true_or, if_true]

/-- The client sends a text frame after the time `d`. -/
theorem Pauses.hear {began now pingAt : Nat} {awaiting : Bool} {c : Conn} {log : List Beat}
    (hp : Pauses S began now awaiting pingAt c) (h : (heartbeatSys S).Reach Sys.Any (c, log))
    (d : Nat) :
    ∃ c', (heartbeatSys S).Reach Sys.Any (c', log) ∧
      Pauses S began (now + d) awaiting pingAt c' := by
  obtain ⟨⟨hbuf, hwire, hdata, hctl, hcont, hpend, hlast⟩, hpc, hnow, ha, hping, hidle, hno⟩ := hp
  have h₁ : (heartbeatSys S).Reach Sys.Any ({ c with now := c.now + d }, log) :=
    Reach.silent h (.tick d) rfl rfl
  have h₂ : (heartbeatSys S).Reach Sys.Any
      ({ c with now := c.now + d, wire := [textFrame] }, log) := by
    refine Reach.silent h₁ (.client textFrame) ?_ rfl
    simp only [step, hwire, List.nil_append]
    rfl
  generalize hd : { c with now := c.now + d, wire := [textFrame] } = c₂ at h₂
  have hpc₂ : c₂.pc = .select := by rw [← hd]; exact hpc
  have hbuf₂ : c₂.wsBuf = [] := by rw [← hd]; exact hbuf
  have hwire₂ : c₂.wire = [textFrame] := by rw [← hd]
  have h₃ : (heartbeatSys S).Reach Sys.Any
      (({ c₂ with wsBuf := [], wire := [], tried := [] }.resetIdle S).finish S .select, log) := by
    refine Reach.silent h₂ (.main {}) ?_ ?_
    · simp only [step, Conn.stepMain, hpc₂, Conn.stepSelect, hbuf₂, hwire₂, read_textFrame,
        Conn.handleInbound, List.take_nil, List.drop_nil]
    · refine Conn.beat_eq_none ?_ ?_
      · have hh : c₂.handled S (.main {}) = readWispFrame S.frameLimit textFrame := by
          simp only [Conn.handled, hpc₂, hbuf₂, hwire₂]
          rfl
        rw [hh, read_textFrame]
        rintro f ⟨⟩
        rintro ⟨⟩
      · simp only [Conn.pingFires, hbuf₂, hwire₂, List.nil_append, List.isEmpty_cons, Bool.and_false,
          Bool.false_and]
  have hq : Undisturbed { c₂ with wsBuf := [], wire := [], tried := [] } := by
    rw [← hd]
    exact ⟨rfl, rfl, hdata, hctl, hcont, hpend, hlast⟩
  obtain ⟨hq₃, hpc₃, hpulse₃⟩ := hq.resetIdle.finish (S := S)
  obtain ⟨c', hc', hq', hpc', hpulse'⟩ := hq₃.turn hpc₃ h₃
  rw [hpulse₃, pulse_resetIdle] at hpulse'
  have hnow₂ : c₂.now = now + d := by rw [← hd, ← hnow]
  have ha₂ : c₂.awaitingPong = awaiting := by rw [← hd, ← ha]
  have hping₂ : c₂.pingAt = pingAt := by rw [← hd, ← hping]
  have hidle₂ : c₂.idleAt = c.idleAt := by rw [← hd]
  simp only [hnow₂, ha₂, hping₂, hidle₂] at hpulse'
  refine ⟨c', hc', .of_pulse hq' hpc' hpulse' (fun hen => ?_) fun hen => ?_⟩
  · rw [if_pos hen]
    exact Nat.lt_add_of_pos_right (idleDuration_pos hen)
  · rw [if_neg (by rw [hen]; rintro ⟨⟩)]
    exact hno hen

/-- The client sends a text frame every second. -/
theorem Pauses.wait {began now pingAt : Nat} {awaiting : Bool} {c : Conn} {log : List Beat}
    (hp : Pauses S began now awaiting pingAt c) (h : (heartbeatSys S).Reach Sys.Any (c, log))
    (n : Nat) :
    ∃ c', (heartbeatSys S).Reach Sys.Any (c', log) ∧
      Pauses S began (now + secs n) awaiting pingAt c' := by
  induction n with
  | zero => exact ⟨c, h, by simpa only [secs, Nat.zero_mul, Nat.add_zero] using hp⟩
  | succ n ih =>
    obtain ⟨c₁, h₁, hp₁⟩ := ih
    obtain ⟨c₂, h₂, hp₂⟩ := hp₁.hear h₁ (secs 1)
    refine ⟨c₂, h₂, ?_⟩
    rwa [Nat.add_assoc, ← show secs (n + 1) = secs n + secs 1 from Nat.add_mul _ _ _] at hp₂

section Fires

variable {began now : Nat} {awaiting : Bool} {c : Conn} (hp : Pauses S began now awaiting now c)
  (hen : S.pingEnabled = true) (hyear : S.idleEnabled = false → now < began + S.idleDuration)

include hp

theorem Pauses.handled : c.handled S (.main {}) = none := by
  simp only [Conn.handled, hp.pc, hp.still.wsBuf, hp.still.wire]
  rfl

/-- Nothing but the timers wakes the main task. -/
theorem Pauses.step_eq : step S c (.main {}) = { c with tried := [] }.stepTimers S := by
  simp only [step, Conn.stepMain, hp.pc, Conn.stepSelect, hp.still.wsBuf, hp.still.wire,
    hp.still.data, Chan.tryRecv_none.mpr hp.still.control, ne_eq, not_true_eq_false, if_false]

include hyear

theorem Pauses.notIdle : now < c.idleAt := by
  cases hidle : S.idleEnabled with
  | true => exact hp.idle hidle
  | false =>
    rw [hp.noIdle hidle]
    exact hyear hidle

include hen

theorem Pauses.fires : c.pingFires S = true := by
  have hidle := hp.notIdle hyear
  simp [Conn.pingFires, hp.pc, hp.still.wsBuf, hp.still.wire, hp.still.data, hp.still.control, hen,
    hp.now_eq, hp.pingAt_eq, hidle]

/-- What the ping timer does depends on the awaited pong alone. -/
theorem Pauses.step_timer :
    step S c (.main {}) =
      if awaiting && decide (S.pongTimeout < now) then some { c with tried := [], pc := .ended }
      else some { { c with tried := [] }.write .ping with
        awaitingPong := true, pingAt := now + S.pingInterval, pc := .inner } := by
  have hfull : S.full = true := by rw [Setup.full, hen, Bool.or_true]
  have hidle := Nat.not_le.mpr (hp.notIdle hyear)
  rw [hp.step_eq]
  simp only [Conn.stepTimers, hfull, hen, hp.now_eq, hp.pingAt_eq, hp.awaiting_eq,
    hp.still.lastPong, Nat.sub_zero, hidle, Nat.le_refl, Bool.not_true, Bool.false_eq_true,
    if_false, if_true]

end Fires

/-- The ping timer fires. -/
theorem Pauses.ping {began now : Nat} {c : Conn} {log : List Beat}
    (hp : Pauses S began now false now c) (h : (heartbeatSys S).Reach Sys.Any (c, log))
    (hen : S.pingEnabled = true) (hyear : S.idleEnabled = false → now < began + S.idleDuration) :
    ∃ c', (heartbeatSys S).Reach Sys.Any (c', log ++ [.ping now]) ∧
      Pauses S began now true (now + S.pingInterval) c' := by
  have hidle := hp.notIdle hyear
  have hbeat : c.beat S (.main {}) = some (.ping now) := by
    simp only [Conn.beat, hp.handled, hp.fires hen hyear, if_true, Conn.pongTimedOut, hp.awaiting_eq,
      hp.now_eq, Bool.false_and, Bool.false_eq_true, if_false]
  obtain ⟨hbuf, hwire, hdata, hctl, hcont, hpend, hlast⟩ := hp.still
  obtain ⟨c₁, hs, hq, hpc, hpulse⟩ : ∃ c₁, step S c (.main {}) = some c₁ ∧ Undisturbed c₁ ∧
      c₁.pc = .inner ∧ c₁.pulse = (true, now + S.pingInterval, c.idleAt, now) := by
    refine ⟨{ { c with tried := [] }.write .ping with
      awaitingPong := true, pingAt := now + S.pingInterval, pc := .inner }, ?_, ?_, rfl, ?_⟩
    · rw [hp.step_timer hen hyear, Bool.false_and, if_neg Bool.false_ne_true]
    · exact ⟨hbuf, hwire, hdata, hctl, hcont, hpend, hlast⟩
    · rw [← hp.now_eq]
      rfl
  have h₁ : (heartbeatSys S).Reach Sys.Any (c₁, log ++ [.ping now]) := by
    refine .step (.main {}) h ?_ trivial
    simp only [heartbeatSys, Sys.logged, sys, hs, hbeat, Option.map_some, Option.toList_some]
  obtain ⟨c', hc', hq', hpc', hpulse'⟩ := hq.turn hpc h₁
  exact ⟨c', hc', .of_pulse hq' hpc' (hpulse'.trans hpulse) (fun _ => hidle) hp.noIdle⟩

/-- The ping timer fires again, and the last pong is older than the timeout. -/
theorem Pauses.timeout {began now : Nat} {c : Conn} (hp : Pauses S began now true now c)
    (hen : S.pingEnabled = true) (hyear : S.idleEnabled = false → now < began + S.idleDuration)
    (hout : S.pongTimeout < now) :
    c.beat S (.main {}) = some (.timeout now) ∧ ∃ c', step S c (.main {}) = some c' := by
  refine ⟨?_, { c with tried := [], pc := .ended }, ?_⟩
  · simp only [Conn.beat, hp.handled, hp.fires hen hyear, if_true, Conn.pongTimedOut, hp.awaiting_eq,
      hp.now_eq, hp.still.lastPong, Nat.sub_zero, hout, decide_true, Bool.and_self]
  · rw [hp.step_timer hen hyear, Bool.true_and, if_pos (decide_eq_true hout)]

/-- A ping that is the only event. -/
theorem overdue_singleton {sent time : Nat} (h : Overdue S [.ping sent] time) :
    S.pongTimeout < time - sent := by
  obtain ⟨sent', ⟨before, after, hlog, -⟩, hlt⟩ := h
  cases before with
  | nil =>
    cases hlog
    exact hlt
  | cons b before =>
    rw [List.cons_append, List.cons.injEq] at hlog
    exact absurd hlog.2.symm (by simp)

/-- A client that sends text frames and no pong is timed out an interval after its first ping,
however long the timeout is. -/
theorem timeout_after_interval (S : Setup) (hint : 1 ≤ S.config.wsPingIntervalSecs)
    (hyear : S.config.idleTimeoutSecs = 0 → 2 * S.config.wsPingIntervalSecs < 365 * 24 * 3600) :
    ∃ c c' sent, (heartbeatSys S).Reach Sys.Any (c, [.ping sent]) ∧
      step S c (.main {}) = some c' ∧
      c.beat S (.main {}) = some (.timeout (sent + secs S.config.wsPingIntervalSecs)) := by
  have hen : S.pingEnabled = true := decide_eq_true hint
  have hping := pingInterval_eq hen
  have hidle : S.idleEnabled = false →
      2 * secs S.config.wsPingIntervalSecs < S.idleDuration := by
    intro hno
    have hzero : S.config.idleTimeoutSecs = 0 := by
      have : ¬ 0 < S.config.idleTimeoutSecs := of_decide_eq_false hno
      omega
    have := hyear hzero
    rw [idleDuration_disabled hno, secs, secs]
    omega
  have hpos : 0 < secs S.config.wsPingIntervalSecs := by
    simp only [secs]
    omega
  -- The handshake takes the pong timeout, so the last pong is old enough at the second ping.
  obtain ⟨c₀, h₀, hp₀⟩ := Pauses.start S S.pongTimeout
  obtain ⟨c₁, h₁, hp₁⟩ := hp₀.wait h₀ S.config.wsPingIntervalSecs
  rw [hping] at hp₁
  obtain ⟨c₂, h₂, hp₂⟩ := hp₁.ping h₁ hen fun hno => by
    have := hidle hno
    omega
  obtain ⟨c₃, h₃, hp₃⟩ := hp₂.wait h₂ S.config.wsPingIntervalSecs
  rw [hping] at hp₃
  obtain ⟨hbeat, c', hs⟩ := hp₃.timeout hen (fun hno => by have := hidle hno; omega) (by omega)
  exact ⟨c₃, c', _, h₃, hs, hbeat⟩

/-- The loop breaks with the pong timeout only when a ping is overdue, in every run, exactly if the
timeout is shorter than the ping interval, or the idle timeout is disabled and the year after which
the loop then ends is over when the second ping is due. -/
theorem pongTimeout_overdue (S : Setup) (hint : 1 ≤ S.config.wsPingIntervalSecs) :
    (∀ c log a c' time, (heartbeatSys S).Reach Sys.Any (c, log) → step S c a = some c' →
      c.beat S a = some (.timeout time) → Overdue S log time) ↔
      S.config.wsPongTimeoutSecs < S.config.wsPingIntervalSecs ∨
      S.config.idleTimeoutSecs = 0 ∧ 365 * 24 * 3600 ≤ 2 * S.config.wsPingIntervalSecs := by
  have hen : S.pingEnabled = true := decide_eq_true hint
  have hping := pingInterval_eq hen
  constructor
  · intro hall
    by_contra hcond
    rw [not_or, not_and, Nat.not_lt, Nat.not_le] at hcond
    obtain ⟨hlong, hyear⟩ := hcond
    obtain ⟨c, c', sent, hr, hs, hb⟩ := timeout_after_interval S hint hyear
    have hlt := overdue_singleton (hall c _ _ c' _ hr hs hb)
    simp only [Setup.pongTimeout, secs] at hlt
    omega
  · rintro (hshort | ⟨hno, hyear⟩) c log a c' time hr hs hb
    · refine overdue_of_short hr hb ?_
      rw [hping, Setup.pongTimeout, secs, secs]
      omega
    · obtain ⟨rfl, hfires, ha, -⟩ := beat_timeout hb
      have hidle : S.idleEnabled = false := by rw [Setup.idleEnabled, hno]; rfl
      have hdur : S.idleDuration ≤ 2 * S.pingInterval := by
        rw [hping, idleDuration_disabled hidle, secs, secs]
        omega
      have hsecond := (Reach.endsFirst hidle hdur hr).second ha
      have := hfires.notIdle
      have := hfires.due
      omega

/-- With a ping every 30 seconds: a client that sends nothing, until the ping timer is due for the
second time. -/
def silentClient : List Act :=
  List.replicate 5 (.main {}) ++ .tick (secs 30) :: List.replicate 5 (.main {}) ++ [.tick (secs 30)]

/-- The run of the silent client, where the loop breaks with the pong timeout. -/
theorem Reach.of_silentClient (S : Setup)
    (h : ((heartbeatSys S).run Sys.Any (Conn.start S none, []) silentClient).any
      (fun p => p.2 = [.ping (secs 30)] ∧ (step S p.1 (.main {})).isSome = true ∧
        p.1.beat S (.main {}) = some (.timeout (secs 60))) = true) :
    ∃ c c', (heartbeatSys S).Reach Sys.Any (c, [.ping (secs 30)]) ∧
      step S c (.main {}) = some c' ∧ c.beat S (.main {}) = some (.timeout (secs 60)) := by
  obtain ⟨⟨c, log⟩, hp, hany⟩ := (Option.any_eq_true _ _).mp h
  obtain ⟨hlog, hsome, hbeat⟩ := of_decide_eq_true hany
  cases hlog
  obtain ⟨c', hs⟩ := Option.isSome_iff_exists.mp hsome
  exact ⟨c, c', Sys.Reach.of_run (.init (by exact ⟨⟨none, rfl⟩, rfl⟩)) hp, hs, hbeat⟩

/-- A ping every 30 seconds, and the default pong timeout of 10 seconds. -/
def quickPong : Setup := { config := { wsPingIntervalSecs := 30 } }

theorem pongTimeout_overdue_quick :
    ∃ c c', (heartbeatSys quickPong).Reach Sys.Any (c, [.ping (secs 30)]) ∧
      step quickPong c (.main {}) = some c' ∧
      c.beat quickPong (.main {}) = some (.timeout (secs 60)) ∧
      Overdue quickPong [.ping (secs 30)] (secs 60) := by
  obtain ⟨c, c', hr, hs, hb⟩ := Reach.of_silentClient quickPong (by decide +kernel)
  have hall := (pongTimeout_overdue quickPong (by decide)).mpr (.inl (by decide))
  exact ⟨c, c', hr, hs, hb, hall c _ _ c' _ hr hs hb⟩

/-- A ping every 30 seconds, and a pong timeout of 40 seconds. -/
def slowPong : Setup := { config := { wsPingIntervalSecs := 30, wsPongTimeoutSecs := 40 } }

/-- The first ping is sent after 30 seconds, and the loop breaks with the pong timeout 30 seconds
later. -/
theorem pongTimeout_early :
    ∃ c c', (heartbeatSys slowPong).Reach Sys.Any (c, [.ping (secs 30)]) ∧
      step slowPong c (.main {}) = some c' ∧
      c.beat slowPong (.main {}) = some (.timeout (secs 60)) ∧
      ¬ Overdue slowPong [.ping (secs 30)] (secs 60) := by
  obtain ⟨c, c', hr, hs, hb⟩ := Reach.of_silentClient slowPong (by decide +kernel)
  refine ⟨c, c', hr, hs, hb, ?_⟩
  intro h
  exact absurd (overdue_singleton h) (by decide)

end ShrimpWisp
