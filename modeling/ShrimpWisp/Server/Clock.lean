import ShrimpWisp.Server.Connection
import ShrimpWisp.Server.Resolver

/-!
# The clock of a connection

The main task adds durations to `Instant::now()`: the idle timeout and the ping interval to set their
timers, and the time to live of a resolved name. The configuration does not bound any of them. A sum
past the last `Instant` panics, and with `panic = "abort"` the process ends; only the `sleep`s with
which the loop begins take a time 30 years ahead instead.

* `Conn.sums`: the durations that a step adds to the time.
* `Conn.Fits`: no sum of a step is past the last `Instant`. What the code does while its clock does
  not run out are the runs whose steps all fit.
* `finish_deferred_of_fits`, `resetIdle_of_fits`, `stepTimers_of_fits`: in these, the timers of the
  model stand where the code's own sums (`addInstant`, `sleepUntil`) put them.
-/

namespace ShrimpWisp

/-- Before the loop. -/
def Pc.early : Pc → Bool
  | .start _ => true
  | .resolvingTcp site .. => site == .deferred
  | .resolvingUdp site .. => site == .deferred
  | .sending site _ => site == .deferred
  | _ => false

namespace Conn

variable (S : Setup)

/-- The frame that the main task takes next. -/
def nextFrame (c : Conn) : Option (Site × WsInput) :=
  match c.pc with
  | .inner => c.wsBuf.head?.map fun i => (.inner, i)
  | .select => (c.wsBuf ++ c.wire).head?.map fun i => (.select, i)
  | _ => none

/-- The `select!` takes the branch of its ping timer, with pings enabled. -/
def pingFires (c : Conn) : Bool :=
  c.pc == .select && (c.wsBuf ++ c.wire).isEmpty && c.data.items.isEmpty &&
    c.control.items.isEmpty && S.pingEnabled && decide (c.now < c.idleAt) &&
    decide (c.pingAt ≤ c.now)

/-- The last pong is older than the pong timeout, and a pong is awaited. -/
def pongTimedOut (c : Conn) : Bool :=
  c.awaitingPong && decide (S.pongTimeout < c.now - c.lastPong)

/-- The answer of the resolver goes to the cache. -/
def caches (c : Conn) (hostname : Str) (port : UInt16) (answer : Answer) : Bool :=
  (resolveLookup c.dns c.now hostname port answer).isOk

/-- The main task awaits the resolver, which answers with addresses. -/
def completesLookup (c : Conn) (e : Env) : Bool :=
  match c.pc with
  | .resolvingTcp _ _ connect _ none => c.caches connect.hostname connect.port e.answer
  | .resolvingUdp _ _ connect none => c.caches connect.hostname connect.port e.answer
  | _ => false

/-- The durations that an action adds to the time. Those of the timers with which the full loop begins
count at each step before it. -/
def sums (c : Conn) : Act → List Nat
  | .main e =>
    (if S.full && c.pc.early then [S.idleDuration, S.pingInterval] else []) ++
    (if c.nextFrame.isSome && S.idleEnabled then [S.idleDuration] else []) ++
    (if c.pingFires S && !c.pongTimedOut S then [S.pingInterval] else []) ++
    if c.completesLookup e then [c.dns.ttl] else []
  | .otherResolve hostname port answer => if c.caches hostname port answer then [c.dns.ttl] else []
  | _ => []

/-- No sum of the action is past the last `Instant`. -/
def Fits (c : Conn) (a : Act) : Prop := ∀ d ∈ c.sums S a, c.now + d ≤ S.last

instance (c : Conn) (a : Act) : Decidable (c.Fits S a) :=
  inferInstanceAs (Decidable (∀ d ∈ c.sums S a, c.now + d ≤ S.last))

variable {S} {c : Conn} {e : Env}

/-- Both timers can be set. -/
theorem Fits.opening (h : c.Fits S (.main e)) (hfull : S.full = true) (hearly : c.pc.early = true) :
    c.now + S.idleDuration ≤ S.last ∧ c.now + S.pingInterval ≤ S.last := by
  simp only [Fits, sums, hfull, hearly, Bool.and_self, if_true, List.mem_append] at h
  exact ⟨h _ (.inl (.inl (.inl (by simp)))), h _ (.inl (.inl (.inl (by simp))))⟩

/-- The idle timer can be restarted. -/
theorem Fits.frame (h : c.Fits S (.main e)) (hn : c.nextFrame.isSome = true)
    (hidle : S.idleEnabled = true) : c.now + S.idleDuration ≤ S.last := by
  simp only [Fits, sums, hn, hidle, Bool.and_self, if_true, List.mem_append] at h
  exact h _ (.inl (.inl (.inr (by simp))))

/-- The ping timer can be restarted. -/
theorem Fits.ping (h : c.Fits S (.main e)) (hfires : c.pingFires S = true)
    (hpong : c.pongTimedOut S = false) : c.now + S.pingInterval ≤ S.last := by
  simp only [Fits, sums, hfires, hpong, Bool.not_false, Bool.and_self, if_true,
    List.mem_append] at h
  exact h _ (.inl (.inr (by simp)))

/-- A resolved name can be cached. -/
theorem Fits.lookup (h : c.Fits S (.main e)) (hl : c.completesLookup e = true) :
    c.now + c.dns.ttl ≤ S.last := by
  simp only [Fits, sums, hl, if_true, List.mem_append] at h
  exact h _ (.inr (by simp))

/-! ## The code's sums -/

/-- The time at which `tokio::time::sleep` is over. -/
def sleepUntil (last now d : Nat) : Nat :=
  match Resolver.addInstant last now d with
  | .ok time => time
  | .error _ => now + secs (86400 * 365 * 30)

theorem addInstant_of_le {last now d : Nat} (h : now + d ≤ last) :
    Resolver.addInstant last now d = .ok (now + d) := if_pos h

theorem sleepUntil_of_le {last now d : Nat} (h : now + d ≤ last) :
    sleepUntil last now d = now + d := by
  rw [sleepUntil, addInstant_of_le h]

/-- The timers with which the full loop begins. -/
theorem finish_deferred_of_fits (h : c.Fits S (.main e)) (hfull : S.full = true)
    (hearly : c.pc.early = true) :
    (c.finish S .deferred).idleAt = sleepUntil S.last c.now S.idleDuration ∧
      (c.finish S .deferred).pingAt = sleepUntil S.last c.now S.pingInterval := by
  obtain ⟨hidle, hping⟩ := h.opening hfull hearly
  rw [sleepUntil_of_le hidle, sleepUntil_of_le hping]
  exact ⟨rfl, rfl⟩

/-- The idle timer after a frame. -/
theorem resetIdle_of_fits (h : c.Fits S (.main e)) (hn : c.nextFrame.isSome = true)
    (hidle : S.idleEnabled = true) :
    Resolver.addInstant S.last c.now S.idleDuration = .ok (c.resetIdle S).idleAt := by
  rw [addInstant_of_le (h.frame hn hidle), resetIdle, if_pos hidle]

/-- The ping timer after a ping. -/
theorem stepTimers_of_fits (h : c.Fits S (.main e)) (hfires : c.pingFires S = true)
    (hpong : c.pongTimedOut S = false) {c' : Conn} (hs : c.stepTimers S = some c') :
    Resolver.addInstant S.last c.now S.pingInterval = .ok c'.pingAt := by
  rw [addInstant_of_le (h.ping hfires hpong)]
  simp only [pingFires, Bool.and_eq_true, decide_eq_true_eq] at hfires
  obtain ⟨⟨⟨-, hen⟩, hidle⟩, hdue⟩ := hfires
  have hfull : S.full = true := by rw [Setup.full, hen, Bool.or_true]
  unfold pongTimedOut at hpong
  simp only [stepTimers, hfull, hen, hpong, Nat.not_le.mpr hidle, hdue, Bool.not_true,
    Bool.false_eq_true, if_false, if_true, Option.some.injEq] at hs
  rw [← hs]

end Conn

end ShrimpWisp
