import ShrimpWisp.Lib.Sys
import ShrimpWisp.Lib.Window
import ShrimpWisp.Rust.Net
import ShrimpWisp.Server.Config

/-!
# The accept loop (`src/server/mod.rs`)

`accept_loop` of one worker. A connection is dropped when the worker has `max_connections` already,
and when its IP has used up its attempts in the current window; else its handler is spawned.

* **Events** (`AcceptEvent`): the listener returns a connection or an error, or a handler ends. Its
  last action is to count down `conn_count`, whether `handle_connection` returned an error or not.
  A panic aborts the process, so a handler ends in no other way.
* **Time** is given by what has passed since the last accept: `Instant::now()` never goes back.
* **History**: the numbers of the running handlers. No step reads them, except that a handler that
  is not running does not end.
* **Eviction** (`evicts`): which values of `accept_count` evict is a parameter of the loop; in the
  code it is every 1024th (`cleanupDue`).

Left out: socket options and log lines.
-/

namespace ShrimpWisp

/-- What becomes of a connection: it is dropped by the connection limit or by the limit of its IP,
or a handler is spawned for it. -/
inductive Admit where
  | capped
  | limited
  | admitted
  deriving DecidableEq, Repr

inductive AcceptEvent where
  | accept (peerAddr : SocketAddr) (elapsed : Nat)
  | acceptError
  | handlerDone (handler : Nat)
  deriving DecidableEq, Repr

/-- The variables of the loop. -/
structure AcceptLoop where
  now : Nat := 0
  connCount : Nat := 0
  ipRateMap : RateMap IpAddr := fun _ => none
  acceptCount : UInt64 := 0
  running : List Nat := []
  spawned : Nat := 0

/-- `accept_count & 1023 == 0`. -/
def cleanupDue (acceptCount : UInt64) : Bool := acceptCount &&& 1023 == 0

namespace AcceptLoop

variable (config : ServerConfig) (evicts : UInt64 → Bool) (s : AcceptLoop)

/-- The per-IP limit: whether the connection goes on. A connection over the limit does not count
for the eviction. -/
def checkIp (maxPerIp connWindow : Nat) (ip : IpAddr) : Bool × AcceptLoop :=
  if 0 < maxPerIp then
    let (count, ipRateMap) := s.ipRateMap.hit connWindow ip s.now
    let s := { s with ipRateMap }
    if maxPerIp < count then (false, s)
    else
      let s := { s with acceptCount := s.acceptCount + 1 }
      if evicts s.acceptCount then
        (true, { s with ipRateMap := s.ipRateMap.retain connWindow s.now })
      else (true, s)
  else (true, s)

/-- The counter goes up and a handler is spawned. -/
def spawnHandler : AcceptLoop :=
  { s with connCount := s.connCount + 1, running := s.running ++ [s.spawned]
           spawned := s.spawned + 1 }

/-- The connection limit drops a connection. -/
def AtLimit : Prop := 0 < config.maxConnections ∧ config.maxConnections ≤ s.connCount

instance : Decidable (s.AtLimit config) := inferInstanceAs (Decidable (_ ∧ _))

/-- `listener.accept()` returned a connection. -/
def accepted (peerAddr : SocketAddr) : Admit × AcceptLoop :=
  if s.AtLimit config then (.capped, s)
  else
    let connWindow := secs config.connectionWindowSecs
    let (ok, s) := s.checkIp evicts config.maxConnectionsPerIp connWindow peerAddr.ip
    if ok then (.admitted, s.spawnHandler) else (.limited, s)

/-- A handler ends. -/
def handlerDone (handler : Nat) : AcceptLoop :=
  if handler ∈ s.running then
    { s with connCount := s.connCount - 1, running := s.running.erase handler }
  else s

end AcceptLoop

/-- The accept loop: what it does with each connection. -/
def acceptLoop (config : ServerConfig) (evicts : UInt64 → Bool) :
    Obj AcceptLoop AcceptEvent (Option Admit) where
  exec s
    | .accept peerAddr elapsed =>
      let (decision, s) := { s with now := s.now + elapsed }.accepted config evicts peerAddr
      (some decision, s)
    | .acceptError => (none, s)
    | .handlerDone handler => (none, s.handlerDone handler)

end ShrimpWisp
