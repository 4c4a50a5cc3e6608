import ShrimpWisp.Lib.Sys
import ShrimpWisp.Server.Dns

/-!
# Name resolution by the tasks of a worker (`src/server/dns.rs`, `dns_resolve_no_hold`)

The connections of a worker share one DNS cache. `Server/Dns.lean` has the two parts of a call for
one connection, over a cache whose entries are not empty. Here are the calls of all tasks in any
order, over the cache as the code has it: an entry is any list of addresses, and `addrs[0]` panics
if it is empty.

* `DnsCache`, `CacheEntry`: the cache. `getCached` and `insertResolved` return the panic, of the
  index or of `Instant + Duration`; the parameter `last` is the last `Instant`.
* `Worker.begin`, `Worker.resume`: a call up to its await, and after it. Between the two any other
  call can begin or resume.
* `sys`: the worker as a transition system. The time may pass before each step; the environment
  chooses the calls, the resolver's answers and the call that is answered. A panic aborts the
  process; in the model the run can go on, so there are more runs.
* `Event`: what a step of a call shows.
-/

namespace ShrimpWisp

namespace Resolver

/-- A panic of the code. -/
inductive Panic where
  /-- `addrs[0]` of an empty list. -/
  | index
  /-- `Instant + Duration` past the last `Instant`. -/
  | overflow
  deriving DecidableEq, Repr

/-- `CacheEntry` (module doc). -/
structure CacheEntry where
  addrs : List IpAddr
  expiresAt : Nat
  deriving DecidableEq, Repr

/-- `DnsCache` (module doc). -/
structure DnsCache where
  cache : List (Str × CacheEntry)
  ttl : Nat
  ipv4First : Bool
  deriving DecidableEq, Repr

/-- `addrs[0]`. -/
def first : List IpAddr → Except Panic IpAddr
  | [] => .error .index
  | ip :: _ => .ok ip

/-- `Instant + Duration`. -/
def addInstant (last now d : Nat) : Except Panic Nat :=
  if now + d ≤ last then .ok (now + d) else .error .overflow

namespace DnsCache

def new (config : ServerConfig) : DnsCache where
  cache := []
  ttl := secs config.dnsTtl
  ipv4First := config.dnsResultOrder == lit "ipv4first"

/-- `get_cached`. -/
def getCached (c : DnsCache) (now : Nat) (hostname : Str) : Except Panic (Option IpAddr) :=
  match c.cache.lookup hostname with
  | some entry => if now < entry.expiresAt then (first entry.addrs).map some else .ok none
  | none => .ok none

/-- `HashMap::insert`. -/
def insert (c : DnsCache) (hostname : Str) (entry : CacheEntry) : DnsCache :=
  { c with cache := (hostname, entry) :: c.cache.filter fun e => e.1 != hostname }

/-- `insert_resolved`. -/
def insertResolved (last : Nat) (c : DnsCache) (now : Nat) (hostname : Str) (addrs : List IpAddr) :
    Except Panic (IpAddr × DnsCache) := do
  let ip ← first addrs
  let expiresAt ← addInstant last now c.ttl
  .ok (ip, c.insert hostname ⟨addrs, expiresAt⟩)

end DnsCache

/-- A call that awaits `lookup_host`. The order is read before the await. -/
structure Call where
  hostname : Str
  port : UInt16
  ipv4First : Bool
  deriving DecidableEq, Repr

/-- A worker: its cache, the time and the calls that await their answer. -/
structure Worker where
  cache : DnsCache
  now : Nat := 0
  waiting : List Call := []
  deriving DecidableEq, Repr

/-- What a step of a call shows, with the time of it. -/
inductive Event where
  /-- The hostname is an IP literal. -/
  | literal (addr : SocketAddr)
  /-- The call is answered from the cache. -/
  | cached (hostname : Str) (addr : SocketAddr) (time : Nat)
  | awaits (hostname : Str)
  /-- The lookup is completed. -/
  | resolved (hostname : Str) (addr : SocketAddr) (time : Nat)
  | failed (e : DnsError)
  | panicked (p : Panic)
  deriving DecidableEq, Repr

/-- A completed lookup of the hostname. -/
def Event.Resolves (hostname : Str) (e : Event) : Prop :=
  ∃ addr time, e = .resolved hostname addr time

namespace Worker

/-- `dns_resolve_no_hold` up to its await. -/
def begin (s : Worker) (hostname : Str) (port : UInt16) : Event × Worker :=
  match parseIpAddr hostname with
  | some ip => (.literal ⟨ip, port⟩, s)
  | none =>
    match s.cache.getCached s.now hostname with
    | .error p => (.panicked p, s)
    | .ok (some ip) => (.cached hostname ⟨ip, port⟩ s.now, s)
    | .ok none =>
      (.awaits hostname,
        { s with waiting := s.waiting ++ [⟨hostname, port, s.cache.ipv4First⟩] })

/-- `dns_resolve_no_hold` after its await. -/
def resume (last : Nat) (s : Worker) (call : Call) (answer : Answer) : Event × Worker :=
  match lookupHost answer (lookupText call.hostname call.port) with
  | .error e => (.failed (.resolveFailed (call.hostname ++ lit ": " ++ e)), s)
  | .ok (sockAddrs, _) =>
    if sockAddrs.isEmpty then (.failed (.noAddresses call.hostname), s)
    else
      match s.cache.insertResolved last s.now call.hostname
          (orderAddrs call.ipv4First (sockAddrs.map (·.ip))) with
      | .error p => (.panicked p, s)
      | .ok (ip, cache) => (.resolved call.hostname ⟨ip, call.port⟩ s.now, { s with cache })

end Worker

/-- A step of the worker, after the time `elapsed`. -/
inductive Action where
  | call (elapsed : Nat) (hostname : Str) (port : UInt16)
  /-- The call `i` of those that wait is answered. -/
  | answer (elapsed : Nat) (i : Nat) (answer : Answer)

/-- A step and what it shows. -/
def exec (last : Nat) (s : Worker) : Action → Option (Event × Worker)
  | .call elapsed hostname port => some ({ s with now := s.now + elapsed }.begin hostname port)
  | .answer elapsed i answer =>
    match s.waiting[i]? with
    | some call =>
      some ({ s with now := s.now + elapsed, waiting := s.waiting.eraseIdx i }.resume last call
        answer)
    | none => none

/-- The worker as a transition system. -/
def sys (last : Nat) (config : ServerConfig) : Sys Worker Action where
  init s := s = { cache := .new config }
  step s a := (exec last s a).map (·.2)

/-- The worker with the log of its events. -/
def loggedSys (last : Nat) (config : ServerConfig) : Sys (Worker × List Event) Action :=
  (sys last config).logged fun s a => (exec last s a).map (·.1)

end Resolver

end ShrimpWisp
