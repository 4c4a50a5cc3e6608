import Mathlib.Data.List.Destutter
import ShrimpWisp.Rust.Net
import ShrimpWisp.Server.Config

/-!
# Name resolution (`src/server/dns.rs`, `dns_resolve_no_hold`)

The per-worker DNS cache and the resolution of a CONNECT's hostname. `dns_resolve_no_hold` awaits
the OS resolver without holding the cache, so it has two parts: `resolveNow` before the await (an
IP literal or a cached address) and `resolveLookup` after it (the answer goes to the cache).

* **The resolver** (`lookupHost`) is `tokio::net::lookup_host`: a text that parses as a socket
  address is returned without any lookup, any other text is answered by the environment.
* **The time to live** is added to the time without a bound. `Instant::now() + self.ttl` panics past
  the last `Instant`: `Resolver` has the cache with its panics. While the sums fit, a lookup here is
  one there (`resume_of_fits`), and this cache is one that a worker reaches (`exists_worker`).
* **Where an address comes from** (`AddrSource`) is history, read by no function: the hostname
  itself as an IP literal, `lookup_host` reading the text as a socket address, or a name lookup.
-/

namespace ShrimpWisp

/-- Where a resolved address comes from (module doc). -/
inductive AddrSource where
  /-- The hostname is an IP literal. -/
  | literal
  /-- `lookup_host` parsed its text as a socket address. -/
  | spelled
  /-- The resolver looked up a name. -/
  | lookup
  deriving DecidableEq, Repr

/-- A cached result. It is never empty: its first address is used. -/
structure CacheEntry where
  addrs : List IpAddr
  expiresAt : Nat
  source : AddrSource
  nonempty : addrs ≠ []

/-- The first address of an entry. -/
def CacheEntry.first (e : CacheEntry) : IpAddr := e.addrs.head e.nonempty

/-- The DNS cache of a worker. -/
structure DnsCache where
  cache : List (Str × CacheEntry)
  ttl : Nat
  ipv4First : Bool

inductive DnsError where
  | resolveFailed (msg : Str)
  | noAddresses (hostname : Str)
  deriving DecidableEq, Repr

namespace DnsCache

def new (config : ServerConfig) : DnsCache where
  cache := []
  ttl := secs config.dnsTtl
  ipv4First := config.dnsResultOrder == lit "ipv4first"

/-- The first address of a cached hostname, if the entry has not expired. -/
def getCached (c : DnsCache) (now : Nat) (hostname : Str) : Option (IpAddr × AddrSource) :=
  match c.cache.lookup hostname with
  | some entry => if now < entry.expiresAt then some (entry.first, entry.source) else none
  | none => none

/-- Store a result. Returns its first address. -/
def insertResolved (c : DnsCache) (now : Nat) (hostname : Str) (addrs : List IpAddr)
    (source : AddrSource) (h : addrs ≠ []) : IpAddr × DnsCache :=
  (addrs.head h, { c with
    cache := (hostname, ⟨addrs, now + c.ttl, source, h⟩) ::
      c.cache.filter fun e => e.1 != hostname })

end DnsCache

/-- The answer of the OS resolver: addresses or an error text. -/
abbrev Answer := Except Str (List SocketAddr)

/-- `tokio::net::lookup_host` (module doc). -/
def lookupHost (answer : Answer) (text : Str) : Except Str (List SocketAddr × AddrSource) :=
  match parseSocketAddr text with
  | some a => .ok ([a], .spelled)
  | none => answer.map fun l => (l, .lookup)

/-- The text that `lookup_host` gets: `format!("{}:{}", hostname, port)`. -/
def lookupText (hostname : Str) (port : UInt16) : Str := hostname ++ ch ':' :: decimal port.toNat

def IpAddr.isV4 : IpAddr → Bool
  | .v4 _ => true
  | .v6 _ => false

/-- `Vec::dedup`, then the stable sort by address family if `ipv4First`. -/
def orderAddrs (ipv4First : Bool) (addrs : List IpAddr) : List IpAddr :=
  let addrs := addrs.destutter (· ≠ ·)
  if ipv4First then addrs.filter (·.isV4) ++ addrs.filter (!·.isV4) else addrs

theorem orderAddrs_ne_nil {ipv4First : Bool} {addrs : List IpAddr} (h : addrs ≠ []) :
    orderAddrs ipv4First addrs ≠ [] := by
  have hd : addrs.destutter (· ≠ ·) ≠ [] := by
    rw [ne_eq, List.destutter_eq_nil]; exact h
  unfold orderAddrs
  split
  · obtain ⟨a, l, hl⟩ := List.exists_cons_of_ne_nil hd
    simp only [hl]
    cases a <;> simp [IpAddr.isV4]
  · exact hd

/-- An address with where it comes from. -/
structure Resolved where
  addr : SocketAddr
  source : AddrSource
  deriving DecidableEq, Repr

/-- `dns_resolve_no_hold` before its await: an IP literal or a cached address. -/
def resolveNow (c : DnsCache) (now : Nat) (hostname : Str) (port : UInt16) : Option Resolved :=
  match parseIpAddr hostname with
  | some ip => some ⟨⟨ip, port⟩, .literal⟩
  | none => (c.getCached now hostname).map fun r => ⟨⟨r.1, port⟩, r.2⟩

/-- `dns_resolve_no_hold` after its await: the ordered addresses go to the cache, the first one is
the result. -/
def resolveLookup (c : DnsCache) (now : Nat) (hostname : Str) (port : UInt16) (answer : Answer) :
    Except DnsError (Resolved × DnsCache) :=
  match lookupHost answer (lookupText hostname port) with
  | .error e => .error (.resolveFailed (hostname ++ lit ": " ++ e))
  | .ok (sockAddrs, source) =>
    if h : sockAddrs = [] then .error (.noAddresses hostname)
    else
      let r := c.insertResolved now hostname
        (orderAddrs c.ipv4First (sockAddrs.map (·.ip))) source (orderAddrs_ne_nil (by simpa using h))
      .ok (⟨⟨r.1, port⟩, source⟩, r.2)

theorem resolveNow_port {c : DnsCache} {now : Nat} {hostname : Str} {port : UInt16} {r : Resolved}
    (h : resolveNow c now hostname port = some r) : r.addr.port = port := by
  unfold resolveNow at h
  split at h
  · cases h; rfl
  · simp only [Option.map_eq_some_iff] at h
    obtain ⟨_, _, rfl⟩ := h
    rfl

theorem resolveLookup_port {c c' : DnsCache} {now : Nat} {hostname : Str} {port : UInt16}
    {answer : Answer} {r : Resolved}
    (h : resolveLookup c now hostname port answer = .ok (r, c')) : r.addr.port = port := by
  unfold resolveLookup at h
  split at h
  · cases h
  · split at h
    · cases h
    · cases h; rfl

end ShrimpWisp
