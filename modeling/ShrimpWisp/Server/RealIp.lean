import ShrimpWisp.Rust.Net
import ShrimpWisp.Ws.Upgrade

/-!
# The real IP of a client (`src/server/security.rs`, `src/server/connection.rs`)

Behind trusted proxies, the IP of the client is in the headers of the upgrade request. The networks
are those of the `ipnet` crate, which are a parameter: a type, `str::parse`, `IpNet::new` and
`IpNet::contains`.
-/

namespace ShrimpWisp
namespace Security

section

variable {Net : Type} (parseNet : Str → Option Net) (newNet : IpAddr → Nat → Option Net)
  (contains : Net → IpAddr → Bool)

/-- The length of the prefix of a single address. -/
def hostLength : IpAddr → Nat
  | .v4 _ => 32
  | .v6 _ => 128

/-- A network, or a single address. What is neither is skipped. -/
def parseTrustedProxies (proxyStrs : List Str) : List Net :=
  proxyStrs.filterMap fun s =>
    match parseNet s with
    | some net => some net
    | none =>
      match parseIpAddr s with
      | some ip => newNet ip (hostLength ip)
      | none => none

def isTrustedProxy (peerIp : IpAddr) (trustedProxies : List Net) : Bool :=
  if trustedProxies.isEmpty then false else trustedProxies.any fun net => contains net peerIp

end

/-- The leftmost address of a header value. -/
def leftmostIp (value : HeaderText) : Option IpAddr :=
  parseIpAddr (trim isWhitespace ((value.1.splitOn (ch ',')).head?.getD value.1))

/-- The first valid address, by the order of the configured headers. -/
def extractRealIp (headers : List (Str × HeaderText)) (configHeaders : List Str) : Option IpAddr :=
  configHeaders.findSome? fun targetHeader =>
    headers.findSome? fun f =>
      if toAsciiLowercase f.1 = toAsciiLowercase targetHeader then leftmostIp f.2 else none

end Security

/-- `client_ip`, as Step 1 of `handle_connection` leaves it. -/
def clientIp {Net : Type} (contains : Net → IpAddr → Bool) (config : ServerConfig)
    (trustedProxies : List Net) (peer : IpAddr) (upgradeResult : UpgradeResult) : IpAddr :=
  if config.realIpEnabled && !config.realIpHeaders.isEmpty then
    if Security.isTrustedProxy contains peer trustedProxies then
      (Security.extractRealIp upgradeResult.headers config.realIpHeaders).getD peer
    else peer
  else peer

end ShrimpWisp
