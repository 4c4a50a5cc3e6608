import ShrimpWisp.Rust.Net
import ShrimpWisp.Server.Config

/-!
# Egress policy (`src/server/security.rs`)

Address classes and the checks of a CONNECT's destination, before and after name resolution. The
standard library's classifiers are in `ShrimpWisp.Rust.Net`.
-/

namespace ShrimpWisp
namespace Security

/-- fe80::/10. -/
def isIpv6LinkLocal (v6 : Ipv6Addr) : Bool := v6.s0 &&& 0xffc0 == 0xfe80

/-- fc00::/7. -/
def isIpv6UniqueLocal (v6 : Ipv6Addr) : Bool := v6.s0 &&& 0xfe00 == 0xfc00

/-- A class of addresses, with the IPv4-mapped forms of its IPv4 part. -/
def inClass (v4Class : Ipv4Addr → Bool) (v6Class : Ipv6Addr → Bool) : IpAddr → Bool
  | .v4 v4 => v4Class v4
  | .v6 v6 => v6Class v6 || v6.toIpv4Mapped.any v4Class

def isLoopback : IpAddr → Bool := inClass Ipv4Addr.isLoopback Ipv6Addr.isLoopback

def isPrivate : IpAddr → Bool := inClass Ipv4Addr.isPrivate isIpv6UniqueLocal

def isUnspecified : IpAddr → Bool := inClass Ipv4Addr.isUnspecified Ipv6Addr.isUnspecified

def isLinkLocal : IpAddr → Bool := inClass Ipv4Addr.isLinkLocal isIpv6LinkLocal

/-- The address is blocked by the three flags; an unspecified address always is. -/
def isIpBlocked (ip : IpAddr) (config : ServerConfig) : Bool :=
  if isUnspecified ip then true
  else if !config.allowLoopback && isLoopback ip then true
  else if !config.allowPrivateIps && isPrivate ip then true
  else if !config.allowPrivateIps && isLinkLocal ip then true
  else false

/-- The hostname looks like a raw IP address. -/
def isRawIp (hostname : Str) : Bool :=
  (parseIpv4Addr hostname).isSome || (parseIpv6Addr hostname).isSome

/-- A decimal `u8`: a plus sign is allowed, leading zeros too. -/
def parseU8 (s : Str) : Option Nat :=
  let ds := match s with
    | b :: rest => if b = ch '+' then rest else s
    | [] => []
  match Parser.digits digit10 ds with
  | some (v, []) => if v ≠ [] ∧ ofDigits 10 v < 256 then some (ofDigits 10 v) else none
  | _ => none

/-- The hostname starts like 172.16.0.0/12. -/
def hostnameIsPrivate172 (hostname : Str) : Bool :=
  if (lit "172.").isPrefixOf hostname then
    let rest := hostname.drop 4
    let octet := rest.takeWhile (· != ch '.')
    if octet.length < rest.length then
      match parseU8 octet with
      | some secondOctet => 16 ≤ secondOctet && secondOctet ≤ 31
      | none => false
    else false
  else false

/-- The check of the hostname before it is resolved. -/
def isHostnameBlockedPreResolution (hostname : Str) (config : ServerConfig) : Bool :=
  if !config.allowDirectIp && isRawIp hostname then true
  else if !config.allowLoopback && (hostname == lit "localhost" || hostname == lit "127.0.0.1" ||
      hostname == lit "::1" || hostname == lit "0.0.0.0" || hostname == lit "::") then true
  else if !config.allowPrivateIps && ((lit "10.").isPrefixOf hostname ||
      (lit "192.168.").isPrefixOf hostname || (lit "169.254.").isPrefixOf hostname ||
      hostnameIsPrivate172 hostname) then true
  else if !config.allowLoopback && (lit "127.").isPrefixOf hostname then true
  else false

theorem not_isRawIp_of_preResolution {hostname : Str} {config : ServerConfig}
    (hd : config.allowDirectIp = false)
    (h : isHostnameBlockedPreResolution hostname config = false) : isRawIp hostname = false := by
  unfold isHostnameBlockedPreResolution at h
  cases hr : isRawIp hostname with
  | false => rfl
  | true => simp [hd, hr] at h

/-- An IP literal is a raw IP address. -/
theorem isRawIp_of_parseIpAddr {s : Str} {ip : IpAddr} (h : parseIpAddr s = some ip) :
    isRawIp s = true := by
  rcases parseIpAddr_some h with h | h <;> simp [isRawIp, h]

/-- A hostname that starts with a bracket passes the check before resolution. -/
theorem preResolution_bracket (s : Str) (config : ServerConfig) :
    isHostnameBlockedPreResolution (ch '[' :: s) config = false := by
  have hraw : isRawIp (ch '[' :: s) = false := by
    simp [isRawIp, parseIpv4Addr_eq, parseIpv6Addr, Parser.exact, readIpv4Addr_bracket,
      readIpv6Addr_bracket]
  -- every literal of the check starts with another byte
  have hp : ∀ b t, (b == ch '[') = false → List.isPrefixOf (b :: t) (ch '[' :: s) = false := by
    intro b t hb
    simp [List.isPrefixOf, hb]
  have he : ∀ b t, (ch '[' == b) = false → (ch '[' :: s == b :: t) = false := by
    intro b t hb
    rw [List.cons_beq_cons, hb, Bool.false_and]
  have h172 : hostnameIsPrivate172 (ch '[' :: s) = false := by
    rw [hostnameIsPrivate172, if_neg]
    rw [show lit "172." = ch '1' :: lit "72." from rfl, hp _ _ (by decide)]
    decide
  have hlocal : (ch '[' :: s == lit "localhost" || ch '[' :: s == lit "127.0.0.1" ||
      ch '[' :: s == lit "::1" || ch '[' :: s == lit "0.0.0.0" || ch '[' :: s == lit "::") =
        false := by
    rw [show lit "localhost" = ch 'l' :: lit "ocalhost" from rfl,
      show lit "127.0.0.1" = ch '1' :: lit "27.0.0.1" from rfl,
      show lit "::1" = ch ':' :: lit ":1" from rfl, show lit "0.0.0.0" = ch '0' :: lit ".0.0.0" from rfl,
      show lit "::" = ch ':' :: lit ":" from rfl, he _ _ (by decide), he _ _ (by decide),
      he _ _ (by decide), he _ _ (by decide), he _ _ (by decide)]
    rfl
  have hpriv : ((lit "10.").isPrefixOf (ch '[' :: s) || (lit "192.168.").isPrefixOf (ch '[' :: s) ||
      (lit "169.254.").isPrefixOf (ch '[' :: s) || hostnameIsPrivate172 (ch '[' :: s)) = false := by
    rw [show lit "10." = ch '1' :: lit "0." from rfl,
      show lit "192.168." = ch '1' :: lit "92.168." from rfl,
      show lit "169.254." = ch '1' :: lit "69.254." from rfl, hp _ _ (by decide),
      hp _ _ (by decide), hp _ _ (by decide), h172]
    rfl
  have hloop : (lit "127.").isPrefixOf (ch '[' :: s) = false := by
    rw [show lit "127." = ch '1' :: lit "27." from rfl, hp _ _ (by decide)]
  simp only [isHostnameBlockedPreResolution, hraw, hlocal, hpriv, hloop, Bool.and_false,
    Bool.false_eq_true, if_false]

end Security

end ShrimpWisp
