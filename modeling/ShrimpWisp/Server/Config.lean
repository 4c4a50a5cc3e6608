import ShrimpWisp.Rust.Str
import ShrimpWisp.Protocol.Types

/-!
# Runtime configuration (`src/server/config.rs`)

The runtime configuration with its methods, the JSON file's schema as serde delivers it, and the
merge of the one into the other. A `HashSet` is the list of its elements, a `HashMap` the list of
its entries; only membership, lookup and emptiness are used.
-/

namespace ShrimpWisp

/-- `Duration::from_secs`. Times and durations are in nanoseconds. -/
def secs (n : Nat) : Nat := n * 1000000000

/-- Runtime configuration of the Wisp server. -/
structure ServerConfig where
  /-- Per-stream buffer size in packets (initial CONTINUE credits). -/
  bufferSize : UInt32 := 65535
  /-- TCP_NODELAY on the proxied sockets. -/
  tcpNodelay : Bool := true
  allowLoopback : Bool := true
  allowDirectIp : Bool := true
  allowPrivateIps : Bool := true
  /-- Maximum streams per connection (0: unlimited). -/
  maxStreams : Nat := 0
  /-- Maximum WebSocket frame size in bytes (0: unlimited). -/
  maxFrameSize : Nat := 0
  authPassword : Option Str := none
  authUsers : List (Str × Str) := []
  authRequired : Bool := false
  prodMode : Bool := false
  blacklistHostnames : List Str := []
  blacklistPorts : List UInt16 := []
  whitelistHostnames : List Str := []
  whitelistPorts : List UInt16 := []
  dnsServers : List Str := []
  dnsTtl : Nat := 120
  dnsResultOrder : Str := lit "ipv4first"
  realIpEnabled : Bool := false
  realIpTrustedProxies : List Str := []
  realIpHeaders : List Str := []
  logLevel : Str := lit "info"
  logFormat : Str := lit "text"
  /-- Maximum connections per worker (0: unlimited). -/
  maxConnections : Nat := 0
  idleTimeoutSecs : Nat := 0
  /-- Maximum connections per IP within the window (0: unlimited). -/
  maxConnectionsPerIp : Nat := 0
  connectionWindowSecs : Nat := 60
  wsPingIntervalSecs : Nat := 0
  wsPongTimeoutSecs : Nat := 10
  /-- TCP keepalive on backend sockets in seconds (0: disabled). -/
  tcpKeepaliveSecs : Nat := 0

namespace ServerConfig

variable (config : ServerConfig)

/-- CONTINUE threshold: 90% of the credits. -/
def continueThreshold : Nat := max (config.bufferSize.toNat * 9 / 10) 1

/-- Auth is required: the flag, users or a password. -/
def isAuthRequired : Bool :=
  config.authRequired || !config.authUsers.isEmpty || config.authPassword.isSome

/-- A value that is still at the sentinel `unset` is replaced. -/
def orElseAt (unset value default : Nat) : Nat := if value = unset then default else value

/-- `apply_prod_defaults`: the defaults of production mode, for the fields that are still at the
struct's default. For the window and the pong timeout the two defaults are the same. -/
def applyProdDefaults : ServerConfig :=
  { config with
    maxConnections := orElseAt 0 config.maxConnections 8192
    idleTimeoutSecs := orElseAt 0 config.idleTimeoutSecs 300
    maxConnectionsPerIp := orElseAt 0 config.maxConnectionsPerIp 64
    connectionWindowSecs := orElseAt 60 config.connectionWindowSecs 60
    wsPingIntervalSecs := orElseAt 0 config.wsPingIntervalSecs 30
    wsPongTimeoutSecs := orElseAt 10 config.wsPongTimeoutSecs 10
    tcpKeepaliveSecs := orElseAt 0 config.tcpKeepaliveSecs 60 }

/-- The hostname is blocked by the lists. A whitelist takes priority. -/
def isHostnameBlocked (hostname : Str) : Bool :=
  let hostnameLower := toAsciiLowercase hostname
  if !config.whitelistHostnames.isEmpty then !config.whitelistHostnames.contains hostnameLower
  else if !config.blacklistHostnames.isEmpty then config.blacklistHostnames.contains hostnameLower
  else false

/-- The port is blocked by the lists. A whitelist takes priority. -/
def isPortBlocked (port : UInt16) : Bool :=
  if !config.whitelistPorts.isEmpty then !config.whitelistPorts.contains port
  else if !config.blacklistPorts.isEmpty then config.blacklistPorts.contains port
  else false

theorem continueThreshold_pos : 0 < config.continueThreshold := by
  unfold continueThreshold; omega

theorem continueThreshold_le (h : 1 ≤ config.bufferSize.toNat) :
    config.continueThreshold ≤ config.bufferSize.toNat := by
  unfold continueThreshold; omega

end ServerConfig

/-! ## The JSON file -/

/-- A port of a filter list, or a range of ports. -/
inductive PortEntry where
  | single (p : UInt16)
  | range (start stop : UInt16)

/-- `JsonFilterList`. -/
structure JsonFilterList where
  hostnames : List Str := []
  ports : List PortEntry := []

/-- `JsonAuth`. -/
structure JsonAuth where
  required : Bool := false
  users : List (Str × Str) := []

/-- `JsonDns`. -/
structure JsonDns where
  servers : List Str := []
  ttl : Option Nat := none
  resultOrder : Option Str := none

/-- `JsonRealIp`. -/
structure JsonRealIp where
  enabled : Bool := false
  trustedProxies : List Str := []
  headers : List Str := []

/-- `JsonConfig`: a field is `none` if the file does not have it. -/
structure JsonConfig where
  bind : Option Str := none
  workers : Option Nat := none
  bufferSize : Option UInt32 := none
  tcpNoDelay : Option Bool := none
  allowLoopback : Option Bool := none
  allowDirectIp : Option Bool := none
  allowPrivateIps : Option Bool := none
  maxStreams : Option Nat := none
  maxFrameSize : Option Nat := none
  prod : Option Bool := none
  blacklist : Option JsonFilterList := none
  whitelist : Option JsonFilterList := none
  auth : Option JsonAuth := none
  dns : Option JsonDns := none
  realIp : Option JsonRealIp := none
  logLevel : Option Str := none
  logFormat : Option Str := none
  maxConnections : Option Nat := none
  idleTimeoutSecs : Option Nat := none
  maxConnectionsPerIp : Option Nat := none
  connectionWindowSecs : Option Nat := none
  wsPingIntervalSecs : Option Nat := none
  wsPongTimeoutSecs : Option Nat := none
  tcpKeepaliveSecs : Option Nat := none

/-- The ports of one entry. A range may be written either way round. -/
def PortEntry.ports : PortEntry → List UInt16
  | .single p => [p]
  | .range start stop =>
    let lo := min start.toNat stop.toNat
    let hi := max start.toNat stop.toNat
    (List.range' lo (hi + 1 - lo)).map (·.toUInt16)

/-- `expand_ports`. -/
def expandPorts (entries : List PortEntry) : List UInt16 := entries.flatMap PortEntry.ports

/-- `merge_json_config`: the defaults, with the fields that the file has. -/
def mergeJsonConfig (json : JsonConfig) : ServerConfig :=
  let config : ServerConfig := {}
  { bufferSize := json.bufferSize.getD config.bufferSize
    tcpNodelay := json.tcpNoDelay.getD config.tcpNodelay
    allowLoopback := json.allowLoopback.getD config.allowLoopback
    allowDirectIp := json.allowDirectIp.getD config.allowDirectIp
    allowPrivateIps := json.allowPrivateIps.getD config.allowPrivateIps
    maxStreams := json.maxStreams.getD config.maxStreams
    maxFrameSize := json.maxFrameSize.getD config.maxFrameSize
    authPassword := config.authPassword
    authUsers := json.auth.elim config.authUsers (·.users)
    authRequired := json.auth.elim config.authRequired (·.required)
    prodMode := json.prod.getD config.prodMode
    blacklistHostnames :=
      json.blacklist.elim config.blacklistHostnames (·.hostnames.map toAsciiLowercase)
    blacklistPorts := json.blacklist.elim config.blacklistPorts (expandPorts ·.ports)
    whitelistHostnames :=
      json.whitelist.elim config.whitelistHostnames (·.hostnames.map toAsciiLowercase)
    whitelistPorts := json.whitelist.elim config.whitelistPorts (expandPorts ·.ports)
    dnsServers := json.dns.elim config.dnsServers (·.servers)
    dnsTtl := (json.dns.bind (·.ttl)).getD config.dnsTtl
    dnsResultOrder := (json.dns.bind (·.resultOrder)).getD config.dnsResultOrder
    realIpEnabled := json.realIp.elim config.realIpEnabled (·.enabled)
    realIpTrustedProxies := json.realIp.elim config.realIpTrustedProxies (·.trustedProxies)
    realIpHeaders := json.realIp.elim config.realIpHeaders (·.headers)
    logLevel := json.logLevel.getD config.logLevel
    logFormat := json.logFormat.getD config.logFormat
    maxConnections := json.maxConnections.getD config.maxConnections
    idleTimeoutSecs := json.idleTimeoutSecs.getD config.idleTimeoutSecs
    maxConnectionsPerIp := json.maxConnectionsPerIp.getD config.maxConnectionsPerIp
    connectionWindowSecs := json.connectionWindowSecs.getD config.connectionWindowSecs
    wsPingIntervalSecs := json.wsPingIntervalSecs.getD config.wsPingIntervalSecs
    wsPongTimeoutSecs := json.wsPongTimeoutSecs.getD config.wsPongTimeoutSecs
    tcpKeepaliveSecs := json.tcpKeepaliveSecs.getD config.tcpKeepaliveSecs }

end ShrimpWisp
