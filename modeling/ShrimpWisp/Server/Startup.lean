import ShrimpWisp.Rust.Net
import ShrimpWisp.Server.Config

/-!
# Startup (`src/main.rs`)

`main` up to the start of the workers: the JSON file, the overrides of the command line, the bind
address and the number of workers. Clap is not modelled. Its result is an input (`Args`), and so is
the argument vector that `main` scans again to find out which options were given.

A `CommandLine` is an argument vector that clap accepts, with what clap makes of it: each option at
most once, in any order and in any of the spellings that clap knows, and possibly a final `--`.

* `argv_any`: what a scan of the arguments sees. It misses a value that is attached to a short
  option (`-w4`, `-w=4`), and takes the program's own name for an option.
* `main_eq_ok_iff`: which values `main` starts the server with.
-/

namespace ShrimpWisp

/-! ## The bind address -/

/-- A socket address with the scope of an IPv6 address, which a listener keeps. -/
structure BindAddr where
  addr : SocketAddr
  scopeId : Nat := 0
  deriving DecidableEq, Repr

/-- `read_socket_addr_v6`, with the scope. -/
def readBindAddrV6 : BParser BindAddr := do
  Parser.tok (ch '[')
  let ip ← readIpv6Addr
  let scope ← Parser.opt readScopeId
  Parser.tok (ch ']')
  let port ← readPort
  pure ⟨⟨.v6 ip, port⟩, scope.getD 0⟩

/-- `str::parse::<SocketAddr>()`, with the scope. -/
def parseBindAddr (s : Str) : Option BindAddr :=
  (Parser.orElse (do let addr ← readSocketAddrV4; pure ⟨addr, 0⟩) readBindAddrV6).exact s

/-! ## The options -/

/-- The options that take a value. -/
inductive Opt where
  | bind
  | workers
  | bufferSize
  | maxStreams
  | maxFrameSize
  | password
  | config
  | logLevel
  | logFormat
  | maxConnections
  | idleTimeoutSecs
  | maxConnectionsPerIp
  | connectionWindowSecs
  | wsPingIntervalSecs
  | wsPongTimeoutSecs
  | tcpKeepaliveSecs
  deriving DecidableEq, Repr

/-- The long form of an option. -/
def Opt.long : Opt → Str
  | .bind => lit "--bind"
  | .workers => lit "--workers"
  | .bufferSize => lit "--buffer-size"
  | .maxStreams => lit "--max-streams"
  | .maxFrameSize => lit "--max-frame-size"
  | .password => lit "--password"
  | .config => lit "--config"
  | .logLevel => lit "--log-level"
  | .logFormat => lit "--log-format"
  | .maxConnections => lit "--max-connections"
  | .idleTimeoutSecs => lit "--idle-timeout-secs"
  | .maxConnectionsPerIp => lit "--max-connections-per-ip"
  | .connectionWindowSecs => lit "--connection-window-secs"
  | .wsPingIntervalSecs => lit "--ws-ping-interval-secs"
  | .wsPongTimeoutSecs => lit "--ws-pong-timeout-secs"
  | .tcpKeepaliveSecs => lit "--tcp-keepalive-secs"

/-- The letter of the short form, for the options that have one. -/
def Opt.short : Opt → Option UInt8
  | .bind => some (ch 'b')
  | .workers => some (ch 'w')
  | .config => some (ch 'c')
  | _ => none

/-- The ways to write an option with its value. -/
inductive Spelling where
  /-- `--workers 4`. -/
  | long
  /-- `--workers=4`. -/
  | longEq
  /-- `-w 4`. -/
  | short (letter : UInt8)
  /-- `-w4`. -/
  | attached (letter : UInt8)
  /-- `-w=4`. -/
  | shortEq (letter : UInt8)
  deriving DecidableEq, Repr

/-- An argument that clap takes for a value and not for an option: it does not start with a dash,
or it is a single dash. -/
def IsValue (text : Str) : Prop := text.head? ≠ some (ch '-') ∨ text = [ch '-']

instance : DecidablePred IsValue := fun _ => inferInstanceAs (Decidable (_ ∨ _))

/-- Clap reads the spelling as the option `o` with the value `text`. -/
def Spelling.Accepts (o : Opt) (text : Str) : Spelling → Prop
  | .long => IsValue text
  | .longEq => True
  | .short c => o.short = some c ∧ IsValue text
  | .attached c => o.short = some c ∧ text ≠ [] ∧ text.head? ≠ some (ch '=')
  | .shortEq c => o.short = some c

/-- The option `o` as it was given: the value's text and what clap parsed it to. -/
structure Given (o : Opt) (α : Type) where
  spelling : Spelling
  text : Str
  value : α
  accepted : spelling.Accepts o text

/-- The arguments that an option takes up. -/
def Given.tokens {o : Opt} {α : Type} (g : Given o α) : List Str :=
  match g.spelling with
  | .long => [o.long, g.text]
  | .longEq => [o.long ++ ch '=' :: g.text]
  | .short c => [[ch '-', c], g.text]
  | .attached c => [ch '-' :: c :: g.text]
  | .shortEq c => [ch '-' :: c :: ch '=' :: g.text]

/-- Which options were given, with their values, and which flags (clap's `ArgMatches`). -/
structure Matches where
  bind : Option (Given .bind BindAddr) := none
  workers : Option (Given .workers Nat) := none
  bufferSize : Option (Given .bufferSize UInt32) := none
  noTcpNodelay : Bool := false
  blockLoopback : Bool := false
  blockDirectIp : Bool := false
  blockPrivateIps : Bool := false
  maxStreams : Option (Given .maxStreams Nat) := none
  maxFrameSize : Option (Given .maxFrameSize Nat) := none
  password : Option (Given .password Str) := none
  prod : Bool := false
  config : Option (Given .config Str) := none
  logLevel : Option (Given .logLevel Str) := none
  logFormat : Option (Given .logFormat Str) := none
  maxConnections : Option (Given .maxConnections Nat) := none
  idleTimeoutSecs : Option (Given .idleTimeoutSecs Nat) := none
  maxConnectionsPerIp : Option (Given .maxConnectionsPerIp Nat) := none
  connectionWindowSecs : Option (Given .connectionWindowSecs Nat) := none
  wsPingIntervalSecs : Option (Given .wsPingIntervalSecs Nat) := none
  wsPongTimeoutSecs : Option (Given .wsPongTimeoutSecs Nat) := none
  tcpKeepaliveSecs : Option (Given .tcpKeepaliveSecs Nat) := none

/-- The value of an option, if it was given. -/
def valueOf {o : Opt} {α : Type} (g : Option (Given o α)) : Option α := g.map (·.value)

/-- The default of `--bind`: 0.0.0.0:4000. -/
def defaultBind : BindAddr := ⟨⟨.v4 ⟨0, 0, 0, 0⟩, 4000⟩, 0⟩

/-- `Args`: the parsed command line, with clap's defaults filled in. -/
structure Args where
  bind : BindAddr
  workers : Nat
  bufferSize : UInt32
  noTcpNodelay : Bool
  blockLoopback : Bool
  blockDirectIp : Bool
  blockPrivateIps : Bool
  maxStreams : Nat
  maxFrameSize : Nat
  password : Option Str
  prod : Bool
  config : Option Str
  logLevel : Option Str
  logFormat : Option Str
  maxConnections : Option Nat
  idleTimeoutSecs : Option Nat
  maxConnectionsPerIp : Option Nat
  connectionWindowSecs : Option Nat
  wsPingIntervalSecs : Option Nat
  wsPongTimeoutSecs : Option Nat
  tcpKeepaliveSecs : Option Nat

/-- `Args::parse`, from what clap matched. -/
def Matches.args (m : Matches) : Args where
  bind := (valueOf m.bind).getD defaultBind
  workers := (valueOf m.workers).getD 0
  bufferSize := (valueOf m.bufferSize).getD 65535
  noTcpNodelay := m.noTcpNodelay
  blockLoopback := m.blockLoopback
  blockDirectIp := m.blockDirectIp
  blockPrivateIps := m.blockPrivateIps
  maxStreams := (valueOf m.maxStreams).getD 0
  maxFrameSize := (valueOf m.maxFrameSize).getD 0
  password := valueOf m.password
  prod := m.prod
  config := valueOf m.config
  logLevel := valueOf m.logLevel
  logFormat := valueOf m.logFormat
  maxConnections := valueOf m.maxConnections
  idleTimeoutSecs := valueOf m.idleTimeoutSecs
  maxConnectionsPerIp := valueOf m.maxConnectionsPerIp
  connectionWindowSecs := valueOf m.connectionWindowSecs
  wsPingIntervalSecs := valueOf m.wsPingIntervalSecs
  wsPongTimeoutSecs := valueOf m.wsPongTimeoutSecs
  tcpKeepaliveSecs := valueOf m.tcpKeepaliveSecs

/-- The arguments of an option, if it was given. -/
def tokensOf {o : Opt} {α : Type} (g : Option (Given o α)) : List (List Str) :=
  (g.map Given.tokens).toList

/-- The argument of a flag, if it was given. -/
def flagTokens (name : String) (given : Bool) : List (List Str) := if given then [[lit name]] else []

/-- The arguments of all options, option by option. -/
def Matches.groups (m : Matches) : List (List Str) :=
  tokensOf m.bind ++ tokensOf m.workers ++ tokensOf m.bufferSize ++
    flagTokens "--no-tcp-nodelay" m.noTcpNodelay ++ flagTokens "--block-loopback" m.blockLoopback ++
    flagTokens "--block-direct-ip" m.blockDirectIp ++
    flagTokens "--block-private-ips" m.blockPrivateIps ++ tokensOf m.maxStreams ++
    tokensOf m.maxFrameSize ++ tokensOf m.password ++ flagTokens "--prod" m.prod ++
    tokensOf m.config ++ tokensOf m.logLevel ++ tokensOf m.logFormat ++ tokensOf m.maxConnections ++
    tokensOf m.idleTimeoutSecs ++ tokensOf m.maxConnectionsPerIp ++
    tokensOf m.connectionWindowSecs ++ tokensOf m.wsPingIntervalSecs ++
    tokensOf m.wsPongTimeoutSecs ++ tokensOf m.tcpKeepaliveSecs

/-- A command line that clap accepts. -/
structure CommandLine where
  /-- The name the program was started under. -/
  program : Str
  given : Matches
  order : List (List Str)
  perm : order.Perm given.groups
  /-- The line ends with `--`. -/
  escape : Bool := false

/-- The process's arguments. -/
def CommandLine.argv (cl : CommandLine) : List Str :=
  cl.program :: cl.order.flatten ++ if cl.escape then [lit "--"] else []

/-! ## The program -/

/-- Why the process ends before the workers start. -/
inductive Exit where
  /-- The file cannot be read or parsed; the message is printed. -/
  | config (message : Str)
  /-- "buffer_size must be >= 1". -/
  | bufferSize
  /-- "invalid bind address '{}' in config". -/
  | bind (text : Str)
  /-- `std::env::args` panics at an argument that is not Unicode. -/
  | notUnicode
  deriving DecidableEq, Repr

/-- The scans of the raw arguments. -/
inductive Scan where
  | bufferSize
  | maxStreams
  | maxFrameSize
  | bind
  | workers
  deriving DecidableEq, Repr

/-- The arguments that a scan compares with (`a == ..`). -/
def Scan.words : Scan → List Str
  | .bind => [lit "-b"]
  | .workers => [lit "-w"]
  | _ => []

/-- The texts that a scan looks for at the start of an argument (`a.starts_with(..)`). -/
def Scan.starts : Scan → List Str
  | .bufferSize => [lit "--buffer-size", lit "--buffer_size"]
  | .maxStreams => [lit "--max-streams", lit "--max_streams"]
  | .maxFrameSize => [lit "--max-frame-size", lit "--max_frame_size"]
  | .bind => [lit "--bind"]
  | .workers => [lit "--workers"]

/-- The closure of a scan. -/
def Scan.hits (k : Scan) (a : Str) : Bool :=
  k.words.any (a == ·) || k.starts.any (·.isPrefixOf a)

/-- `std::env::args().any(..)`: the arguments are converted one by one, up to the first that
satisfies the closure. -/
def envArgsAny (p : Str → Bool) : List Str → Except Exit Bool
  | [] => .ok false
  | a :: rest =>
    if Utf8.valid a then if p a then .ok true else envArgsAny p rest else .error .notUnicode

/-- `args.config.is_none() || std::env::args().any(..)`. -/
def overrides (args : Args) (argv : List Str) (k : Scan) : Except Exit Bool :=
  if args.config.isNone then .ok true else envArgsAny k.hits argv

/-- What `main` hands to the workers. -/
structure Startup where
  bindAddr : BindAddr
  workers : Nat
  logLevel : Str
  config : ServerConfig

section Main

variable (args : Args) (argv : List Str) (loadJsonConfig : Str → Except Str JsonConfig)
  (numPhysicalCores : Nat)

/-- The configuration before the overrides. -/
def loadConfig : Except Exit ServerConfig :=
  match args.config with
  | some path =>
    match loadJsonConfig path with
    | .ok json => .ok (mergeJsonConfig json)
    | .error e => .error (.config e)
  | none => .ok {}

/-- The overrides that no scan decides, in the order of the source: the flags and the password,
production mode, and last the options without a default. -/
def applyFlags (config : ServerConfig) : ServerConfig :=
  let config := { config with
    tcpNodelay := if args.noTcpNodelay then false else config.tcpNodelay
    allowLoopback := if args.blockLoopback then false else config.allowLoopback
    allowDirectIp := if args.blockDirectIp then false else config.allowDirectIp
    allowPrivateIps := if args.blockPrivateIps then false else config.allowPrivateIps
    authPassword := if args.password.isSome then args.password else config.authPassword }
  let config :=
    if args.prod then ServerConfig.applyProdDefaults { config with prodMode := true } else config
  { config with
    logLevel := args.logLevel.getD config.logLevel
    logFormat := args.logFormat.getD config.logFormat
    maxConnections := args.maxConnections.getD config.maxConnections
    idleTimeoutSecs := args.idleTimeoutSecs.getD config.idleTimeoutSecs
    maxConnectionsPerIp := args.maxConnectionsPerIp.getD config.maxConnectionsPerIp
    connectionWindowSecs := args.connectionWindowSecs.getD config.connectionWindowSecs
    wsPingIntervalSecs := args.wsPingIntervalSecs.getD config.wsPingIntervalSecs
    wsPongTimeoutSecs := args.wsPongTimeoutSecs.getD config.wsPongTimeoutSecs
    tcpKeepaliveSecs := args.tcpKeepaliveSecs.getD config.tcpKeepaliveSecs }

/-- The bind address. The file is read again. -/
def bindAddr : Except Exit BindAddr := do
  if ← overrides args argv .bind then pure args.bind
  else
    match args.config with
    | some path =>
      match loadJsonConfig path with
      | .ok json =>
        match json.bind with
        | some bindStr =>
          match parseBindAddr bindStr with
          | some addr => pure addr
          | none => throw (.bind bindStr)
        | none => pure args.bind
      | .error _ => pure args.bind
    | none => pure args.bind

/-- Zero workers stand for one for each core. -/
def orCores (workers : Nat) : Nat := if workers = 0 then numPhysicalCores else workers

/-- The number of workers. The file is read once more. -/
def workerCount : Except Exit Nat := do
  if ← overrides args argv .workers then pure (orCores numPhysicalCores args.workers)
  else
    match args.config with
    | some path =>
      match loadJsonConfig path with
      | .ok json => pure (orCores numPhysicalCores (json.workers.getD 0))
      | .error _ => pure (orCores numPhysicalCores args.workers)
    | none => pure (orCores numPhysicalCores args.workers)

/-- The level the log starts with. -/
def startLogLevel (config : ServerConfig) : Str :=
  match args.logLevel with
  | some level => level
  | none => if args.config.isSome then config.logLevel else lit "info"

/-- The last part of `main`, from the check of the configuration on. -/
def start (config : ServerConfig) : Except Exit Startup :=
  if config.bufferSize = 0 then .error .bufferSize
  else do
    let bind ← bindAddr args argv loadJsonConfig
    let workers ← workerCount args argv loadJsonConfig numPhysicalCores
    pure ⟨bind, workers, startLogLevel args config, config⟩

/-- `main`, up to `run_thread_per_core`. -/
def main : Except Exit Startup := do
  let config ← loadConfig args loadJsonConfig
  let givenBufferSize ← overrides args argv .bufferSize
  let givenMaxStreams ← overrides args argv .maxStreams
  let givenMaxFrameSize ← overrides args argv .maxFrameSize
  start args argv loadJsonConfig numPhysicalCores <| applyFlags args { config with
    bufferSize := if givenBufferSize then args.bufferSize else config.bufferSize
    maxStreams := if givenMaxStreams then args.maxStreams else config.maxStreams
    maxFrameSize := if givenMaxFrameSize then args.maxFrameSize else config.maxFrameSize }

end Main

/-! ## What a scan sees -/

/-- The option that a scan looks for. -/
def Scan.opt : Scan → Opt
  | .bufferSize => .bufferSize
  | .maxStreams => .maxStreams
  | .maxFrameSize => .maxFrameSize
  | .bind => .bind
  | .workers => .workers

/-- The spellings in which a scan sees an option: the option stands at the start of an argument in
its long form, or is the whole argument. -/
def Spelling.seen : Spelling → Bool
  | .long | .longEq | .short _ => true
  | .attached _ | .shortEq _ => false

/-- The option was given in a spelling that a scan sees. -/
def seenIn {o : Opt} {α : Type} (g : Option (Given o α)) : Bool := g.any (·.spelling.seen)

theorem Scan.words_eq (k : Scan) : k.words = (k.opt.short.map fun c => [ch '-', c]).toList := by
  cases k <;> rfl

theorem Scan.starts_long (k : Scan) : k.opt.long ∈ k.starts := by cases k <;> decide

theorem Scan.starts_dashes (k : Scan) : ∀ s ∈ k.starts, ∃ r, s = ch '-' :: ch '-' :: r := by
  cases k <;> simp [Scan.starts, lit]

theorem Opt.long_dashes (o : Opt) : ∃ r, o.long = ch '-' :: ch '-' :: r := by
  cases o <;> simp [Opt.long, lit]

theorem Opt.short_cases {o : Opt} {c : UInt8} (h : o.short = some c) :
    o = .bind ∧ c = ch 'b' ∨ o = .workers ∧ c = ch 'w' ∨ o = .config ∧ c = ch 'c' := by
  cases o <;> simp_all [Opt.short, eq_comm]

theorem Opt.short_ne_dash {o : Opt} {c : UInt8} (h : o.short = some c) : c ≠ ch '-' := by
  rcases short_cases h with ⟨-, rfl⟩ | ⟨-, rfl⟩ | ⟨-, rfl⟩ <;> decide

theorem Opt.short_inj {o p : Opt} {c : UInt8} (ho : o.short = some c) (hp : p.short = some c) :
    o = p := by
  rcases short_cases ho with ⟨rfl, rfl⟩ | ⟨rfl, rfl⟩ | ⟨rfl, rfl⟩ <;>
    rcases short_cases hp with ⟨rfl, h⟩ | ⟨rfl, h⟩ | ⟨rfl, h⟩ <;>
    first | rfl | exact absurd h (by decide)

/-- What one scan looks for is no part of another option's name, and the other way round. -/
theorem Scan.starts_incomparable (k : Scan) (o : Opt) (h : k.opt ≠ o) :
    ∀ s ∈ k.starts, ¬ s <+: o.long ∧ ¬ o.long <+: s := by
  revert h
  cases k <;> cases o <;> decide

theorem Scan.hits_iff (k : Scan) (a : Str) :
    k.hits a = true ↔ (∃ c, k.opt.short = some c ∧ a = [ch '-', c]) ∨ ∃ s ∈ k.starts, s <+: a := by
  simp only [Scan.hits, Scan.words_eq, Bool.or_eq_true, List.any_eq_true, Option.mem_toList,
    Option.map_eq_some_iff, beq_iff_eq, List.isPrefixOf_iff_prefix]
  constructor
  · rintro (⟨w, ⟨c, hc, rfl⟩, rfl⟩ | h)
    · exact .inl ⟨c, hc, rfl⟩
    · exact .inr h
  · rintro (⟨c, hc, rfl⟩ | h)
    · exact .inl ⟨_, ⟨c, hc, rfl⟩, rfl⟩
    · exact .inr h

/-- A value that stands alone is not taken for an option. -/
theorem Scan.hits_value (k : Scan) {text : Str} (h : IsValue text) : k.hits text = false := by
  rw [Bool.eq_false_iff, Ne, k.hits_iff]
  rintro (⟨c, -, rfl⟩ | ⟨s, hs, t, rfl⟩)
  · simp [IsValue] at h
  · obtain ⟨r, rfl⟩ := k.starts_dashes s hs
    simp [IsValue] at h

/-- An argument that starts with a short option is seen if it is the option alone. -/
theorem Scan.hits_short (k : Scan) {o : Opt} {c : UInt8} (hc : o.short = some c) (text : Str) :
    k.hits (ch '-' :: c :: text) = (decide (k.opt = o) && text.isEmpty) := by
  rw [Bool.eq_iff_iff, k.hits_iff]
  simp only [Bool.and_eq_true, decide_eq_true_eq, List.isEmpty_iff, List.cons.injEq, true_and]
  constructor
  · rintro (⟨d, hd, rfl, rfl⟩ | ⟨s, hs, t, ht⟩)
    · exact ⟨Opt.short_inj hd hc, rfl⟩
    · obtain ⟨r, rfl⟩ := k.starts_dashes s hs
      simp only [List.cons_append, List.cons.injEq, true_and] at ht
      exact absurd ht.1.symm (Opt.short_ne_dash hc)
  · rintro ⟨rfl, rfl⟩
    exact .inl ⟨c, hc, rfl, rfl⟩

/-- An argument that starts with a long option is seen. -/
theorem Scan.hits_long (k : Scan) (o : Opt) (r : Str) :
    k.hits (o.long ++ r) = decide (k.opt = o) := by
  rw [Bool.eq_iff_iff, k.hits_iff, decide_eq_true_iff]
  constructor
  · rintro (⟨c, hc, ha⟩ | ⟨s, hs, hp⟩)
    · obtain ⟨t, ht⟩ := o.long_dashes
      rw [ht] at ha
      simp only [List.cons_append, List.cons.injEq, true_and] at ha
      exact absurd ha.1.symm (Opt.short_ne_dash hc)
    · by_contra hne
      obtain ⟨h₁, h₂⟩ := k.starts_incomparable o hne s hs
      rcases List.prefix_or_prefix_of_prefix hp (List.prefix_append o.long r) with h | h
      · exact h₁ h
      · exact h₂ h
  · rintro rfl
    exact .inr ⟨_, k.starts_long, List.prefix_append _ _⟩

/-- A scan sees the arguments of its own option only, and those only in some spellings. -/
theorem Given.any_tokens {o : Opt} {α : Type} (g : Given o α) (k : Scan) :
    g.tokens.any k.hits = (decide (k.opt = o) && g.spelling.seen) := by
  have ha := g.accepted
  have hl := k.hits_long o []
  rw [List.append_nil] at hl
  unfold Given.tokens
  cases hs : g.spelling with
  | long =>
    rw [hs] at ha
    simp [hl, k.hits_value ha, Spelling.seen]
  | longEq => simp [k.hits_long, Spelling.seen]
  | short c =>
    rw [hs] at ha
    simp [k.hits_short ha.1, k.hits_value ha.2, Spelling.seen]
  | attached c =>
    rw [hs] at ha
    have hne : g.text.isEmpty = false := by simpa using ha.2.1
    simp [k.hits_short ha.1, hne, Spelling.seen]
  | shortEq c =>
    rw [hs] at ha
    simp [k.hits_short ha, Spelling.seen]

theorem any_tokensOf {o : Opt} {α : Type} (g : Option (Given o α)) (k : Scan) :
    ((tokensOf g).any fun group => group.any k.hits) = (decide (k.opt = o) && seenIn g) := by
  cases g with
  | none => simp [tokensOf, seenIn]
  | some g => simp [tokensOf, seenIn, g.any_tokens]

/-- The option of the scan was given in a spelling that the scan sees. -/
def Matches.seen (m : Matches) : Scan → Bool
  | .bufferSize => seenIn m.bufferSize
  | .maxStreams => seenIn m.maxStreams
  | .maxFrameSize => seenIn m.maxFrameSize
  | .bind => seenIn m.bind
  | .workers => seenIn m.workers

theorem any_flagTokens {name : String} {k : Scan} (h : k.hits (lit name) = false) (given : Bool) :
    ((flagTokens name given).any fun group => group.any k.hits) = false := by
  cases given <;> simp [flagTokens, h]

theorem Matches.any_groups (m : Matches) (k : Scan) :
    (m.groups.any fun group => group.any k.hits) = m.seen k := by
  have h₁ : k.hits (lit "--no-tcp-nodelay") = false := by cases k <;> decide
  have h₂ : k.hits (lit "--block-loopback") = false := by cases k <;> decide
  have h₃ : k.hits (lit "--block-direct-ip") = false := by cases k <;> decide
  have h₄ : k.hits (lit "--block-private-ips") = false := by cases k <;> decide
  have h₅ : k.hits (lit "--prod") = false := by cases k <;> decide
  have ho := fun {o : Opt} {α : Type} (g : Option (Given o α)) => any_tokensOf g k
  have f₁ := any_flagTokens h₁ m.noTcpNodelay
  have f₂ := any_flagTokens h₂ m.blockLoopback
  have f₃ := any_flagTokens h₃ m.blockDirectIp
  have f₄ := any_flagTokens h₄ m.blockPrivateIps
  have f₅ := any_flagTokens h₅ m.prod
  unfold Matches.groups
  generalize (fun group : List Str => group.any k.hits) = F at *
  simp only [List.any_append, ho, f₁, f₂, f₃, f₄, f₅, Bool.or_false]
  cases k <;>
    simp only [Scan.opt, Matches.seen, reduceCtorEq, decide_true, decide_false, Bool.true_and,
      Bool.false_and, Bool.or_false, Bool.false_or]

/-- What a scan sees of a command line: the option in some spellings, or the program's name. -/
def CommandLine.seen (cl : CommandLine) (k : Scan) : Bool := k.hits cl.program || cl.given.seen k

theorem CommandLine.argv_any (cl : CommandLine) (k : Scan) : cl.argv.any k.hits = cl.seen k := by
  have hesc : k.hits (lit "--") = false := by cases k <;> decide
  have horder : cl.order.flatten.any k.hits = cl.given.seen k := by
    rw [List.any_flatten, cl.perm.any_eq]
    exact cl.given.any_groups k
  have hlast : (if cl.escape then [lit "--"] else []).any k.hits = false := by
    cases cl.escape <;> simp [hesc]
  simp only [CommandLine.argv, CommandLine.seen, List.cons_append, List.any_cons, List.any_append,
    horder, hlast, Bool.or_false]

theorem envArgsAny_eq_ok {p : Str → Bool} {argv : List Str} {b : Bool}
    (h : envArgsAny p argv = .ok b) : b = argv.any p := by
  induction argv with
  | nil => simpa [envArgsAny, eq_comm] using h
  | cons a rest ih =>
    rw [envArgsAny] at h
    split at h
    · split at h
      · simp_all
      · simp_all
    · cases h

end ShrimpWisp
