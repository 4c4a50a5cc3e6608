import ShrimpWisp.Server.Startup

/-!
# Which layer of the configuration wins

An option of the command line goes before the file, the file before the defaults of production
mode, and these before the built-in defaults: `intended`. `main` finds out by other means which
layer has a value: a zero stands for "not set" when the production defaults are applied, the file's
own `"prod": true` applies none, and a scan of the raw arguments stands for "given" once there is a
file. `Honoured` is the condition on the command line and the file under which this comes to the
same, and `starts_as_intended` says that it is exact.
-/

namespace ShrimpWisp

/-- The settings that several layers can give. -/
structure Values where
  maxConnections : Nat
  idleTimeoutSecs : Nat
  maxConnectionsPerIp : Nat
  connectionWindowSecs : Nat
  wsPingIntervalSecs : Nat
  wsPongTimeoutSecs : Nat
  tcpKeepaliveSecs : Nat
  bufferSize : UInt32
  maxStreams : Nat
  maxFrameSize : Nat
  workers : Nat
  bind : BindAddr
  deriving DecidableEq, Repr

/-- The settings that the workers get. -/
def Startup.values (st : Startup) : Values where
  maxConnections := st.config.maxConnections
  idleTimeoutSecs := st.config.idleTimeoutSecs
  maxConnectionsPerIp := st.config.maxConnectionsPerIp
  connectionWindowSecs := st.config.connectionWindowSecs
  wsPingIntervalSecs := st.config.wsPingIntervalSecs
  wsPongTimeoutSecs := st.config.wsPongTimeoutSecs
  tcpKeepaliveSecs := st.config.tcpKeepaliveSecs
  bufferSize := st.config.bufferSize
  maxStreams := st.config.maxStreams
  maxFrameSize := st.config.maxFrameSize
  workers := st.workers
  bind := st.bindAddr

/-! ## The intended values -/

/-- The first layer that has a value: the command line, the file, the defaults. -/
def layered {α : Type} (cli json : Option α) (prod : Bool) (prodDefault builtin : α) : α :=
  cli.getD (json.getD (if prod then prodDefault else builtin))

/-- Production mode is on, by the flag or by the file. -/
def production (m : Matches) (json : JsonConfig) : Bool := m.prod || json.prod.getD false

/-- The bind address that the first layer with one has. The file's is a text, and the process ends
if it is not an address. -/
def intendedBind (m : Matches) (json : JsonConfig) : Except Exit BindAddr :=
  match valueOf m.bind, json.bind with
  | some addr, _ => .ok addr
  | none, some text => (parseBindAddr text).elim (.error (.bind text)) .ok
  | none, none => .ok defaultBind

/-- The settings by the layers' order. -/
def intendedValues (m : Matches) (json : JsonConfig) (numPhysicalCores : Nat) (bind : BindAddr) :
    Values :=
  let prod := production m json
  { maxConnections := layered (valueOf m.maxConnections) json.maxConnections prod 8192 0
    idleTimeoutSecs := layered (valueOf m.idleTimeoutSecs) json.idleTimeoutSecs prod 300 0
    maxConnectionsPerIp :=
      layered (valueOf m.maxConnectionsPerIp) json.maxConnectionsPerIp prod 64 0
    connectionWindowSecs :=
      layered (valueOf m.connectionWindowSecs) json.connectionWindowSecs prod 60 60
    wsPingIntervalSecs := layered (valueOf m.wsPingIntervalSecs) json.wsPingIntervalSecs prod 30 0
    wsPongTimeoutSecs := layered (valueOf m.wsPongTimeoutSecs) json.wsPongTimeoutSecs prod 10 10
    tcpKeepaliveSecs := layered (valueOf m.tcpKeepaliveSecs) json.tcpKeepaliveSecs prod 60 0
    bufferSize := layered (valueOf m.bufferSize) json.bufferSize prod 65535 65535
    maxStreams := layered (valueOf m.maxStreams) json.maxStreams prod 0 0
    maxFrameSize := layered (valueOf m.maxFrameSize) json.maxFrameSize prod 0 0
    workers := orCores numPhysicalCores (layered (valueOf m.workers) json.workers prod 0 0)
    bind := bind }

/-- The settings that the server has to start with. It does not start with an address that is none,
nor with a `buffer_size` of 0. -/
def intended (m : Matches) (json : JsonConfig) (numPhysicalCores : Nat) : Except Exit Values :=
  match intendedBind m json with
  | .error e => .error e
  | .ok bind =>
    let v := intendedValues m json numPhysicalCores bind
    if v.bufferSize = 0 then .error .bufferSize else .ok v

/-- The file that the command line names, or none of its fields. -/
def jsonOf (m : Matches) (loadJsonConfig : Str → Except Str JsonConfig) : Except Str JsonConfig :=
  match valueOf m.config with
  | some path => loadJsonConfig path
  | none => .ok {}

/-! ## The condition -/

/-- What `main` takes for "the option was given": without a file every option counts as given, with
one what the scan sees. -/
def CommandLine.consulted (cl : CommandLine) (k : Scan) : Bool :=
  cl.given.config.isNone || cl.seen k

/-- A field whose production default replaces a zero: the option was given, or the file has the
field, and not a zero together with `--prod`, or the file does not have it, and it is not the file
alone that asks for production mode. -/
def ZeroKept (cli json : Option Nat) (flag : Bool) (prod : Option Bool) : Prop :=
  cli.isSome ∨ (json = some 0 → flag = false) ∧ (json = none → prod = some true → flag = true)

/-- A scanned option: it is seen if and only if it was given, or the two layers agree. -/
def ScanKept {α : Type} (seen : Bool) (cli json : Option α) (builtin : α) : Prop :=
  seen = cli.isSome ∨ cli.getD builtin = json.getD builtin

/-- The command line and the file are such that `main` honours the order of the layers. -/
structure Honoured (cl : CommandLine) (json : JsonConfig) (numPhysicalCores : Nat) : Prop where
  /-- No scan meets an argument that is not Unicode. -/
  readable : ∀ k, ∃ b, overrides cl.given.args cl.argv k = .ok b
  maxConnections :
    ZeroKept (valueOf cl.given.maxConnections) json.maxConnections cl.given.prod json.prod
  idleTimeoutSecs :
    ZeroKept (valueOf cl.given.idleTimeoutSecs) json.idleTimeoutSecs cl.given.prod json.prod
  maxConnectionsPerIp :
    ZeroKept (valueOf cl.given.maxConnectionsPerIp) json.maxConnectionsPerIp cl.given.prod json.prod
  wsPingIntervalSecs :
    ZeroKept (valueOf cl.given.wsPingIntervalSecs) json.wsPingIntervalSecs cl.given.prod json.prod
  tcpKeepaliveSecs :
    ZeroKept (valueOf cl.given.tcpKeepaliveSecs) json.tcpKeepaliveSecs cl.given.prod json.prod
  bufferSize :
    ScanKept (cl.consulted .bufferSize) (valueOf cl.given.bufferSize) json.bufferSize 65535
  maxStreams : ScanKept (cl.consulted .maxStreams) (valueOf cl.given.maxStreams) json.maxStreams 0
  maxFrameSize :
    ScanKept (cl.consulted .maxFrameSize) (valueOf cl.given.maxFrameSize) json.maxFrameSize 0
  workers : cl.consulted .workers = (valueOf cl.given.workers).isSome ∨
    orCores numPhysicalCores ((valueOf cl.given.workers).getD 0) =
      orCores numPhysicalCores (json.workers.getD 0)
  /-- A file without an address leaves the command line's, seen or not. -/
  bind : cl.consulted .bind = (valueOf cl.given.bind).isSome ∨
    ∀ text, json.bind = some text →
      parseBindAddr text = some ((valueOf cl.given.bind).getD defaultBind)

/-! ## One field -/

theorem scan_iff {α : Type} (seen : Bool) (cli json : Option α) (prod : Bool) (builtin : α) :
    (if seen then cli.getD builtin else json.getD builtin) =
        layered cli json prod builtin builtin ↔ ScanKept seen cli json builtin := by
  simp only [layered, ite_self, ScanKept]
  cases cli <;> cases seen <;> simp [eq_comm]

/-- A field with a sentinel, as `main` computes it. -/
def zeroOr (cli json : Option Nat) (flag : Bool) (unset prodDefault : Nat) : Nat :=
  cli.getD (if flag then ServerConfig.orElseAt unset (json.getD unset) prodDefault
    else json.getD unset)

theorem zero_iff (cli json : Option Nat) (flag : Bool) (prod : Option Bool) {prodDefault : Nat}
    (hp : prodDefault ≠ 0) :
    zeroOr cli json flag 0 prodDefault =
        layered cli json (flag || prod.getD false) prodDefault 0 ↔ ZeroKept cli json flag prod := by
  cases cli with
  | some v => simp [zeroOr, layered, ZeroKept]
  | none =>
    cases json with
    | some v =>
      cases flag with
      | false => simp [zeroOr, layered, ZeroKept]
      | true =>
        simp only [zeroOr, layered, ZeroKept, ServerConfig.orElseAt, Option.getD_none,
          Option.getD_some]
        by_cases hv : v = 0 <;> simp [hv, hp]
    | none =>
      rcases flag with _ | _ <;> rcases prod with _ | _ | _ <;>
        simp [zeroOr, layered, ZeroKept, ServerConfig.orElseAt, hp.symm]

/-- A field whose two defaults are the same is right in any case. -/
theorem same_default (cli json : Option Nat) (flag prod : Bool) (d : Nat) :
    zeroOr cli json flag d d = layered cli json prod d d := by
  simp only [zeroOr, layered, ServerConfig.orElseAt, ite_self]
  split
  · split
    · simp_all
    · rfl
  · rfl

theorem workers_iff (seen : Bool) (cli json : Option Nat) (prod : Bool) (cores : Nat) :
    orCores cores (if seen then cli.getD 0 else json.getD 0) =
        orCores cores (layered cli json prod 0 0) ↔
      seen = cli.isSome ∨ orCores cores (cli.getD 0) = orCores cores (json.getD 0) := by
  simp only [layered, ite_self]
  cases cli <;> cases seen <;> simp [eq_comm]

/-! ## What `main` computes -/

section Main

variable {args : Args} {argv : List Str} {loadJsonConfig : Str → Except Str JsonConfig}
  {numPhysicalCores : Nat}

theorem ok_of_bind {ε α β : Type} {x : Except ε α} {f : α → Except ε β} {b : β}
    (h : (x >>= f) = .ok b) : ∃ a, x = .ok a ∧ f a = .ok b := by
  cases x with
  | error e => cases h
  | ok a => exact ⟨a, rfl, h⟩

/-- The configuration that the workers get, from what the scans saw. -/
def merged (args : Args) (seen : Scan → Bool) (config : ServerConfig) : ServerConfig :=
  applyFlags args { config with
    bufferSize := if seen .bufferSize then args.bufferSize else config.bufferSize
    maxStreams := if seen .maxStreams then args.maxStreams else config.maxStreams
    maxFrameSize := if seen .maxFrameSize then args.maxFrameSize else config.maxFrameSize }

theorem of_start {config : ServerConfig} {st : Startup}
    (h : start args argv loadJsonConfig numPhysicalCores config = .ok st) :
    ∃ bind workers, bindAddr args argv loadJsonConfig = .ok bind ∧
      workerCount args argv loadJsonConfig numPhysicalCores = .ok workers := by
  unfold start at h
  split at h
  · cases h
  · obtain ⟨bind, hb, h⟩ := ok_of_bind h
    obtain ⟨workers, hw, -⟩ := ok_of_bind h
    exact ⟨bind, workers, hb, hw⟩

theorem readable_of_main {st : Startup}
    (h : main args argv loadJsonConfig numPhysicalCores = .ok st) (k : Scan) :
    ∃ b, overrides args argv k = .ok b := by
  unfold main at h
  obtain ⟨config, -, h⟩ := ok_of_bind h
  obtain ⟨b₁, h₁, h⟩ := ok_of_bind h
  obtain ⟨b₂, h₂, h⟩ := ok_of_bind h
  obtain ⟨b₃, h₃, h⟩ := ok_of_bind h
  obtain ⟨bind, workers, hb, hw⟩ := of_start h
  obtain ⟨b₄, h₄, -⟩ := ok_of_bind hb
  obtain ⟨b₅, h₅, -⟩ := ok_of_bind hw
  cases k with
  | bufferSize => exact ⟨b₁, h₁⟩
  | maxStreams => exact ⟨b₂, h₂⟩
  | maxFrameSize => exact ⟨b₃, h₃⟩
  | bind => exact ⟨b₄, h₄⟩
  | workers => exact ⟨b₅, h₅⟩

theorem main_eq {seen : Scan → Bool} (h : ∀ k, overrides args argv k = .ok (seen k))
    {config : ServerConfig} (hc : loadConfig args loadJsonConfig = .ok config) :
    main args argv loadJsonConfig numPhysicalCores =
      start args argv loadJsonConfig numPhysicalCores (merged args seen config) := by
  unfold main
  rw [hc, h, h, h]
  rfl

end Main

section CommandLine

variable {cl : CommandLine} {loadJsonConfig : Str → Except Str JsonConfig} {json : JsonConfig}
  {numPhysicalCores : Nat}

theorem overrides_eq_ok {k : Scan} {b : Bool}
    (h : overrides cl.given.args cl.argv k = .ok b) : b = cl.consulted k := by
  unfold overrides at h
  have hn : cl.given.args.config.isNone = cl.given.config.isNone := by
    simp [Matches.args, valueOf]
  rw [hn] at h
  unfold CommandLine.consulted
  split at h
  · next hc => simp_all
  · next hc => rw [envArgsAny_eq_ok h, cl.argv_any]; simp_all

theorem loadConfig_eq (hj : jsonOf cl.given loadJsonConfig = .ok json) :
    loadConfig cl.given.args loadJsonConfig = .ok (mergeJsonConfig json) := by
  have hc : cl.given.args.config = valueOf cl.given.config := rfl
  unfold loadConfig
  unfold jsonOf at hj
  rw [hc]
  cases hv : valueOf cl.given.config with
  | none =>
    rw [hv] at hj
    cases hj
    rfl
  | some path =>
    rw [hv] at hj
    simp only [hj]

/-- The bind address when the scans can read the arguments. -/
theorem bindAddr_eq (hj : jsonOf cl.given loadJsonConfig = .ok json)
    (h : overrides cl.given.args cl.argv .bind = .ok (cl.consulted .bind)) :
    bindAddr cl.given.args cl.argv loadJsonConfig =
      if cl.consulted .bind then .ok ((valueOf cl.given.bind).getD defaultBind)
      else match json.bind with
        | some text => (parseBindAddr text).elim (.error (.bind text)) .ok
        | none => .ok ((valueOf cl.given.bind).getD defaultBind) := by
  have hc : cl.given.args.config = valueOf cl.given.config := rfl
  unfold bindAddr
  rw [h, hc]
  unfold jsonOf at hj
  cases hs : cl.consulted .bind with
  | true => rfl
  | false =>
    rw [CommandLine.consulted, Bool.or_eq_false_iff] at hs
    cases hv : valueOf cl.given.config with
    | none => simp_all [valueOf]
    | some path =>
      rw [hv] at hj
      simp only [hj]
      cases json.bind with
      | none => rfl
      | some text => cases hp : parseBindAddr text <;> simp [hp] <;> rfl

theorem workerCount_eq (hj : jsonOf cl.given loadJsonConfig = .ok json)
    (h : overrides cl.given.args cl.argv .workers = .ok (cl.consulted .workers)) :
    workerCount cl.given.args cl.argv loadJsonConfig numPhysicalCores =
      .ok (orCores numPhysicalCores (if cl.consulted .workers then (valueOf cl.given.workers).getD 0
        else json.workers.getD 0)) := by
  have hc : cl.given.args.config = valueOf cl.given.config := rfl
  unfold workerCount
  rw [h, hc]
  unfold jsonOf at hj
  cases hs : cl.consulted .workers with
  | true => rfl
  | false =>
    rw [CommandLine.consulted, Bool.or_eq_false_iff] at hs
    cases hv : valueOf cl.given.config with
    | none => simp_all [valueOf]
    | some path =>
      rw [hv] at hj
      simp only [hj]
      rfl

/-- The values that `main` computes, from what the scans saw. -/
theorem merged_values (m : Matches) (seen : Scan → Bool) (bind : BindAddr) (workers : Nat)
    (level : Str) :
    Startup.values ⟨bind, workers, level, merged m.args seen (mergeJsonConfig json)⟩ =
      { maxConnections := zeroOr (valueOf m.maxConnections) json.maxConnections m.prod 0 8192
        idleTimeoutSecs := zeroOr (valueOf m.idleTimeoutSecs) json.idleTimeoutSecs m.prod 0 300
        maxConnectionsPerIp :=
          zeroOr (valueOf m.maxConnectionsPerIp) json.maxConnectionsPerIp m.prod 0 64
        connectionWindowSecs :=
          zeroOr (valueOf m.connectionWindowSecs) json.connectionWindowSecs m.prod 60 60
        wsPingIntervalSecs :=
          zeroOr (valueOf m.wsPingIntervalSecs) json.wsPingIntervalSecs m.prod 0 30
        wsPongTimeoutSecs := zeroOr (valueOf m.wsPongTimeoutSecs) json.wsPongTimeoutSecs m.prod 10 10
        tcpKeepaliveSecs := zeroOr (valueOf m.tcpKeepaliveSecs) json.tcpKeepaliveSecs m.prod 0 60
        bufferSize := if seen .bufferSize then (valueOf m.bufferSize).getD 65535
          else json.bufferSize.getD 65535
        maxStreams := if seen .maxStreams then (valueOf m.maxStreams).getD 0
          else json.maxStreams.getD 0
        maxFrameSize := if seen .maxFrameSize then (valueOf m.maxFrameSize).getD 0
          else json.maxFrameSize.getD 0
        workers := workers
        bind := bind } := by
  have hp : m.args.prod = m.prod := rfl
  unfold Startup.values merged applyFlags
  rw [hp]
  cases m.prod <;> rfl

/-- Field by field, the computed values are the intended ones. -/
theorem values_iff (m : Matches) (seen : Scan → Bool) (bind : BindAddr) (level : Str) :
    Startup.values ⟨bind,
        orCores numPhysicalCores
          (if seen .workers then (valueOf m.workers).getD 0 else json.workers.getD 0),
        level, merged m.args seen (mergeJsonConfig json)⟩ =
      intendedValues m json numPhysicalCores bind ↔
    ZeroKept (valueOf m.maxConnections) json.maxConnections m.prod json.prod ∧
    ZeroKept (valueOf m.idleTimeoutSecs) json.idleTimeoutSecs m.prod json.prod ∧
    ZeroKept (valueOf m.maxConnectionsPerIp) json.maxConnectionsPerIp m.prod json.prod ∧
    ZeroKept (valueOf m.wsPingIntervalSecs) json.wsPingIntervalSecs m.prod json.prod ∧
    ZeroKept (valueOf m.tcpKeepaliveSecs) json.tcpKeepaliveSecs m.prod json.prod ∧
    ScanKept (seen .bufferSize) (valueOf m.bufferSize) json.bufferSize 65535 ∧
    ScanKept (seen .maxStreams) (valueOf m.maxStreams) json.maxStreams 0 ∧
    ScanKept (seen .maxFrameSize) (valueOf m.maxFrameSize) json.maxFrameSize 0 ∧
    (seen .workers = (valueOf m.workers).isSome ∨
      orCores numPhysicalCores ((valueOf m.workers).getD 0) =
        orCores numPhysicalCores (json.workers.getD 0)) := by
  have hwindow := same_default (valueOf m.connectionWindowSecs) json.connectionWindowSecs m.prod
    (m.prod || json.prod.getD false) 60
  have hpong := same_default (valueOf m.wsPongTimeoutSecs) json.wsPongTimeoutSecs m.prod
    (m.prod || json.prod.getD false) 10
  rw [merged_values]
  simp only [intendedValues, production, Values.mk.injEq, hwindow, hpong, true_and, and_true]
  rw [zero_iff _ _ _ _ (by decide), zero_iff _ _ _ _ (by decide), zero_iff _ _ _ _ (by decide),
    zero_iff _ _ _ _ (by decide), zero_iff _ _ _ _ (by decide), scan_iff, scan_iff, scan_iff,
    workers_iff]

theorem start_eq_ok {args : Args} {argv : List Str} {config : ServerConfig} {workers : Nat}
    (hw : workerCount args argv loadJsonConfig numPhysicalCores = .ok workers) {v : Values} :
    (start args argv loadJsonConfig numPhysicalCores config).map Startup.values = .ok v ↔
      config.bufferSize ≠ 0 ∧ bindAddr args argv loadJsonConfig = .ok v.bind ∧
        Startup.values ⟨v.bind, workers, startLogLevel args config, config⟩ = v := by
  unfold start
  split
  · next h => simp [h, Except.map]
  · next h =>
    cases hb : bindAddr args argv loadJsonConfig with
    | error e => simp [bind, Except.bind, Except.map]
    | ok a =>
      rw [hw]
      change Except.ok (Startup.values ⟨a, workers, _, config⟩) = _ ↔ _
      simp only [Except.ok.injEq]
      constructor
      · rintro rfl
        exact ⟨h, rfl, rfl⟩
      · rintro ⟨-, rfl, hv⟩
        exact hv

theorem intended_eq_ok {m : Matches} {v : Values} (h : intended m json numPhysicalCores = .ok v) :
    intendedBind m json = .ok v.bind ∧ v.bufferSize ≠ 0 ∧
      v = intendedValues m json numPhysicalCores v.bind := by
  unfold intended at h
  cases hb : intendedBind m json with
  | error e => simp [hb] at h
  | ok bind =>
    simp only [hb] at h
    split at h
    · cases h
    · next h0 =>
      cases h
      exact ⟨rfl, h0, rfl⟩

/-- The bind address is the intended one. -/
theorem bind_iff {seen : Bool} {m : Matches} {addr : BindAddr}
    (h : intendedBind m json = .ok addr) :
    (if seen then Except.ok ((valueOf m.bind).getD defaultBind)
      else match json.bind with
        | some text => (parseBindAddr text).elim (.error (Exit.bind text)) .ok
        | none => .ok ((valueOf m.bind).getD defaultBind)) = .ok addr ↔
      seen = (valueOf m.bind).isSome ∨ ∀ text, json.bind = some text →
        parseBindAddr text = some ((valueOf m.bind).getD defaultBind) := by
  unfold intendedBind at h
  cases hm : valueOf m.bind with
  | some a =>
    simp only [hm, Except.ok.injEq] at h
    subst h
    cases seen with
    | true => simp
    | false =>
      cases json.bind with
      | none => simp
      | some text => cases hp : parseBindAddr text <;> simp [hp]
  | none =>
    rw [hm] at h
    cases hb : json.bind with
    | none =>
      simp only [hb, Except.ok.injEq] at h
      simp [h]
    | some text =>
      simp only [hb] at h
      cases hp : parseBindAddr text with
      | none => simp [hp] at h
      | some a =>
        simp only [hp, Option.elim_some, Except.ok.injEq] at h
        subst h
        cases seen <;> simp [hp, eq_comm]

/-- The server starts with the intended settings if and only if the command line and the file meet
the condition. -/
theorem starts_as_intended {v : Values} (hj : jsonOf cl.given loadJsonConfig = .ok json)
    (hv : intended cl.given json numPhysicalCores = .ok v) :
    (main cl.given.args cl.argv loadJsonConfig numPhysicalCores).map Startup.values = .ok v ↔
      Honoured cl json numPhysicalCores := by
  by_cases hr : ∀ k, ∃ b, overrides cl.given.args cl.argv k = .ok b
  · have hs : ∀ k, overrides cl.given.args cl.argv k = .ok (cl.consulted k) := by
      intro k
      obtain ⟨b, hb⟩ := hr k
      rw [hb, overrides_eq_ok hb]
    obtain ⟨hbind, hsize, he⟩ := intended_eq_ok hv
    rw [main_eq hs (loadConfig_eq hj), start_eq_ok (workerCount_eq hj (hs .workers)),
      bindAddr_eq hj (hs .bind), bind_iff hbind]
    constructor
    · rintro ⟨-, hb, h⟩
      rw [he] at h
      obtain ⟨h₁, h₂, h₃, h₄, h₅, h₆, h₇, h₈, h₉⟩ := (values_iff ..).mp h
      exact ⟨hr, h₁, h₂, h₃, h₄, h₅, h₆, h₇, h₈, h₉, hb⟩
    · intro h
      have hw := fun level => (values_iff cl.given cl.consulted v.bind level).mpr
        ⟨h.maxConnections, h.idleTimeoutSecs, h.maxConnectionsPerIp, h.wsPingIntervalSecs,
          h.tcpKeepaliveSecs, h.bufferSize, h.maxStreams, h.maxFrameSize, h.workers⟩
      rw [← he] at hw
      refine ⟨?_, h.bind, hw _⟩
      rw [← hw []] at hsize
      exact hsize
  · constructor
    · intro h
      cases hm : main cl.given.args cl.argv loadJsonConfig numPhysicalCores with
      | error e => rw [hm] at h; cases h
      | ok st => exact absurd (readable_of_main hm) hr
    · intro h
      exact absurd h.readable hr

end CommandLine

/-- The options in the order of the source, under the program's own name. -/
def plainly (given : Matches) : CommandLine where
  program := lit "shrimpwisp"
  given := given
  order := given.groups
  perm := .refl _

/-- `--config c.json`. -/
def withFile : Matches := { config := some ⟨.long, lit "c.json", lit "c.json", .inl (by decide)⟩ }

/-- `--config c.json -w 4`. -/
def workersApart : Matches :=
  { withFile with workers := some ⟨.short (ch 'w'), lit "4", 4, rfl, .inl (by decide)⟩ }

/-- `--config c.json -w4`. -/
def workersAttached : Matches :=
  { withFile with workers := some ⟨.attached (ch 'w'), lit "4", 4, rfl, by decide, by decide⟩ }

/-- Four workers, with a file that asks for two and has a zero for `maxConnections`. -/
theorem starts_as_intended_apart :
    (main workersApart.args (plainly workersApart).argv
        (fun _ => .ok { workers := some 2, maxConnections := some 0 }) 8).map Startup.values =
      .ok (intendedValues workersApart { workers := some 2, maxConnections := some 0 } 8
        defaultBind) := by
  have h := @starts_as_intended (plainly workersApart)
    (fun _ => .ok { workers := some 2, maxConnections := some 0 })
    { workers := some 2, maxConnections := some 0 } 8 _ rfl rfl
  refine h.mpr ⟨?_, ?_, ?_, ?_, ?_, ?_, ?_, ?_, ?_, ?_, ?_⟩
  · intro k
    cases k <;> exact ⟨_, rfl⟩
  · exact .inr ⟨fun _ => rfl, nofun⟩
  · exact .inr ⟨nofun, fun _ => nofun⟩
  · exact .inr ⟨nofun, fun _ => nofun⟩
  · exact .inr ⟨nofun, fun _ => nofun⟩
  · exact .inr ⟨nofun, fun _ => nofun⟩
  · exact .inr rfl
  · exact .inr rfl
  · exact .inr rfl
  · exact .inl rfl
  · exact .inr nofun

/-- Three ways to start with other settings: a value attached to a short option, which no scan sees
(`-w4`), a zero of the file under `--prod`, and production mode by the file alone. -/
theorem starts_otherwise :
    ((main workersAttached.args (plainly workersAttached).argv
        (fun _ => .ok { workers := some 2 }) 8).map (·.values.workers) = .ok 2 ∧
      (intended workersAttached { workers := some 2 } 8).map (·.workers) = .ok 4) ∧
    ((main { withFile with prod := true }.args (plainly { withFile with prod := true }).argv
        (fun _ => .ok { maxConnections := some 0 }) 8).map (·.values.maxConnections) = .ok 8192 ∧
      (intended { withFile with prod := true } { maxConnections := some 0 } 8).map
        (·.maxConnections) = .ok 0) ∧
    ((main withFile.args (plainly withFile).argv
        (fun _ => .ok { prod := some true }) 8).map (·.values.idleTimeoutSecs) = .ok 0 ∧
      (intended withFile { prod := some true } 8).map (·.idleTimeoutSecs) = .ok 300) := by
  decide +kernel

end ShrimpWisp
