import ShrimpWisp.Proofs.Incarnation
import ShrimpWisp.Proofs.Opening

/-!
# Egress policy

The addresses that a connection opens, over whole runs.

* `egress_policy`: every address that is passed to `TcpStream::connect` or stored in a UDP stream
  belongs to an accepted CONNECT that passed the checks, has its port, and is not blocked.
* **Literals** (`Traced`): an address comes from a name lookup, unless the hostname is a raw IP
  address or a bracketed IPv6 address. The latter passes `is_raw_ip`, and `lookup_host` reads
  `[addr]:port` as a socket address.
* `opened_by_lookup_iff`: without direct IPs, the streams of a hostname are opened to looked-up
  addresses only, exactly if the hostname is not such a bracketed address that passes the other
  checks (`SpellsOut`).
-/

namespace ShrimpWisp

variable {S : Setup} {c d : Core}

/-! ## The resolver -/

/-- Where the address of a hostname can come from (module doc). -/
def Traced (h : Str) (ip : IpAddr) (source : AddrSource) : Prop :=
  source = .lookup ∨ Security.isRawIp h = true ∨ ∃ x, bracketedIpv6 h = some x ∧ ip = .v6 x

/-- The resolver's result for a CONNECT. -/
structure Answers (connect : ConnectPayload) (r : Resolved) : Prop where
  port : r.addr.port = connect.port
  traced : Traced connect.hostname r.addr.ip r.source

/-- Every entry of the cache is traced. -/
def CacheTraced (d : DnsCache) : Prop := ∀ p ∈ d.cache, Traced p.1 p.2.first p.2.source

theorem orderAddrs_singleton (b : Bool) (ip : IpAddr) : orderAddrs b [ip] = [ip] := by
  cases b <;> cases ip <;> rfl

/-- The new entry of the cache, and the resolver's result. -/
theorem resolveLookup_traced {d d' : DnsCache} {now : Nat} {h : Str} {port : UInt16}
    {answer : Answer} {r : Resolved} (hd : CacheTraced d)
    (hr : resolveLookup d now h port answer = .ok (r, d')) :
    Traced h r.addr.ip r.source ∧ CacheTraced d' := by
  unfold resolveLookup at hr
  split at hr
  · cases hr
  · rename_i sockAddrs source hl
    split at hr
    · cases hr
    · rename_i hne
      cases hr
      have htraced : Traced h
          ((orderAddrs d.ipv4First (sockAddrs.map (·.ip))).head
            (orderAddrs_ne_nil (by simpa using hne))) source := by
        unfold lookupHost at hl
        split at hl
        · rename_i a ha
          cases hl
          simp only [List.map_cons, List.map_nil, orderAddrs_singleton, List.head_cons]
          rcases parseSocketAddr_host ha with ⟨x, hx, -⟩ | ⟨x, hx, hip⟩
          · refine .inr (.inl ?_)
            rw [Security.isRawIp, parseIpv4Addr_eq, hx]
            rfl
          · exact .inr (.inr ⟨x, hx, hip⟩)
        · refine .inl ?_
          cases answer with
          | error e => cases hl
          | ok l => cases hl; rfl
      refine ⟨htraced, ?_⟩
      intro p hp
      rcases List.mem_cons.mp hp with rfl | hp
      · exact htraced
      · exact hd p (List.mem_filter.mp hp).1

theorem resolveNow_traced {d : DnsCache} {now : Nat} {h : Str} {port : UInt16} {r : Resolved}
    (hd : CacheTraced d) (hr : resolveNow d now h port = some r) :
    Traced h r.addr.ip r.source := by
  unfold resolveNow at hr
  split at hr
  · rename_i ip hip
    exact .inr (.inl (Security.isRawIp_of_parseIpAddr hip))
  · obtain ⟨q, hq, rfl⟩ := Option.map_eq_some_iff.mp hr
    unfold DnsCache.getCached at hq
    split at hq
    · rename_i entry he
      split at hq
      · cases hq
        obtain ⟨l₁, l₂, hcache, -⟩ := List.lookup_eq_some_iff.mp he
        exact hd (h, entry) (by rw [hcache]; simp)
      · cases hq
    · cases hq

theorem Resolves.answers {connect : ConnectPayload} {known res : Option Resolved}
    {d d' : DnsCache} (h : Resolves d connect known res d') (hd : CacheTraced d)
    (hknown : ∀ r, known = some r → Answers connect r) :
    (∀ r, res = some r → Answers connect r) ∧ CacheTraced d' := by
  rcases h with ⟨r, hk, hr, rfl⟩ | ⟨-, now, answer, ⟨hr, rfl⟩ | ⟨r, hr, hl⟩⟩
  · refine ⟨fun r' hr' => hknown r' ?_, hd⟩
    rw [hk, ← hr, hr']
  · refine ⟨fun r' hr' => ?_, hd⟩
    rw [hr] at hr'
    cases hr'
  · obtain ⟨ht, hc⟩ := resolveLookup_traced hd hl
    refine ⟨fun r' hr' => ?_, hc⟩
    rw [hr] at hr'
    cases hr'
    exact ⟨resolveLookup_port hl, ht⟩

/-! ## The invariant -/

/-- An opened address belongs to an accepted CONNECT that passed the checks, and is not blocked. -/
def Cleared (S : Setup) (accepted : List Accept) (o : Opened) : Prop :=
  ∃ a ∈ accepted, a.inc = o.inc ∧ Admitted S a.streamId a.connect ∧ Answers a.connect o.addr ∧
    Security.isIpBlocked o.addr.addr.ip S.config = false

theorem Cleared.mono {l l' : List Accept} {o : Opened} (h : Cleared S l o) (hl : l ⊆ l') :
    Cleared S l' o := by
  obtain ⟨a, ha, h⟩ := h
  exact ⟨a, hl ha, h⟩

/-- The UDP stream has the socket of its CONNECT, and the address that was resolved for it. -/
structure BoundFor (bound : List Opened) (u : UdpProxyStream) : Prop where
  socket : u.socket = u.cancel.owner
  dest : ∃ r, r.addr = u.destAddr ∧ ⟨u.cancel.owner, r⟩ ∈ bound

theorem BoundFor.cons {bound : List Opened} {u : UdpProxyStream} (h : BoundFor bound u)
    (o : Opened) : BoundFor (o :: bound) u := by
  obtain ⟨r, hr, hb⟩ := h.dest
  exact ⟨h.socket, r, hr, List.mem_cons_of_mem _ hb⟩

/-- The invariant of this module: the checks of a CONNECT on its way to the opened address. -/
structure Egress (S : Setup) (c : Core) : Prop where
  cache : CacheTraced c.dns
  tcp : ∀ s connect f known, c.attempt = .tcp s connect f known →
    ⟨f.owner, s, connect⟩ ∈ c.accepted ∧ Admitted S s connect ∧
      ∀ r, known = some r → Answers connect r
  udp : ∀ s connect known, c.attempt = .udp s connect known →
    Admitted S s connect ∧ ∀ r, known = some r → Answers connect r
  spawned : ∀ t ∈ c.tasks, ∀ r, t.state = .spawned r → Cleared S c.accepted ⟨t.cancel.owner, r⟩
  opened : ∀ o ∈ c.dialed ++ c.bound, Cleared S c.accepted o
  dests : ∀ s u, c.entry s = some (.udp u) → BoundFor c.bound u

theorem Egress.cache_step (h : Egress S c) (he : Effect S c d) : CacheTraced d.dns := by
  have htcp : ∀ {s connect f known res dns}, c.attempt = .tcp s connect f known →
      Resolves c.dns connect known res dns → CacheTraced dns :=
    fun ha hr => (hr.answers h.cache (h.tcp _ _ _ _ ha).2.2).2
  have hudp : ∀ {s connect known res dns}, c.attempt = .udp s connect known →
      Resolves c.dns connect known res dns → CacheTraced dns :=
    fun ha hr => (hr.answers h.cache (h.udp _ _ _ ha).2).2
  cases he with
  | otherResolve _ hr => exact (resolveLookup_traced h.cache hr).2
  | tcpFailed ha hr => exact htcp ha hr
  | spawnConnect ha hr _ => exact htcp ha hr
  | refuseUdp ha hr => exact hudp ha hr
  | refuseUdpFlag ha hr => exact hudp ha hr
  | acceptUdp ha hr _ _ => exact hudp ha hr
  | _ => exact h.cache

theorem Egress.tcp_step (h : Egress S c) (he : Effect S c d) :
    ∀ s connect f known, d.attempt = .tcp s connect f known →
      ⟨f.owner, s, connect⟩ ∈ d.accepted ∧ Admitted S s connect ∧
        ∀ r, known = some r → Answers connect r := by
  intro s connect f known hd
  have hkeep : d.attempt = c.attempt → d.accepted = c.accepted → ⟨f.owner, s, connect⟩ ∈ d.accepted ∧
      Admitted S s connect ∧ ∀ r, known = some r → Answers connect r := by
    intro ha hc
    rw [hc]
    exact h.tcp s connect f known (ha ▸ hd)
  cases he with
  | acceptTcp _ _ ha =>
    cases hd
    exact ⟨List.mem_cons_self, ha, fun r hr => ⟨resolveNow_port hr, resolveNow_traced h.cache hr⟩⟩
  | newFlag => cases hd
  | tcpFailed _ _ => cases hd
  | spawnConnect _ _ _ => cases hd
  | sendFailed _ _ => cases hd
  | startUdp _ _ => cases hd
  | refuseUdp _ _ => cases hd
  | refuseUdpFlag _ _ => cases hd
  | acceptUdp _ _ _ _ => cases hd
  | _ => exact hkeep rfl rfl

theorem Egress.udp_step (h : Egress S c) (he : Effect S c d) :
    ∀ s connect known, d.attempt = .udp s connect known →
      Admitted S s connect ∧ ∀ r, known = some r → Answers connect r := by
  intro s connect known hd
  cases he with
  | startUdp _ ha =>
    cases hd
    exact ⟨ha, fun r hr => ⟨resolveNow_port hr, resolveNow_traced h.cache hr⟩⟩
  | acceptTcp _ _ _ => cases hd
  | newFlag => cases hd
  | tcpFailed _ _ => cases hd
  | spawnConnect _ _ _ => cases hd
  | sendFailed _ _ => cases hd
  | refuseUdp _ _ => cases hd
  | refuseUdpFlag _ _ => cases hd
  | acceptUdp _ _ _ _ => cases hd
  | _ => exact h.udp s connect known hd

theorem Egress.spawned_step (h : Egress S c) (he : Effect S c d) :
    ∀ t ∈ d.tasks, ∀ r, t.state = .spawned r → Cleared S d.accepted ⟨t.cancel.owner, r⟩ := by
  have hmono := he.accepted_subset
  refine he.forall_tasks (fun t ht r hr => (h.spawned t ht r hr).mono hmono) ?_ ?_
  · intro t ht r hr
    cases ht with
    | reader _ _ _ => cases hr
    | connect ha hres hb =>
      cases hr
      obtain ⟨hacc, hadm, hknown⟩ := h.tcp _ _ _ _ ha
      exact ⟨_, hmono hacc, rfl, hadm, (hres.answers h.cache hknown).1 _ rfl, hb⟩
  · intro t ht st hst r hr
    cases hst <;> cases hr

theorem Egress.opened_step (h : Egress S c) (he : Effect S c d) :
    ∀ o ∈ d.dialed ++ d.bound, Cleared S d.accepted o := by
  have hmono := he.accepted_subset
  have hold : ∀ o ∈ c.dialed ++ c.bound, Cleared S d.accepted o :=
    fun o ho => (h.opened o ho).mono hmono
  cases he with
  | dial ht hst _ =>
    intro o ho
    rcases List.mem_cons.mp ho with rfl | ho
    · exact h.spawned _ (List.mem_of_getElem? ht) _ hst
    · exact hold o ho
  | acceptUdp ha hres hb _ =>
    intro o ho
    rcases List.mem_append.mp ho with ho | ho
    · exact hold o (List.mem_append_left _ ho)
    · rcases List.mem_cons.mp ho with rfl | ho
      · obtain ⟨hadm, hknown⟩ := h.udp _ _ _ ha
        exact ⟨_, List.mem_cons_self, rfl, hadm, (hres.answers h.cache hknown).1 _ rfl, hb⟩
      · exact hold o (List.mem_append_right _ ho)
  | _ => exact hold

theorem Egress.dests_step (h : Egress S c) (he : Effect S c d) :
    ∀ s u, d.entry s = some (.udp u) → BoundFor d.bound u := by
  have hput : ∀ {s₀ : StreamId} {x : Option (ProxyStream Octet)}, (∀ u, x ≠ some (.udp u)) →
      ∀ s u, (c.put s₀ x).entry s = some (.udp u) → BoundFor c.bound u := by
    intro s₀ x hx s u hs
    simp only [Core.put] at hs
    split at hs
    · exact absurd hs (hx u)
    · exact h.dests s u hs
  cases he with
  | early _ _ _ _ => exact hput (by simp)
  | upload _ _ _ _ => exact hput (by simp)
  | uploadDead _ _ _ _ => exact hput (by simp)
  | untrack _ _ => exact hput (by simp)
  | drain _ _ => exact hput (by simp)
  | remove _ => exact hput (by simp)
  | ended _ _ _ => exact hput (by simp)
  | acceptTcp _ _ _ => exact hput (by simp)
  | attach _ _ _ _ _ => exact hput (by simp)
  | attachDead _ _ _ _ _ => exact hput (by simp)
  | acceptUdp _ _ _ _ =>
    intro s u hs
    simp only [Core.put, Core.accept] at hs
    split at hs
    · cases hs
      exact ⟨rfl, _, rfl, List.mem_cons_self⟩
    · exact (h.dests s u hs).cons _
  | _ => exact h.dests

theorem egress_start : Egress S (Core.start S) where
  cache _ hp := absurd hp List.not_mem_nil
  tcp _ _ _ _ h := Attempt.noConfusion h
  udp _ _ _ h := Attempt.noConfusion h
  spawned _ ht := absurd ht List.not_mem_nil
  opened _ ho := absurd ho List.not_mem_nil
  dests s u h := by
    rw [Core.start_entry] at h
    cases h

theorem Egress.step (h : Egress S c) (he : Effect S c d) : Egress S d where
  cache := h.cache_step he
  tcp := h.tcp_step he
  udp := h.udp_step he
  spawned := h.spawned_step he
  opened := h.opened_step he
  dests := h.dests_step he

theorem Reach.egress {ok : Conn → Act → Conn → Prop} {c : Conn} (h : (sys S).Reach ok c) :
    Egress S c.core := by
  refine Reach.core (R := fun _ _ => True) (fun _ _ _ _ => trivial) egress_start ?_ h
  intro c d fs _ hi he _ _
  have := hi.step he
  exact ⟨this.cache, this.tcp, this.udp, this.spawned, this.opened, this.dests⟩

/-! ## The policy -/

/-- The address may be opened for the CONNECT with this number. -/
def Permitted (S : Setup) (c : Conn) (inc : Inc) (addr : SocketAddr) : Prop :=
  ∃ a ∈ c.accepted, a.inc = inc ∧ Admitted S a.streamId a.connect ∧
    addr.port = a.connect.port ∧ Security.isIpBlocked addr.ip S.config = false

theorem Cleared.permitted {c : Conn} {o : Opened} (h : Cleared S c.accepted o) :
    Permitted S c o.inc o.addr.addr := by
  obtain ⟨a, ha, hinc, hadm, hans, hb⟩ := h
  exact ⟨a, ha, hinc, hadm, hans.port, hb⟩

/-- In every reachable state, each address that was passed to `TcpStream::connect` and each
destination of a UDP stream is permitted. -/
theorem egress_policy {c : Conn} (h : (sys S).Reach Sys.Any c) :
    (∀ o ∈ c.dialed, Permitted S c o.inc o.addr.addr) ∧
    (∀ o ∈ c.bound, Permitted S c o.inc o.addr.addr) ∧
    ∀ s u, c.table.get? s = some (.udp u) → Permitted S c u.cancel.owner u.destAddr := by
  have he := Reach.egress h
  refine ⟨fun o ho => (he.opened o (List.mem_append_left _ ho)).permitted,
    fun o ho => (he.opened o (List.mem_append_right _ ho)).permitted, ?_⟩
  intro s u hu
  obtain ⟨r, hr, hb⟩ := (he.dests s u hu).dest
  rw [← hr]
  exact (he.opened _ (List.mem_append_right _ hb)).permitted

/-- Stream 1 is opened over TCP, stream 2 over UDP to the cached address of the same name. -/
def openTwo : List Act :=
  openOne ++ [.client (packet packetConnect 2 (connectPayloadBytes ⟨.udp, 53, lit "a.io"⟩)),
    .main {}, .main {}]

/-- A backend was dialed, and stream 2 is a UDP stream. -/
def openedTwo (c : Conn) : Bool :=
  match c.dialed, c.table.get? 2 with
  | _ :: _, some (.udp _) => true
  | _, _ => false

/-- Both addresses of `openTwo` are permitted. -/
theorem egress_policy_two :
    ∃ c o u, (sys { config := {} }).Reach Sys.Any c ∧ o ∈ c.dialed ∧
      Permitted { config := {} } c o.inc o.addr.addr ∧ c.table.get? 2 = some (.udp u) ∧
      Permitted { config := {} } c u.cancel.owner u.destAddr := by
  obtain ⟨c, hr, hp⟩ := Reach.of_run { config := {} } Sys.Any openTwo openedTwo (by decide +kernel)
  obtain ⟨htcp, -, hudp⟩ := egress_policy hr
  unfold openedTwo at hp
  split at hp
  · rename_i o l u ho hu
    have ho : o ∈ c.dialed := by rw [ho]; exact List.mem_cons_self
    exact ⟨c, o, u, hr, ho, htcp o ho, hu, hudp 2 u hu⟩
  · cases hp

/-! ## Literals -/

/-- The hostname spells out an address that the connection opens (module doc): it is a bracketed
IPv6 address that is not blocked, some port is not blocked either, and its CONNECT fits a frame. -/
def SpellsOut (S : Setup) (h : Str) : Prop :=
  ∃ x port, bracketedIpv6 h = some x ∧ Security.isIpBlocked (.v6 x) S.config = false ∧
    S.config.isHostnameBlocked h = false ∧ port ≠ 0 ∧ S.config.isPortBlocked port = false ∧
    h.length + 8 ≤ S.frameLimit

/-- The address was opened for a CONNECT to `h`. -/
def OpenedFor (c : Conn) (h : Str) (r : Resolved) : Prop :=
  ∃ a ∈ c.accepted, a.connect.hostname = h ∧ ⟨a.inc, r⟩ ∈ c.dialed ++ c.bound

/-- An address that does not come from a lookup is one that the hostname spells out. -/
theorem spellsOut_of_opened (hdirect : S.config.allowDirectIp = false) {c : Conn}
    (hr : (sys S).Reach Sys.Any c) {h : Str} {r : Resolved} (ho : OpenedFor c h r)
    (hsrc : r.source ≠ .lookup) : SpellsOut S h := by
  obtain ⟨a, ha, rfl, ho⟩ := ho
  have he := Reach.egress hr
  obtain ⟨a', ha', hinc, hadm, hans, hb⟩ := he.opened _ ho
  obtain rfl := (Reach.base hr).unique a' ha' a ha hinc
  rcases hans.traced with hl | hraw | ⟨x, hx, hip⟩
  · exact absurd hl hsrc
  · rw [Security.not_isRawIp_of_preResolution hdirect hadm.preResolution] at hraw
    cases hraw
  · rw [hip] at hb
    exact ⟨x, _, hx, hb, hadm.hostname, hadm.port, hadm.portList, hadm.frame⟩

/-- The lookup of a hostname that spells out an address. -/
theorem resolveLookup_spelled {h : Str} {x : Ipv6Addr} (hx : bracketedIpv6 h = some x)
    (d : DnsCache) (now : Nat) (port : UInt16) (answer : Answer) :
    ∃ d', resolveLookup d now h port answer = .ok (⟨⟨.v6 x, port⟩, .spelled⟩, d') := by
  have hp := parseSocketAddr_bracketed hx port
  simp [resolveLookup, lookupText, lookupHost, hp, DnsCache.insertResolved, orderAddrs_singleton]

/-- A hostname that spells out an address is opened to it, without any lookup. -/
theorem opened_of_spellsOut {h : Str} (hl : h.length ≤ 253) (hv : Utf8.valid h = true)
    (hs : SpellsOut S h) :
    ∃ c r, (sys S).Reach Sys.Any c ∧ OpenedFor c h r ∧ r.source = .spelled := by
  obtain ⟨x, port, hx, hb, hhost, hport, hports, hframe⟩ := hs
  obtain ⟨body, hbody, -⟩ := bracketedIpv6_eq_some.mp hx
  have hpre : Security.isHostnameBlockedPreResolution h S.config = false := by
    rw [hbody]; exact Security.preResolution_bracket _ _
  have hadm : Admitted S 1 ⟨.tcp, port, h⟩ :=
    ⟨by decide, hport, hhost, hports, hpre, hframe⟩
  obtain ⟨f, c, hr, hc⟩ := calm_accept (calm_select (calm_client calm_start _)) rfl
    (Nat.eq_zero_or_pos _) hadm rfl (by rw [hbody]; simp) hl hv
  have hknown : resolveNow c.dns c.now h port = none := by
    have : parseIpAddr h = none := by rw [hbody]; exact parseIpAddr_bracket _
    simp only [resolveNow, this, DnsCache.getCached, hc.dns, List.lookup_nil, Option.map_none]
  have hraw : (!S.config.allowDirectIp && Security.isRawIp h) = false := by
    cases hd : S.config.allowDirectIp with
    | true => rfl
    | false => rw [Security.not_isRawIp_of_preResolution hd hpre]; rfl
  obtain ⟨d', hlookup⟩ := resolveLookup_spelled hx c.dns c.now port (.error [])
  simp only [hknown] at hc
  have hacc := ((Reach.egress hr).tcp 1 ⟨.tcp, port, h⟩ f none
    (by simp only [Conn.core, hc.pc, Pc.attempt])).1
  have hspawn := reach_spawn hr hc.pc hc.continues (.inr ⟨rfl, hlookup⟩) hb hraw
  have hdial := reach_dial hspawn List.getElem?_concat_length rfl
    (by simp [Flags.isCancelled, hc.flags])
  exact ⟨_, _, hdial, ⟨_, hacc, rfl, List.mem_cons_self⟩, rfl⟩

/-- Without direct IPs, every address opened for a hostname comes from a name lookup, exactly if the
hostname does not spell out an address (`SpellsOut`). -/
theorem opened_by_lookup_iff (hdirect : S.config.allowDirectIp = false) {h : Str}
    (hl : h.length ≤ 253) (hv : Utf8.valid h = true) :
    (∀ c r, (sys S).Reach Sys.Any c → OpenedFor c h r → r.source = .lookup) ↔
      ¬ SpellsOut S h := by
  constructor
  · intro hall hs
    obtain ⟨c, r, hr, ho, hsrc⟩ := opened_of_spellsOut hl hv hs
    rw [hall c r hr ho] at hsrc
    cases hsrc
  · intro hs c r hr ho
    by_contra hsrc
    exact hs (spellsOut_of_opened hdirect hr ho hsrc)

/-- Without direct IPs. -/
def indirect : Setup := { config := { allowDirectIp := false } }

theorem opened_by_lookup_iff_name :
    ¬ SpellsOut indirect (lit "a.io") ∧
      ∀ c r, (sys indirect).Reach Sys.Any c → OpenedFor c (lit "a.io") r → r.source = .lookup := by
  have hs : ¬ SpellsOut indirect (lit "a.io") := by
    rintro ⟨x, port, hx, -⟩
    rw [show bracketedIpv6 (lit "a.io") = none by decide] at hx
    cases hx
  exact ⟨hs, (opened_by_lookup_iff rfl (by decide) (by decide)).mpr hs⟩

/-- Without direct IPs, the CONNECT to `[2001:db8::1]` opens a TCP stream to the address that its
hostname spells out. -/
theorem opened_without_lookup :
    ∃ c r, (sys indirect).Reach Sys.Any c ∧ OpenedFor c (lit "[2001:db8::1]") r ∧
      r = ⟨⟨.v6 ⟨0x2001, 0xdb8, 0, 0, 0, 0, 0, 1⟩, 80⟩, .spelled⟩ := by
  obtain ⟨c, hr, hp⟩ := Reach.of_run indirect Sys.Any
    ([.client (packet packetConnect 1 (connectPayloadBytes ⟨.tcp, 80, lit "[2001:db8::1]"⟩)),
      .main {}] ++ toSelect ++ [.main {}, .main {}] ++ toSelect ++ [.task 0 .go])
    (fun c => decide (c.accepted = [⟨0, 1, ⟨.tcp, 80, lit "[2001:db8::1]"⟩⟩] ∧
      c.dialed = [⟨0, ⟨⟨.v6 ⟨0x2001, 0xdb8, 0, 0, 0, 0, 0, 1⟩, 80⟩, .spelled⟩⟩]))
    (by decide +kernel)
  obtain ⟨ha, hd⟩ := of_decide_eq_true hp
  refine ⟨c, _, hr, ⟨_, by rw [ha]; exact List.mem_cons_self, rfl, ?_⟩, rfl⟩
  rw [hd]
  exact List.mem_cons_self

end ShrimpWisp
