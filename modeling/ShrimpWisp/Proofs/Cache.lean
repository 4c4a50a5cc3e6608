import ShrimpWisp.Proofs.Resolution
import ShrimpWisp.Server.Turn

/-!
# The cache of a connection

A connection has its own copy of the worker's cache, which other connections fill at any time
(`Act.otherResolve`). The worker has the calls of all connections (`Resolver.sys`).

* `dns_stepMain`: a step of the main task keeps the cache, or it completes a lookup (`LooksUp`), whose
  name is no IP literal (`Named`).
* `Reach.exists_worker`: while the clock does not run out, the cache of a connection is one that the
  tasks of a worker reach. So what holds of the worker's cache in every run holds of the connection's.
  The invariant (`HasWorker`) is stronger: any calls may still wait there. The next lookup is one of
  them, which has waited since the start.
-/

namespace ShrimpWisp

variable {S : Setup}

namespace Conn

/-! ## What keeps the cache -/

theorem dns_flushThen (c : Conn) (q : Pc) : (c.flushThen q).dns = c.dns := rfl

theorem dns_finish (c : Conn) (site : Site) : (c.finish S site).dns = c.dns := by
  cases site with
  | deferred => rw [finish, dns_flushThen]
  | select => rw [finish, dns_flushThen]
  | inner =>
    rw [finish]
    split
    · rw [dns_flushThen]
    · rfl

theorem dns_breakLoop (c : Conn) (site : Site) : (c.breakLoop site).dns = c.dns := by
  cases site <;> rfl

theorem dns_removeStream (c : Conn) (s : StreamId) : (c.removeStream s).dns = c.dns := by
  unfold removeStream StreamTable.remove
  cases c.table.get? s with
  | none => rfl
  | some x => cases x <;> rfl

theorem dns_handleDataZerocopy (c : Conn) (s : StreamId) (payload : List UInt8) (e : Env) :
    (c.handleDataZerocopy S s payload e).2.dns = c.dns := by
  unfold handleDataZerocopy
  split
  · rfl
  · dsimp only
    split
    · exact dns_removeStream _ _
    · rfl
  · rfl
  · dsimp only
    split <;> rfl

theorem dns_handleData (c : Conn) (site : Site) (s : StreamId) (payload : List UInt8) (e : Env) :
    (c.handleData S site s payload e).dns = c.dns := by
  have h := dns_handleDataZerocopy (S := S) c s payload e
  unfold handleData
  split
  · next hd =>
    rw [hd] at h
    exact (dns_finish _ _).trans h
  · next hd =>
    rw [hd] at h
    exact (dns_finish _ _).trans h

theorem dns_refuse (c : Conn) (site : Site) (s : StreamId) (reason : CloseReason) :
    (c.refuse S site s reason).dns = c.dns := dns_finish _ _

theorem dns_handleTcpConnect (c : Conn) (site : Site) (s : StreamId) (connect : ConnectPayload) :
    (c.handleTcpConnect S site s connect).dns = c.dns := by
  unfold handleTcpConnect
  dsimp only
  split
  · exact dns_refuse _ _ _ _
  · rfl

theorem dns_handleUdpConnect (c : Conn) (site : Site) (s : StreamId) (connect : ConnectPayload)
    (e : Env) : (c.handleUdpConnect S site s connect e).dns = c.dns := by
  unfold handleUdpConnect
  split
  · rfl
  · exact dns_refuse _ _ _ _

theorem dns_tcpResolved (c : Conn) (site : Site) (s : StreamId) (connect : ConnectPayload)
    (cancel : CancelFlag) (resolved : Option Resolved) :
    (c.tcpResolved S site s connect cancel resolved).dns = c.dns := by
  unfold tcpResolved
  dsimp only
  split
  · rfl
  · split
    · rfl
    · split
      · rfl
      · exact dns_finish _ _

theorem dns_udpResolved (c : Conn) (site : Site) (s : StreamId) (connect : ConnectPayload)
    (resolved : Option Resolved) : (c.udpResolved S site s connect resolved).dns = c.dns := by
  unfold udpResolved
  split
  · exact dns_refuse _ _ _ _
  · split
    · exact dns_refuse _ _ _ _
    · dsimp only
      split
      · exact dns_refuse _ _ _ _
      · exact dns_finish _ _

theorem dns_handleConnect (c : Conn) (site : Site) (s : StreamId) (connect : ConnectPayload)
    (e : Env) : (c.handleConnect S site s connect e).dns = c.dns := by
  unfold handleConnect
  split
  · exact dns_refuse _ _ _ _
  split
  · exact dns_refuse _ _ _ _
  split
  · exact dns_refuse _ _ _ _
  split
  · exact dns_refuse _ _ _ _
  split
  · exact dns_refuse _ _ _ _
  split
  · exact dns_handleTcpConnect _ _ _ _
  · exact dns_handleUdpConnect _ _ _ _ _

/-- A CLOSE of the client. -/
theorem dns_close (c : Conn) (site : Site) (s : StreamId) :
    ((c.removeStream s).finish S site).dns = c.dns := by
  rw [dns_finish, dns_removeStream]

theorem dns_handleInbound (c : Conn) (site : Site) (e : Env) (r : Option WispFrameResult) :
    (c.handleInbound S site e r).dns = c.dns := by
  unfold handleInbound
  split
  · exact dns_breakLoop _ _
  · split
    · exact dns_handleData _ _ _ _ _
    split
    · split
      · exact dns_handleConnect _ _ _ _ _
      · exact dns_refuse _ _ _ _
    split
    · split
      · exact dns_breakLoop _ _
      · exact dns_close _ _ _
    · exact dns_finish _ _
  · split
    · exact dns_breakLoop _ _
    · exact dns_finish _ _
    · exact dns_finish _ _
    · exact dns_finish _ _

theorem dns_processInboundFrame (c : Conn) (e : Env) (payload : List UInt8) :
    (c.processInboundFrame S e payload).dns = c.dns := by
  unfold processInboundFrame
  split
  · exact dns_finish _ _
  split
  · dsimp only
    split
    · exact dns_handleData _ _ _ _ _
    split
    · split
      · exact dns_handleConnect _ _ _ _ _
      · exact dns_refuse _ _ _ _
    split
    · split
      · exact dns_finish _ _
      · exact dns_close _ _ _
    · exact dns_finish _ _
  · exact dns_finish _ _

theorem dns_handleControlEvent (c : Conn) (e : Env) (p : Posted) :
    (c.handleControlEvent S e p).dns = c.dns := by
  unfold handleControlEvent
  split
  · exact dns_removeStream c _
  · unfold handleTcpConnected
    split
    · dsimp only
      split <;> rfl
    · rfl
    · rfl
  · exact dns_removeStream c _

theorem dns_drainOne (c : Conn) (s : StreamId) (r : WriteResult) :
    (c.drainOne s r).2.2.dns = c.dns := by
  unfold drainOne
  split
  · split <;> rfl
  · rfl

theorem dns_resetIdle (c : Conn) : (c.resetIdle S).dns = c.dns := by
  unfold resetIdle
  split <;> rfl

theorem dns_stepTimers {c c' : Conn} (hs : c.stepTimers S = some c') : c'.dns = c.dns := by
  unfold stepTimers at hs
  repeat' split at hs
  all_goals cases hs
  all_goals rfl

theorem dns_stepSelect {c c' : Conn} {e : Env} (hs : c.stepSelect S e = some c') :
    c'.dns = c.dns := by
  unfold stepSelect at hs
  split at hs
  · cases hs
    exact (dns_handleInbound _ _ _ _).trans (dns_resetIdle _)
  · cases hs
    exact (dns_handleInbound _ _ _ _).trans (dns_resetIdle _)
  · split at hs
    · cases hs
      rfl
    · split at hs
      · cases hs
        exact dns_handleControlEvent _ _ _
      · have h := dns_stepTimers hs
        exact h

/-- A step of the main task keeps the cache, or it completes a lookup. -/
theorem dns_stepMain {c c' : Conn} {e : Env} (hs : c.stepMain S e = some c') :
    c'.dns = c.dns ∨ ∃ connect r, Resolver.LooksUp c.pc connect ∧
      resolveLookup c.dns c.now connect.hostname connect.port e.answer = .ok (r, c'.dns) := by
  unfold stepMain at hs
  split at hs
  · cases hs
    exact .inl (dns_finish _ _)
  · cases hs
    exact .inl (dns_processInboundFrame _ _ _)
  · split at hs
    · cases hs
      exact .inl ((dns_handleInbound _ _ _ _).trans (dns_resetIdle _))
    · cases hs
      exact .inl (dns_flushThen _ _)
  · next site streamId connect cancel known hpc =>
    split at hs
    · cases hs
      exact .inl (dns_tcpResolved _ _ _ _ _ _)
    · split at hs
      · cases hs
        exact .inl (dns_tcpResolved _ _ _ _ _ _)
      · next r dns hr =>
        cases hs
        refine .inr ⟨connect, r, .inl ⟨_, _, _, hpc⟩, ?_⟩
        rw [dns_tcpResolved]
        exact hr
  · next site streamId connect known hpc =>
    split at hs
    · cases hs
      exact .inl (dns_udpResolved _ _ _ _ _)
    · split at hs
      · cases hs
        exact .inl (dns_udpResolved _ _ _ _ _)
      · next r dns hr =>
        cases hs
        refine .inr ⟨connect, r, .inr ⟨_, _, hpc⟩, ?_⟩
        rw [dns_udpResolved]
        exact hr
  · split at hs
    · cases hs
      exact .inl (dns_finish _ _)
    · cases hs
  · cases hs
    exact .inl rfl
  · cases hs
    exact .inl (dns_drainOne _ _ _)
  · cases hs
    exact .inl rfl
  · cases hs
    exact .inl (dns_removeStream _ _)
  · split at hs
    · cases hs
      exact .inl (dns_handleControlEvent _ _ _)
    · cases hs
      exact .inl rfl
  · exact .inl (dns_stepSelect hs)
  · split at hs
    · cases hs
      exact .inl (dns_handleControlEvent _ _ _)
    · cases hs
      exact .inl rfl
  · cases hs

end Conn

/-! ## The names that are looked up -/

theorem parseIpAddr_of_resolveNow {d : DnsCache} {now : Nat} {hostname : Str} {port : UInt16}
    (h : resolveNow d now hostname port = none) : parseIpAddr hostname = none := by
  unfold resolveNow at h
  split at h
  · cases h
  · next hname => exact hname

/-- A CONNECT that needs a lookup has no IP literal. -/
structure Named (c : Core) : Prop where
  tcp : ∀ s connect f, c.attempt = .tcp s connect f none → parseIpAddr connect.hostname = none
  udp : ∀ s connect, c.attempt = .udp s connect none → parseIpAddr connect.hostname = none

theorem Named.of_idle {c : Core} (h : c.attempt = .idle) : Named c := by
  constructor
  · intro s connect f ha
    rw [h] at ha
    cases ha
  · intro s connect ha
    rw [h] at ha
    cases ha

theorem Named.step {c d : Core} (h : Named c) (he : Effect S c d) : Named d := by
  cases he with
  | acceptTcp _ _ _ =>
    constructor
    · intro s connect f ha
      simp only [Attempt.tcp.injEq] at ha
      obtain ⟨-, rfl, -, hn⟩ := ha
      exact parseIpAddr_of_resolveNow hn
    · rintro s connect ⟨⟩
  | startUdp _ _ =>
    constructor
    · rintro s connect f ⟨⟩
    · intro s connect ha
      simp only [Attempt.udp.injEq] at ha
      obtain ⟨-, rfl, hn⟩ := ha
      exact parseIpAddr_of_resolveNow hn
  | tcpFailed _ _ =>
    constructor
    · rintro s connect f ⟨⟩
    · rintro s connect ⟨⟩
  | newFlag => exact .of_idle rfl
  | spawnConnect _ _ _ => exact .of_idle rfl
  | sendFailed _ _ => exact .of_idle rfl
  | refuseUdp _ _ => exact .of_idle rfl
  | refuseUdpFlag _ _ => exact .of_idle rfl
  | acceptUdp _ _ _ _ => exact .of_idle rfl
  | _ => exact ⟨h.tcp, h.udp⟩

theorem Reach.named {ok : Conn → Act → Conn → Prop} {c : Conn} (h : (sys S).Reach ok c) :
    Named c.core := by
  refine Reach.core (R := fun _ _ => True) (fun _ _ _ _ => trivial) (.of_idle rfl) ?_ h
  intro c d fs _ hi he _ _
  exact ⟨(hi.step he).tcp, (hi.step he).udp⟩

theorem Named.looksUp {c : Conn} (h : Named c.core) {connect : ConnectPayload}
    (hl : Resolver.LooksUp c.pc connect) : parseIpAddr connect.hostname = none := by
  rcases hl with ⟨site, s, cancel, hpc⟩ | ⟨site, s, hpc⟩
  · refine h.tcp s connect cancel ?_
    rw [Conn.core, hpc]
    rfl
  · refine h.udp s connect ?_
    rw [Conn.core, hpc]
    rfl

/-! ## The worker -/

/-- A call that can wait: its name is no IP literal, and it has read the configured order. -/
def Waits (S : Setup) (call : Resolver.Call) : Prop :=
  parseIpAddr call.hostname = none ∧
    call.ipv4First = (S.config.dnsResultOrder == lit "ipv4first")

/-- A worker whose tasks have filled the cache in the same way, and whose calls `calls` wait. -/
structure SameCache (S : Setup) (c : Conn) (calls : List Resolver.Call) (s : Resolver.Worker) :
    Prop where
  reach : (Resolver.sys S.last S.config).Reach Sys.Any s
  cache : s.cache = Resolver.plain c.dns
  now : s.now ≤ c.now
  waiting : s.waiting = calls

/-- At the start every call can begin to wait, as the cache is empty. -/
theorem exists_waiting (calls : List Resolver.Call) (h : ∀ call ∈ calls, Waits S call) :
    (Resolver.sys S.last S.config).Reach Sys.Any
      { cache := .new S.config, waiting := calls } := by
  induction calls using List.reverseRecOn with
  | nil => exact .init rfl
  | append_singleton calls call ih =>
    have hbefore := ih fun call hc => h call (List.mem_append_left _ hc)
    obtain ⟨hname, horder⟩ := h call (List.mem_append_right _ (List.mem_singleton_self _))
    refine .step (.call 0 call.hostname call.port) hbefore ?_ trivial
    simp only [Resolver.sys, Resolver.exec, Resolver.Worker.begin, hname]
    refine congrArg some ?_
    cases call
    cases horder
    rfl

/-- A step that keeps the cache, and in which no time is lost. -/
theorem SameCache.keep {c c' : Conn} {calls : List Resolver.Call} {s : Resolver.Worker}
    (h : SameCache S c calls s) (hdns : c'.dns = c.dns) (hnow : c.now ≤ c'.now) :
    SameCache S c' calls s :=
  ⟨h.reach, by rw [hdns, h.cache], h.now.trans hnow, h.waiting⟩

/-- The answer to a lookup: one of the calls gets it. -/
theorem SameCache.answer {c c' : Conn} {calls : List Resolver.Call} {hostname : Str}
    {port : UInt16} {answer : Answer} {r : Resolved}
    (hr : resolveLookup c.dns c.now hostname port answer = .ok (r, c'.dns))
    (hlast : c.now + c.dns.ttl ≤ S.last) (hnow : c'.now = c.now) {s : Resolver.Worker}
    (h : SameCache S c (⟨hostname, port, c.dns.ipv4First⟩ :: calls) s) :
    ∃ s', SameCache S c' calls s' := by
  have htime : s.now + (c.now - s.now) = c.now := Nat.add_sub_of_le h.now
  have hresume := Resolver.resume_plain (s := { s with now := c.now, waiting := calls }) h.cache
    hostname port answer (fun _ => hlast)
  simp only [hr] at hresume
  refine ⟨{ s with now := c.now, waiting := calls, cache := Resolver.plain c'.dns },
    .step (.answer (c.now - s.now) 0 answer) h.reach ?_ trivial, rfl, hnow.ge, rfl⟩
  simp only [Resolver.sys, Resolver.exec, h.waiting, List.getElem?_cons_zero, htime,
    List.eraseIdx_cons_zero, hresume, Option.map_some]

/-- The cache is that of a worker, whatever calls are to wait there. -/
def HasWorker (S : Setup) (c : Conn) : Prop :=
  ∀ calls, (∀ call ∈ calls, Waits S call) → ∃ s, SameCache S c calls s

theorem HasWorker.keep {c c' : Conn} (h : HasWorker S c) (hdns : c'.dns = c.dns) (hnow : c.now ≤ c'.now) :
    HasWorker S c' := by
  intro calls hcalls
  obtain ⟨s, hs⟩ := h calls hcalls
  exact ⟨s, hs.keep hdns hnow⟩

/-- The order of the addresses is the configured one. -/
theorem HasWorker.ipv4First {c : Conn} (h : HasWorker S c) :
    c.dns.ipv4First = (S.config.dnsResultOrder == lit "ipv4first") := by
  obtain ⟨s, hs⟩ := h [] fun _ hcall => absurd hcall List.not_mem_nil
  have hconf := (Resolver.Reach.configured hs.reach).ipv4First
  rw [hs.cache] at hconf
  exact hconf

theorem HasWorker.answer {c c' : Conn} (h : HasWorker S c) {hostname : Str} {port : UInt16}
    {answer : Answer} {r : Resolved} (hname : parseIpAddr hostname = none)
    (hr : resolveLookup c.dns c.now hostname port answer = .ok (r, c'.dns))
    (hlast : c.now + c.dns.ttl ≤ S.last) (hnow : c'.now = c.now) : HasWorker S c' := by
  intro calls hcalls
  obtain ⟨s, hs⟩ := h (⟨hostname, port, c.dns.ipv4First⟩ :: calls) fun call hcall => by
    rcases List.mem_cons.mp hcall with rfl | hcall
    · exact ⟨hname, h.ipv4First⟩
    · exact hcalls call hcall
  exact hs.answer hr hlast hnow

theorem HasWorker.main {c c' : Conn} {e : Env} (h : HasWorker S c) (hn : Named c.core)
    (hs : c.stepMain S e = some c') (hfits : c.Fits S (.main e)) : HasWorker S c' := by
  have hnow : c'.now = c.now := (Conn.stepMain_turn hs).leaves.now
  rcases Conn.dns_stepMain hs with hdns | ⟨connect, r, hl, hr⟩
  · exact h.keep hdns hnow.ge
  · have hlast := hl.fits hfits (by rw [hr]; rfl)
    exact h.answer (hn.looksUp hl) hr hlast hnow

/-- In a run of a connection whose sums fit, its cache is one that the tasks of a worker reach: the
lookups of all connections are steps of the worker, in the same order. -/
theorem Reach.exists_worker {c : Conn} (h : (sys S).Reach (fun c a _ => c.Fits S a) c) :
    ∃ s, (Resolver.sys S.last S.config).Reach Sys.Any s ∧ s.cache = Resolver.plain c.dns ∧
      s.now ≤ c.now := by
  have hserved : HasWorker S c := by
    refine h.invariant (I := HasWorker S) ?_ ?_
    · rintro _ ⟨frame, rfl⟩ calls hcalls
      exact ⟨_, exists_waiting calls hcalls, rfl, Nat.le_refl _, rfl⟩
    · intro c a c' hr hi hs hfits
      cases a with
      | main e => exact hi.main (Reach.named hr) hs hfits
      | task i x =>
        obtain ⟨_, _, _, _, _, rfl⟩ := Conn.stepTask_changes hs
        exact hi.keep rfl le_rfl
      | clientReads =>
        simp only [sys, ShrimpWisp.step] at hs
        split at hs <;> cases hs
        exact hi.keep rfl le_rfl
      | otherResolve hostname port answer =>
        simp only [sys, ShrimpWisp.step] at hs
        split at hs
        · cases hs
        · next hname =>
          split at hs
          · cases hs
          · next r dns hr =>
            cases hs
            refine hi.answer hname hr ?_ rfl
            simp only [Conn.Fits, Conn.sums, Conn.caches, hr] at hfits
            exact hfits _ (by simp [Except.isOk, Except.toBool])
      | tick n =>
        cases hs
        exact hi.keep rfl (Nat.le_add_right _ _)
      | _ => cases hs; exact hi.keep rfl le_rfl
  obtain ⟨s, hs⟩ := hserved [] fun _ hcall => absurd hcall List.not_mem_nil
  exact ⟨s, hs.reach, hs.cache, hs.now⟩

end ShrimpWisp
