import ShrimpWisp.Server.Clock
import ShrimpWisp.Server.Resolver

/-!
# Name resolution

The address that a lookup selects, and the cache that the tasks of a worker share.

* `resolved_follows`: in every run of these tasks the address of a completed lookup follows the
  configured order, unless the order is `ipv6first`, which the cache does not know: it then takes the
  first address.
* `Coherent`: every entry of the cache is the latest completed lookup of its hostname. It is kept
  by every step of every task (`Moves.coherent`), so no step indexes an empty list and a cached
  address is the one of the latest lookup (`cache_coherent`).
* `begin_plain`, `resume_plain`: the calls over the plain cache are those of `Server/Dns.lean`, while
  the sum of the time and the time to live fits. `resume_of_fits`: so are those of a connection in
  the steps whose sums fit.
-/

namespace ShrimpWisp

/-! ## The order of the addresses -/

/-- The first address of the family, or the first address if there is none. -/
def preferred (family : IpAddr → Bool) (addrs : List IpAddr) : Option IpAddr :=
  (addrs.find? family).or addrs.head?

/-- The address is the one that the configured order says. -/
def FollowsOrder (order : Str) (addrs : List IpAddr) (ip : IpAddr) : Prop :=
  (order = lit "ipv4first" → preferred (·.isV4) addrs = some ip) ∧
  (order = lit "ipv6first" → preferred (!·.isV4) addrs = some ip) ∧
  (order = lit "verbatim" → addrs.head? = some ip)

/-- `Vec::dedup` keeps the first address of a family. -/
theorem find?_destutter' (p : IpAddr → Bool) (a : IpAddr) (l : List IpAddr) :
    (l.destutter' (· ≠ ·) a).find? p = (a :: l).find? p := by
  induction l generalizing a with
  | nil => rfl
  | cons b l ih =>
    by_cases hab : a ≠ b
    · rw [List.destutter'_cons_pos l hab, List.find?_cons, ih, ← List.find?_cons]
    · rw [List.destutter'_cons_neg l hab, ih, not_not.mp hab]
      cases hp : p b with
      | true => rw [List.find?_cons_of_pos hp, List.find?_cons_of_pos hp]
      | false =>
        have hp : ¬ p b = true := by rw [hp]; nofun
        rw [List.find?_cons_of_neg hp, List.find?_cons_of_neg hp, List.find?_cons_of_neg hp]

theorem find?_destutter (p : IpAddr → Bool) (l : List IpAddr) :
    (l.destutter (· ≠ ·)).find? p = l.find? p := by
  cases l with
  | nil => rfl
  | cons a l => exact find?_destutter' p a l

/-- `Vec::dedup` keeps the first address. -/
theorem head?_destutter (l : List IpAddr) : (l.destutter (· ≠ ·)).head? = l.head? := by
  have h := find?_destutter (fun _ => true) l
  rwa [← List.head?_filter, ← List.head?_filter, List.filter_true, List.filter_true] at h

/-- The stable sort brings the first address of the family to the front. -/
theorem head?_partition (p : IpAddr → Bool) (l : List IpAddr) :
    (l.filter p ++ l.filter (!p ·)).head? = preferred p l := by
  rw [List.head?_append, List.head?_filter]
  unfold preferred
  cases hf : l.find? p with
  | some a => rfl
  | none =>
    have hall : l.filter (!p ·) = l := by
      rw [List.filter_eq_self]
      intro a ha
      simpa using List.find?_eq_none.mp hf a ha
    rw [hall]

/-- The first one of the ordered addresses. -/
theorem head?_orderAddrs (ipv4First : Bool) (addrs : List IpAddr) :
    (orderAddrs ipv4First addrs).head? =
      if ipv4First then preferred (·.isV4) addrs else addrs.head? := by
  unfold orderAddrs
  cases ipv4First with
  | true =>
    simp only [if_true]
    rw [head?_partition, preferred, preferred, find?_destutter, head?_destutter]
  | false =>
    simp only [Bool.false_eq_true, if_false]
    exact head?_destutter addrs

/-- The first address is also the first one of its family, unless it is of the other family and the
list has one of its own. -/
theorem preferred_eq_head {p : IpAddr → Bool} {a : IpAddr} {l : List IpAddr} :
    preferred p (a :: l) = some a ↔ ¬ (p a = false ∧ ∃ b ∈ a :: l, p b = true) := by
  unfold preferred
  rw [List.head?_cons]
  cases hf : (a :: l).find? p with
  | none =>
    have hnone : ∀ b ∈ a :: l, ¬ p b = true := List.find?_eq_none.mp hf
    simp only [Option.none_or, true_iff]
    rintro ⟨-, b, hb, hpb⟩
    exact hnone b hb hpb
  | some b =>
    have hb := List.mem_of_find?_eq_some hf
    have hpb := List.find?_some hf
    simp only [Option.some_or, Option.some.injEq]
    constructor
    · rintro rfl ⟨hpa, -⟩
      rw [hpb] at hpa
      cases hpa
    · intro h
      cases hpa : p a with
      | true =>
        rw [List.find?_cons_of_pos hpa] at hf
        exact (Option.some.inj hf).symm
      | false => exact absurd ⟨hpa, b, hb, hpb⟩ h

/-- The first address, taken as it is, follows every order but `ipv6first`. -/
theorem followsOrder_head {order : Str} (h4 : order ≠ lit "ipv4first") {a : IpAddr}
    {l : List IpAddr} :
    FollowsOrder order (a :: l) a ↔
      ¬ (order = lit "ipv6first" ∧ a.isV4 = true ∧ ∃ b ∈ a :: l, b.isV4 = false) := by
  have h6 := preferred_eq_head (p := (!·.isV4)) (a := a) (l := l)
  simp only [Bool.not_eq_false', Bool.not_eq_true'] at h6
  unfold FollowsOrder
  rw [h6]
  constructor
  · rintro ⟨-, h, -⟩ ⟨horder, hfound⟩
    exact h horder hfound
  · intro h
    exact ⟨fun h' => absurd h' h4, fun horder hfound => h ⟨horder, hfound⟩, fun _ => rfl⟩

/-- The first one of the ordered addresses follows the configured order, exactly if the order is not
`ipv6first` with an IPv4 address before the first IPv6 address. -/
theorem followsOrder_iff {order : Str} {addrs : List SocketAddr} (hne : addrs ≠ []) {ip : IpAddr}
    (hhead : (orderAddrs (order == lit "ipv4first") (addrs.map (·.ip))).head? = some ip) :
    FollowsOrder order (addrs.map (·.ip)) ip ↔
      ¬ (order = lit "ipv6first" ∧ (addrs.head hne).ip.isV4 = true ∧
        ∃ a ∈ addrs, a.ip.isV4 = false) := by
  rw [head?_orderAddrs] at hhead
  simp only [beq_iff_eq] at hhead
  obtain ⟨a, l, rfl⟩ := List.exists_cons_of_ne_nil hne
  by_cases h4 : order = lit "ipv4first"
  · rw [if_pos h4] at hhead
    rw [h4]
    have h6 : ¬ lit "ipv4first" = lit "ipv6first" := by decide
    have hv : ¬ lit "ipv4first" = lit "verbatim" := by decide
    exact ⟨fun _ h => h6 h.1, fun _ => ⟨fun _ => hhead, fun h => absurd h h6, fun h => absurd h hv⟩⟩
  · rw [if_neg h4, List.map_cons, List.head?_cons, Option.some.injEq] at hhead
    rw [← hhead, List.map_cons, followsOrder_head h4, List.head_cons, ← List.map_cons]
    simp only [List.mem_map, exists_exists_and_eq_and]

/-! ## The cache of a worker -/

namespace Resolver

/-- The first address of the entry is the one that the latest completed lookup of the hostname
selected, and the entry expires after the time to live. -/
def Recent (ttl now : Nat) (log : List Event) (hostname : Str) (entry : CacheEntry) : Prop :=
  ∃ addr time, first entry.addrs = .ok addr.ip ∧
    Latest (Event.Resolves hostname) log (.resolved hostname addr time) ∧ time ≤ now ∧
    entry.expiresAt = time + ttl

/-- The cache of the worker agrees with what the calls have shown. -/
structure Coherent (config : ServerConfig) (s : Worker) (log : List Event) : Prop where
  ttl : s.cache.ttl = secs config.dnsTtl
  recent : ∀ hostname entry, s.cache.cache.lookup hostname = some entry →
    Recent (secs config.dnsTtl) s.now log hostname entry

/-- A step of a call, by what it does to the cache. -/
inductive Moves (last : Nat) (s : Worker) : Event → Worker → Prop
  | literal {s' : Worker} {addr : SocketAddr} (hc : s'.cache = s.cache) (hn : s.now ≤ s'.now) :
      Moves last s (.literal addr) s'
  | awaits {s' : Worker} {hostname : Str} (hc : s'.cache = s.cache) (hn : s.now ≤ s'.now) :
      Moves last s (.awaits hostname) s'
  | failed {s' : Worker} {e : DnsError} (hc : s'.cache = s.cache) (hn : s.now ≤ s'.now) :
      Moves last s (.failed e) s'
  | cached (s' : Worker) {hostname : Str} {addr : SocketAddr} (hc : s'.cache = s.cache)
      (hn : s.now ≤ s'.now) (hg : s.cache.getCached s'.now hostname = .ok (some addr.ip)) :
      Moves last s (.cached hostname addr s'.now) s'
  | cacheFails {s' : Worker} {hostname : Str} {p : Panic} (hc : s'.cache = s.cache)
      (hn : s.now ≤ s'.now) (hg : s.cache.getCached s'.now hostname = .error p) :
      Moves last s (.panicked p) s'
  | resolved (s' : Worker) {hostname : Str} {addr : SocketAddr} {addrs : List IpAddr}
      (hne : addrs ≠ []) (hn : s.now ≤ s'.now)
      (hi : s.cache.insertResolved last s'.now hostname addrs = .ok (addr.ip, s'.cache)) :
      Moves last s (.resolved hostname addr s'.now) s'
  | storeFails {s' : Worker} {hostname : Str} {p : Panic} {addrs : List IpAddr} (hne : addrs ≠ [])
      (hc : s'.cache = s.cache) (hn : s.now ≤ s'.now)
      (hi : s.cache.insertResolved last s'.now hostname addrs = .error p) :
      Moves last s (.panicked p) s'

/-- A step of a call is one of these. -/
theorem exec_moves {last : Nat} {s s' : Worker} {a : Action} {e : Event}
    (h : exec last s a = some (e, s')) : Moves last s e s' := by
  cases a with
  | call elapsed hostname port =>
    have hn : s.now ≤ s.now + elapsed := Nat.le_add_right _ _
    simp only [exec, Worker.begin, Option.some.injEq] at h
    split at h
    · cases h
      exact .literal rfl hn
    · split at h
      · next p hg =>
        cases h
        exact .cacheFails rfl hn hg
      · next ip hg =>
        cases h
        exact .cached { s with now := s.now + elapsed } rfl hn hg
      · cases h
        exact .awaits rfl hn
  | answer elapsed i answer =>
    have hn : s.now ≤ s.now + elapsed := Nat.le_add_right _ _
    simp only [exec] at h
    split at h
    · next call _ =>
      simp only [Worker.resume, Option.some.injEq] at h
      split at h
      · cases h
        exact .failed rfl hn
      · next sockAddrs _ _ =>
        split at h
        · cases h
          exact .failed rfl hn
        · next hempty =>
          have hne : orderAddrs call.ipv4First (sockAddrs.map (·.ip)) ≠ [] := by
            apply orderAddrs_ne_nil
            simpa using hempty
          split at h
          · next p hi =>
            cases h
            exact .storeFails hne rfl hn hi
          · next ip cache hi =>
            cases h
            exact .resolved
              { cache, now := s.now + elapsed, waiting := s.waiting.eraseIdx i } hne hn hi
    · cases h

/-! ### What the two operations do -/

theorem getCached_recent {config : ServerConfig} {s : Worker} {log : List Event}
    (h : Coherent config s log) {now : Nat} (hn : s.now ≤ now) (hostname : Str) :
    s.cache.getCached now hostname = .ok none ∨
      ∃ addr time, s.cache.getCached now hostname = .ok (some addr.ip) ∧
        Latest (Event.Resolves hostname) log (.resolved hostname addr time) ∧ time ≤ now ∧
        now < time + secs config.dnsTtl := by
  unfold DnsCache.getCached
  cases hl : s.cache.cache.lookup hostname with
  | none => exact .inl rfl
  | some entry =>
    obtain ⟨addr, time, hfirst, hlatest, htime, hexp⟩ := h.recent hostname entry hl
    by_cases hlt : now < entry.expiresAt
    · refine .inr ⟨addr, time, ?_, hlatest, htime.trans hn, hexp ▸ hlt⟩
      simp only [if_pos hlt, hfirst, Except.map]
    · exact .inl (if_neg hlt)

theorem insertResolved_eq {last now : Nat} {c : DnsCache} {hostname : Str} {ip : IpAddr}
    {rest : List IpAddr} :
    c.insertResolved last now hostname (ip :: rest) =
      if now + c.ttl ≤ last then .ok (ip, c.insert hostname ⟨ip :: rest, now + c.ttl⟩)
      else .error .overflow := by
  unfold DnsCache.insertResolved addInstant
  split <;> rfl

theorem lookup_filter_ne {k hostname : Str} (hk : k ≠ hostname) (l : List (Str × CacheEntry)) :
    (l.filter fun e => e.1 != hostname).lookup k = l.lookup k := by
  induction l with
  | nil => rfl
  | cons e l ih =>
    by_cases he : e.1 = hostname
    · rw [List.filter_cons_of_neg (by simp [he]), ih, List.lookup_cons,
        beq_false_of_ne (he ▸ hk)]
    · rw [List.filter_cons_of_pos (by simp [he]), List.lookup_cons, List.lookup_cons, ih]

theorem lookup_insert (c : DnsCache) (hostname : Str) (entry : CacheEntry) (k : Str) :
    (c.insert hostname entry).cache.lookup k =
      if k = hostname then some entry else c.cache.lookup k := by
  unfold DnsCache.insert
  by_cases hk : k = hostname
  · rw [if_pos hk, hk]
    exact List.lookup_cons_self
  · rw [if_neg hk, List.lookup_cons, beq_false_of_ne hk]
    exact lookup_filter_ne hk _

/-! ### Runs -/

/-- An entry stays recent while no other lookup of its hostname is completed. -/
theorem Recent.append {ttl now now' : Nat} {log : List Event} {hostname : Str} {entry : CacheEntry}
    (h : Recent ttl now log hostname entry) (hn : now ≤ now') {e : Event}
    (he : ¬ e.Resolves hostname) : Recent ttl now' (log ++ [e]) hostname entry := by
  obtain ⟨addr, time, hfirst, hlatest, htime, hexp⟩ := h
  refine ⟨addr, time, hfirst, hlatest.append ?_, htime.trans hn, hexp⟩
  intro x hx
  rw [List.mem_singleton.mp hx]
  exact he

/-- A step that keeps the cache and completes no lookup. -/
theorem Coherent.keep {config : ServerConfig} {s s' : Worker} {log : List Event}
    (h : Coherent config s log) (hc : s'.cache = s.cache) (hn : s.now ≤ s'.now) {e : Event}
    (he : ∀ hostname, ¬ e.Resolves hostname) : Coherent config s' (log ++ [e]) where
  ttl := by rw [hc, h.ttl]
  recent hostname entry hl := by
    rw [hc] at hl
    exact (h.recent hostname entry hl).append hn (he hostname)

/-- Every step of a call keeps the cache coherent. -/
theorem Moves.coherent {config : ServerConfig} {last : Nat} {s s' : Worker} {log : List Event}
    {e : Event} (h : Coherent config s log) (hm : Moves last s e s') :
    Coherent config s' (log ++ [e]) := by
  cases hm with
  | literal hc hn => exact h.keep hc hn nofun
  | awaits hc hn => exact h.keep hc hn nofun
  | failed hc hn => exact h.keep hc hn nofun
  | cached _ hc hn hg => exact h.keep hc hn nofun
  | cacheFails hc hn hg => exact h.keep hc hn nofun
  | storeFails hne hc hn hi => exact h.keep hc hn nofun
  | @resolved _ hostname addr addrs hne hn hi =>
    obtain ⟨ip, rest, rfl⟩ := List.exists_cons_of_ne_nil hne
    rw [insertResolved_eq] at hi
    split at hi
    · simp only [Except.ok.injEq, Prod.mk.injEq] at hi
      obtain ⟨hip, hcache⟩ := hi
      refine ⟨by rw [← hcache]; exact h.ttl, fun k entry hl => ?_⟩
      rw [← hcache, lookup_insert] at hl
      split at hl
      · next hk =>
        cases hl
        subst hk
        exact ⟨addr, s'.now, by rw [← hip]; rfl, .last _ _ _, Nat.le_refl _, by rw [h.ttl]⟩
      · next hk =>
        refine (h.recent k entry hl).append hn ?_
        rintro ⟨_, _, hr⟩
        cases hr
        exact hk rfl
    · cases hi

/-- In every run of the tasks of a worker the cache is coherent. -/
theorem Reach.coherent {last : Nat} {config : ServerConfig} {p : Worker × List Event}
    (h : (loggedSys last config).Reach Sys.Any p) : Coherent config p.1 p.2 := by
  refine h.invariant (I := fun p => Coherent config p.1 p.2) ?_ ?_
  · rintro ⟨s, log⟩ ⟨rfl, rfl⟩
    exact ⟨rfl, nofun⟩
  · rintro ⟨s, log⟩ a ⟨s', log'⟩ - hi hs -
    obtain ⟨hstep, hlog⟩ := Sys.logged_step hs
    obtain ⟨⟨e, t⟩, hexec, rfl⟩ := Option.map_eq_some_iff.mp hstep
    simp only [hexec, Option.map_some, Option.toList_some] at hlog
    rw [hlog]
    exact (exec_moves hexec).coherent hi

/-- A coherent cache has no empty entry to index. -/
theorem Moves.not_index {config : ServerConfig} {last : Nat} {s s' : Worker} {log : List Event}
    {e : Event} (h : Coherent config s log) (hm : Moves last s e s') : e ≠ .panicked .index := by
  rintro rfl
  cases hm with
  | cacheFails hc hn hg =>
    rcases getCached_recent h hn _ with hg' | ⟨_, _, hg', -⟩
    · rw [hg] at hg'
      cases hg'
    · rw [hg] at hg'
      cases hg'
  | storeFails hne hc hn hi =>
    obtain ⟨ip, rest, rfl⟩ := List.exists_cons_of_ne_nil hne
    rw [insertResolved_eq] at hi
    split at hi <;> cases hi

/-- A cached address is the one of the latest completed lookup, which is not older than the time to
live. -/
theorem Moves.hit {config : ServerConfig} {last : Nat} {s s' : Worker} {log : List Event}
    (h : Coherent config s log) {hostname : Str} {addr : SocketAddr} {time : Nat}
    (hm : Moves last s (.cached hostname addr time) s') :
    ∃ chosen completed, Latest (Event.Resolves hostname) log (.resolved hostname chosen completed) ∧
      addr.ip = chosen.ip ∧ completed ≤ time ∧ time < completed + secs config.dnsTtl := by
  cases hm with
  | cached _ hc hn hg =>
    rcases getCached_recent h hn hostname with hg' | ⟨chosen, completed, hg', hlatest, hle, hlt⟩
    · rw [hg] at hg'
      cases hg'
    · rw [hg, Except.ok.injEq, Option.some.injEq] at hg'
      exact ⟨chosen, completed, hlatest, hg', hle, hlt⟩

/-- An answer without addresses leaves the cache as it is. -/
theorem exec_without_addrs {last : Nat} {s s' : Worker} {elapsed i : Nat} {answer : Answer}
    {call : Call} {e : Event} (hcall : s.waiting[i]? = some call)
    (hnone : ∀ addrs source,
      lookupHost answer (lookupText call.hostname call.port) = .ok (addrs, source) → addrs = [])
    (h : exec last s (.answer elapsed i answer) = some (e, s')) : s'.cache = s.cache := by
  simp only [exec, hcall, Worker.resume, Option.some.injEq] at h
  split at h
  · cases h
    rfl
  · next addrs source hl =>
    rw [hnone addrs source hl, List.isEmpty_nil, if_pos rfl] at h
    cases h
    rfl

/-- In every run of the tasks of a worker: no step indexes an empty list; a hostname that is answered
from the cache gets the address of its latest completed lookup, completed less than the time to live
ago; and an answer without addresses leaves the cache as it is. -/
theorem cache_coherent (last : Nat) (config : ServerConfig) {s : Worker} {log : List Event}
    (h : (loggedSys last config).Reach Sys.Any (s, log)) {a : Action} {e : Event} {s' : Worker}
    (hs : exec last s a = some (e, s')) :
    e ≠ .panicked .index ∧
    (∀ hostname addr time, e = .cached hostname addr time →
      ∃ chosen completed,
        Latest (Event.Resolves hostname) log (.resolved hostname chosen completed) ∧
        addr.ip = chosen.ip ∧ completed ≤ time ∧ time < completed + secs config.dnsTtl) ∧
    ∀ elapsed i answer call, a = .answer elapsed i answer → s.waiting[i]? = some call →
      (∀ addrs source,
        lookupHost answer (lookupText call.hostname call.port) = .ok (addrs, source) → addrs = []) →
      s'.cache = s.cache := by
  have hcoherent : Coherent config s log := Reach.coherent h
  have hmoves := exec_moves hs
  refine ⟨hmoves.not_index hcoherent, ?_, ?_⟩
  · rintro hostname addr time rfl
    exact hmoves.hit hcoherent
  · rintro elapsed i answer call rfl hcall hnone
    exact exec_without_addrs hcall hnone hs

/-- Two lookups of a name overlap, the second one replaces the entry, and a third call is answered
from the cache. -/
def overlapping : List Action :=
  [.call 0 (lit "a.io") 80, .call 1 (lit "a.io") 443,
    .answer 1 1 (.ok [⟨.v4 ⟨192, 0, 2, 1⟩, 443⟩]), .answer 1 0 (.ok [⟨.v4 ⟨192, 0, 2, 2⟩, 80⟩])]

theorem cache_coherent_overlapping :
    ∃ s log s', (loggedSys (secs 1000) {}).Reach Sys.Any (s, log) ∧
      exec (secs 1000) s (.call 1 (lit "a.io") 80) =
        some (.cached (lit "a.io") ⟨.v4 ⟨192, 0, 2, 2⟩, 80⟩ 4, s') ∧
      ∃ chosen completed,
        Latest (Event.Resolves (lit "a.io")) log (.resolved (lit "a.io") chosen completed) ∧
        .v4 ⟨192, 0, 2, 2⟩ = chosen.ip ∧ completed ≤ 4 ∧ 4 < completed + secs 120 := by
  have hrun : ((loggedSys (secs 1000) {}).run Sys.Any ({ cache := .new {} }, []) overlapping).any
      (fun p => (exec (secs 1000) p.1 (.call 1 (lit "a.io") 80)).any
        (·.1 = .cached (lit "a.io") ⟨.v4 ⟨192, 0, 2, 2⟩, 80⟩ 4)) = true := by decide +kernel
  obtain ⟨⟨s, log⟩, hp, hany⟩ := (Option.any_eq_true _ _).mp hrun
  obtain ⟨⟨e, s'⟩, hs, he⟩ := (Option.any_eq_true _ _).mp hany
  cases of_decide_eq_true he
  have hreach : (loggedSys (secs 1000) {}).Reach Sys.Any (s, log) :=
    Sys.Reach.of_run (.init (by exact ⟨rfl, rfl⟩)) hp
  exact ⟨s, log, s', hreach, hs, (cache_coherent _ _ hreach hs).2.1 _ _ _ rfl⟩

/-! ### The address of a lookup -/

/-- What the configuration sets stays: the time to live, and the order of the addresses in the cache
and in the calls that have read it. -/
structure Configured (config : ServerConfig) (s : Worker) : Prop where
  ttl : s.cache.ttl = secs config.dnsTtl
  ipv4First : s.cache.ipv4First = (config.dnsResultOrder == lit "ipv4first")
  waiting : ∀ call ∈ s.waiting, call.ipv4First = (config.dnsResultOrder == lit "ipv4first")

theorem Configured.begin {config : ServerConfig} {s : Worker} (h : Configured config s)
    (hostname : Str) (port : UInt16) : Configured config (s.begin hostname port).2 := by
  unfold Worker.begin
  split
  · exact h
  · split
    · exact h
    · exact h
    · refine ⟨h.ttl, h.ipv4First, fun call hcall => ?_⟩
      rcases List.mem_append.mp hcall with hcall | hcall
      · exact h.waiting call hcall
      · rw [List.mem_singleton.mp hcall]
        exact h.ipv4First

theorem Configured.resume {config : ServerConfig} {s : Worker} (h : Configured config s) (last : Nat)
    (call : Call) (answer : Answer) : Configured config (s.resume last call answer).2 := by
  unfold Worker.resume
  split
  · exact h
  · next addrs source hl =>
    split
    · exact h
    · next hempty =>
      split
      · exact h
      · next ip cache hi =>
        have hne : orderAddrs call.ipv4First (addrs.map (·.ip)) ≠ [] := by
          apply orderAddrs_ne_nil
          simpa using hempty
        obtain ⟨ip', rest, hcons⟩ := List.exists_cons_of_ne_nil hne
        rw [hcons, insertResolved_eq] at hi
        split at hi
        · cases hi
          exact ⟨h.ttl, h.ipv4First, h.waiting⟩
        · cases hi

theorem Reach.configured {last : Nat} {config : ServerConfig} {s : Worker}
    (h : (sys last config).Reach Sys.Any s) : Configured config s := by
  refine h.invariant (I := Configured config) ?_ ?_
  · rintro s rfl
    exact ⟨rfl, rfl, fun _ hcall => absurd hcall List.not_mem_nil⟩
  · intro s a s' _ hi hs _
    obtain ⟨⟨e, t⟩, hexec, rfl⟩ := Option.map_eq_some_iff.mp hs
    cases a with
    | call elapsed hostname port =>
      have hpassed : Configured config { s with now := s.now + elapsed } :=
        ⟨hi.ttl, hi.ipv4First, hi.waiting⟩
      have hb := hpassed.begin hostname port
      rwa [Option.some.inj hexec] at hb
    | answer elapsed i answer =>
      simp only [exec] at hexec
      split at hexec
      · next call _ =>
        have hleft : Configured config
            { s with now := s.now + elapsed, waiting := s.waiting.eraseIdx i } :=
          ⟨hi.ttl, hi.ipv4First, fun c hc => hi.waiting c (List.mem_of_mem_eraseIdx hc)⟩
        have hb := hleft.resume last call answer
        rwa [Option.some.inj hexec] at hb
      · cases hexec

/-- An answer with addresses completes the lookup, with the first one of the ordered addresses, if
the time at which it expires is one of the clock. -/
theorem exec_resolved {last : Nat} {s : Worker} {i : Nat} {call : Call}
    (hcall : s.waiting[i]? = some call) (elapsed : Nat) {answer : Answer} {addrs : List SocketAddr}
    {source : AddrSource}
    (hl : lookupHost answer (lookupText call.hostname call.port) = .ok (addrs, source))
    (hne : addrs ≠ []) (hlast : s.now + elapsed + s.cache.ttl ≤ last) :
    ∃ addr s', exec last s (.answer elapsed i answer) =
        some (.resolved call.hostname addr (s.now + elapsed), s') ∧
      (orderAddrs call.ipv4First (addrs.map (·.ip))).head? = some addr.ip := by
  have hordered : orderAddrs call.ipv4First (addrs.map (·.ip)) ≠ [] := by
    apply orderAddrs_ne_nil
    simpa using hne
  obtain ⟨ip, rest, hcons⟩ := List.exists_cons_of_ne_nil hordered
  have hempty : ¬ addrs.isEmpty = true := by simpa using hne
  refine ⟨⟨ip, call.port⟩, { s with
    now := s.now + elapsed
    waiting := s.waiting.eraseIdx i
    cache := s.cache.insert call.hostname ⟨ip :: rest, s.now + elapsed + s.cache.ttl⟩ }, ?_, ?_⟩
  · simp only [exec, hcall, Worker.resume, hl, if_neg hempty, hcons, insertResolved_eq,
      if_pos hlast]
  · rw [hcons]
    rfl

/-- In every run of the tasks of a worker: a lookup that is answered with addresses selects the one
that the configured order says, exactly if the order is not `ipv6first` with an IPv4 address before
the first IPv6 address. The time at which the result expires must be one of the clock. -/
theorem resolved_follows (last : Nat) (config : ServerConfig) {s : Worker}
    (h : (sys last config).Reach Sys.Any s) {i : Nat} {call : Call}
    (hcall : s.waiting[i]? = some call) (elapsed : Nat) {answer : Answer} {addrs : List SocketAddr}
    {source : AddrSource}
    (hl : lookupHost answer (lookupText call.hostname call.port) = .ok (addrs, source))
    (hne : addrs ≠ []) (hlast : s.now + elapsed + secs config.dnsTtl ≤ last) :
    (∃ addr s', exec last s (.answer elapsed i answer) =
        some (.resolved call.hostname addr (s.now + elapsed), s') ∧
      FollowsOrder config.dnsResultOrder (addrs.map (·.ip)) addr.ip) ↔
      ¬ (config.dnsResultOrder = lit "ipv6first" ∧ (addrs.head hne).ip.isV4 = true ∧
        ∃ a ∈ addrs, a.ip.isV4 = false) := by
  have hconf := Reach.configured h
  rw [← hconf.ttl] at hlast
  obtain ⟨addr, s', hexec, hhead⟩ := exec_resolved hcall elapsed hl hne hlast
  rw [hconf.waiting call (List.mem_of_getElem? hcall)] at hhead
  rw [← followsOrder_iff hne hhead]
  constructor
  · rintro ⟨addr', t, hexec', hfollows⟩
    rw [hexec] at hexec'
    cases hexec'
    exact hfollows
  · intro hfollows
    exact ⟨addr, s', hexec, hfollows⟩

/-- An IPv6 and an IPv4 address of a name. -/
def mixedAnswer : List SocketAddr :=
  [⟨.v6 ⟨0x2001, 0xdb8, 0, 0, 0, 0, 0, 1⟩, 80⟩, ⟨.v4 ⟨192, 0, 2, 1⟩, 80⟩]

/-- A call for `a.io`. -/
def callOne (config : ServerConfig) : Call :=
  ⟨lit "a.io", 80, config.dnsResultOrder == lit "ipv4first"⟩

/-- A worker with this call. -/
def awaiting (config : ServerConfig) : Worker :=
  { cache := .new config, waiting := [callOne config] }

theorem reach_awaiting (last : Nat) (config : ServerConfig) :
    (sys last config).Reach Sys.Any (awaiting config) := by
  have hname : parseIpAddr (lit "a.io") = none := by decide +kernel
  refine .step (.call 0 (lit "a.io") 80) (.init rfl) ?_ trivial
  simp only [sys, exec, Worker.begin, hname]
  rfl

theorem lookupHost_callOne (config : ServerConfig) (addrs : List SocketAddr) :
    lookupHost (.ok addrs) (lookupText (callOne config).hostname (callOne config).port) =
      .ok (addrs, .lookup) := by
  have hname : parseSocketAddr (lookupText (lit "a.io") 80) = none := by decide +kernel
  simp only [callOne, lookupHost, hname, Except.map]

/-- With `ipv4first` the second address is selected. -/
theorem resolved_follows_ipv4first :
    ∃ addr s', exec (secs 1000) (awaiting {}) (.answer 1 0 (.ok mixedAnswer)) =
        some (.resolved (lit "a.io") addr (0 + 1), s') ∧
      FollowsOrder (lit "ipv4first") (mixedAnswer.map (·.ip)) addr.ip := by
  have hcall : (awaiting {}).waiting[0]? = some (callOne {}) := rfl
  exact (resolved_follows (secs 1000) {} (reach_awaiting _ _) hcall 1 (lookupHost_callOne _ _)
    (by decide) (by decide)).mpr fun h => absurd h.1 (by decide)

/-- With `ipv6first` an IPv4 address is selected although there is an IPv6 address. -/
theorem ipv6first_selects_ipv4 :
    (sys (secs 1000) { dnsResultOrder := lit "ipv6first" }).Reach Sys.Any
        (awaiting { dnsResultOrder := lit "ipv6first" }) ∧
      ∃ addr s', exec (secs 1000) (awaiting { dnsResultOrder := lit "ipv6first" })
          (.answer 1 0 (.ok mixedAnswer.reverse)) =
            some (.resolved (lit "a.io") addr (0 + 1), s') ∧
        ¬ FollowsOrder (lit "ipv6first") (mixedAnswer.reverse.map (·.ip)) addr.ip := by
  have hcall : (awaiting { dnsResultOrder := lit "ipv6first" }).waiting[0]? =
      some (callOne { dnsResultOrder := lit "ipv6first" }) := rfl
  have hlast : 0 + 1 + (awaiting { dnsResultOrder := lit "ipv6first" }).cache.ttl ≤ secs 1000 := by
    decide
  obtain ⟨addr, s', hexec, hhead⟩ := exec_resolved hcall 1
    (lookupHost_callOne _ mixedAnswer.reverse) (by decide) hlast
  refine ⟨reach_awaiting _ _, addr, s', hexec, fun h => ?_⟩
  have hpref := h.2.1 rfl
  rw [show preferred (!·.isV4) (mixedAnswer.reverse.map (·.ip)) =
    some (.v6 ⟨0x2001, 0xdb8, 0, 0, 0, 0, 0, 1⟩) by decide] at hpref
  rw [← Option.some.inj hpref] at hhead
  exact absurd hhead (by decide)

/-! ### The calls of a connection -/

/-- The cache of a connection as the code has it. -/
def plain (c : ShrimpWisp.DnsCache) : DnsCache where
  cache := c.cache.map fun e => (e.1, ⟨e.2.addrs, e.2.expiresAt⟩)
  ttl := c.ttl
  ipv4First := c.ipv4First

theorem lookup_plain (c : ShrimpWisp.DnsCache) (hostname : Str) :
    (plain c).cache.lookup hostname =
      (c.cache.lookup hostname).map fun e => ⟨e.addrs, e.expiresAt⟩ := by
  simp only [plain]
  induction c.cache with
  | nil => rfl
  | cons e l ih =>
    rw [List.map_cons, List.lookup_cons, List.lookup_cons, ih]
    cases hostname == e.1 <;> rfl

theorem first_eq_head {addrs : List IpAddr} (h : addrs ≠ []) : first addrs = .ok (addrs.head h) := by
  obtain ⟨ip, rest, rfl⟩ := List.exists_cons_of_ne_nil h
  rfl

/-- `get_cached` does not panic, and returns what the connection's model of it returns. -/
theorem getCached_plain (c : ShrimpWisp.DnsCache) (now : Nat) (hostname : Str) :
    (plain c).getCached now hostname = .ok ((c.getCached now hostname).map (·.1)) := by
  unfold DnsCache.getCached ShrimpWisp.DnsCache.getCached
  rw [lookup_plain]
  cases c.cache.lookup hostname with
  | none => rfl
  | some entry =>
    simp only [Option.map_some]
    split
    · rw [first_eq_head entry.nonempty]
      rfl
    · rfl

/-- `insert_resolved` stores what the connection's model of it stores. -/
theorem insertResolved_plain (c : ShrimpWisp.DnsCache) {last now : Nat} (hlast : now + c.ttl ≤ last)
    (hostname : Str) {addrs : List IpAddr} (source : AddrSource) (h : addrs ≠ []) :
    (plain c).insertResolved last now hostname addrs =
      .ok (addrs.head h, plain (c.insertResolved now hostname addrs source h).2) := by
  have hfilter : (plain c).cache.filter (fun e => e.1 != hostname) =
      (c.cache.filter fun e => e.1 != hostname).map fun e => (e.1, ⟨e.2.addrs, e.2.expiresAt⟩) := by
    simp only [plain, List.filter_map]
    rfl
  have hlast : now + (plain c).ttl ≤ last := hlast
  obtain ⟨ip, rest, rfl⟩ := List.exists_cons_of_ne_nil h
  rw [insertResolved_eq, if_pos hlast, DnsCache.insert, hfilter]
  rfl

/-- A call before its await: the address of `resolveNow`, or it awaits the resolver. -/
theorem begin_plain {s : Worker} {c : ShrimpWisp.DnsCache} (hc : s.cache = plain c) (hostname : Str)
    (port : UInt16) :
    match resolveNow c s.now hostname port with
    | some r => s.begin hostname port = (.literal r.addr, s) ∨
        s.begin hostname port = (.cached hostname r.addr s.now, s)
    | none => s.begin hostname port =
        (.awaits hostname, { s with waiting := s.waiting ++ [⟨hostname, port, c.ipv4First⟩] }) := by
  unfold resolveNow Worker.begin
  rw [hc, getCached_plain]
  cases parseIpAddr hostname with
  | some ip => exact .inl rfl
  | none =>
    cases c.getCached s.now hostname with
    | some r => exact .inr rfl
    | none => rfl

/-- A call after its await: the result and the cache of `resolveLookup`, if a result that is cached
expires at a time of the clock. -/
theorem resume_plain {s : Worker} {c : ShrimpWisp.DnsCache} (hc : s.cache = plain c) {last : Nat}
    (hostname : Str) (port : UInt16) (answer : Answer)
    (hlast : (resolveLookup c s.now hostname port answer).isOk = true → s.now + c.ttl ≤ last) :
    s.resume last ⟨hostname, port, c.ipv4First⟩ answer =
      match resolveLookup c s.now hostname port answer with
      | .ok (r, c') => (.resolved hostname r.addr s.now, { s with cache := plain c' })
      | .error e => (.failed e, s) := by
  unfold resolveLookup at hlast ⊢
  unfold Worker.resume
  cases hl : lookupHost answer (lookupText hostname port) with
  | error e => rfl
  | ok r =>
    obtain ⟨addrs, source⟩ := r
    cases addrs with
    | nil => rfl
    | cons a l =>
      rw [hl] at hlast
      simp only [List.isEmpty_cons, Bool.false_eq_true, if_false, reduceCtorEq, dite_false]
      rw [hc, insertResolved_plain c (hlast rfl) hostname source]
      rfl

/-- The main task awaits the resolver for the CONNECT. -/
def LooksUp (q : Pc) (connect : ConnectPayload) : Prop :=
  (∃ site streamId cancel, q = .resolvingTcp site streamId connect cancel none) ∨
    ∃ site streamId, q = .resolvingUdp site streamId connect none

/-- A name that is resolved in a step whose sums fit can be cached. -/
theorem LooksUp.fits {S : Setup} {c : Conn} {e : Env} {connect : ConnectPayload}
    (hpc : LooksUp c.pc connect) (hfits : c.Fits S (.main e))
    (hok : (resolveLookup c.dns c.now connect.hostname connect.port e.answer).isOk = true) :
    c.now + c.dns.ttl ≤ S.last := by
  refine hfits.lookup ?_
  rcases hpc with ⟨_, _, _, hpc⟩ | ⟨_, _, hpc⟩
  · rw [Conn.completesLookup, hpc]
    exact hok
  · rw [Conn.completesLookup, hpc]
    exact hok

/-- In a step of a connection whose sums fit, the lookup is the one of the worker: it does not panic,
and has the result and the cache of the connection's model. -/
theorem resume_of_fits {S : Setup} {c : Conn} {e : Env} (hfits : c.Fits S (.main e)) {s : Worker}
    (hc : s.cache = plain c.dns) (hn : s.now = c.now) {connect : ConnectPayload}
    (hpc : LooksUp c.pc connect) :
    s.resume S.last ⟨connect.hostname, connect.port, c.dns.ipv4First⟩ e.answer =
      match resolveLookup c.dns c.now connect.hostname connect.port e.answer with
      | .ok (r, dns) => (.resolved connect.hostname r.addr c.now, { s with cache := plain dns })
      | .error err => (.failed err, s) := by
  rw [← hn]
  refine resume_plain hc _ _ _ fun hok => ?_
  rw [hn] at hok ⊢
  exact hpc.fits hfits hok

/-- Every cache that the tasks of a worker reach is one of the connection's model. -/
theorem Reach.exists_plain {last : Nat} {config : ServerConfig} {s : Worker}
    (h : (sys last config).Reach Sys.Any s) : ∃ c, s.cache = plain c := by
  refine h.invariant (I := fun s => ∃ c, s.cache = plain c) ?_ ?_
  · rintro s rfl
    exact ⟨.new config, rfl⟩
  · rintro s a s' - ⟨c, hc⟩ hs -
    obtain ⟨⟨e, t⟩, hexec, rfl⟩ := Option.map_eq_some_iff.mp hs
    cases exec_moves hexec with
    | literal hc' => exact ⟨c, hc'.trans hc⟩
    | awaits hc' => exact ⟨c, hc'.trans hc⟩
    | failed hc' => exact ⟨c, hc'.trans hc⟩
    | cached _ hc' => exact ⟨c, hc'.trans hc⟩
    | cacheFails hc' => exact ⟨c, hc'.trans hc⟩
    | storeFails hne hc' => exact ⟨c, hc'.trans hc⟩
    | resolved _ hne hn hi =>
      rw [hc] at hi
      by_cases hlast : t.now + c.ttl ≤ last
      · rw [insertResolved_plain c hlast _ .lookup hne, Except.ok.injEq, Prod.mk.injEq] at hi
        exact ⟨_, hi.2.symm⟩
      · obtain ⟨ip, rest, rfl⟩ := List.exists_cons_of_ne_nil hne
        rw [insertResolved_eq, if_neg (by exact hlast)] at hi
        cases hi

end Resolver

end ShrimpWisp
