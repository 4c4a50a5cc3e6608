import ShrimpWisp.Server.Accept

/-!
# The accept loop is an admission policy

The policy (`admission`) knows the running handlers and, of every IP, the times of all attempts that
the connection limit did not drop. It admits a connection when the IP has no limit, or the attempt
is among the first of its window.

* `Follows`: a state of the loop and one of the policy after the same events. The counter is the
  number of running handlers, and the rate map knows the windows (`Knows`), which is needed only when
  there is a limit per IP.
* `follows_exec`: every event keeps it and is answered alike, whatever the loop evicts.
* `acceptLoop_refines_admission`: so for every sequence of events; what it says about the next
  connection needs only the attempts of its own IP.
-/

namespace ShrimpWisp

/-- What the policy knows. -/
structure Admission where
  now : Nat := 0
  running : List Nat := []
  spawned : Nat := 0
  attempts : IpAddr → List Nat := fun _ => []

namespace Admission

variable (config : ServerConfig) (p : Admission)

/-- An attempt that the connection limit does not drop. -/
def attempt (ip : IpAddr) : Admission :=
  { p with attempts := Function.update p.attempts ip (p.attempts ip ++ [p.now]) }

def spawn : Admission :=
  { p with running := p.running ++ [p.spawned], spawned := p.spawned + 1 }

/-- The last attempt of the IP is within its limit. -/
def Within (ip : IpAddr) : Prop :=
  config.maxConnectionsPerIp = 0 ∨
    AmongFirst config.maxConnectionsPerIp (secs config.connectionWindowSecs) (p.attempts ip)

instance (ip : IpAddr) : Decidable (p.Within config ip) := inferInstanceAs (Decidable (_ ∨ _))

/-- As many handlers run as the connection limit allows. -/
def Full : Prop := config.maxConnections ≠ 0 ∧ config.maxConnections ≤ p.running.length

instance : Decidable (p.Full config) := inferInstanceAs (Decidable (_ ∧ _))

def accept (ip : IpAddr) : Admit × Admission :=
  if p.Full config then (.capped, p)
  else if (p.attempt ip).Within config ip then (.admitted, (p.attempt ip).spawn)
  else (.limited, p.attempt ip)

end Admission

/-- The policy. -/
def admission (config : ServerConfig) : Obj Admission AcceptEvent (Option Admit) where
  exec p
    | .accept peerAddr elapsed =>
      let (decision, p) := { p with now := p.now + elapsed }.accept config peerAddr.ip
      (some decision, p)
    | .acceptError => (none, p)
    | .handlerDone handler => (none, { p with running := p.running.erase handler })

/-- The relation of the module doc. -/
structure Follows (config : ServerConfig) (s : AcceptLoop) (p : Admission) : Prop where
  now : s.now = p.now
  running : s.running = p.running
  spawned : s.spawned = p.spawned
  nodup : s.running.Nodup
  old : ∀ handler ∈ s.running, handler < s.spawned
  connCount : s.connCount = s.running.length
  bound : config.maxConnections ≠ 0 → s.connCount ≤ config.maxConnections
  ips : config.maxConnectionsPerIp ≠ 0 →
    Knows (secs config.connectionWindowSecs) s.ipRateMap p.attempts p.now

theorem follows_new (config : ServerConfig) : Follows config {} {} where
  now := rfl
  running := rfl
  spawned := rfl
  nodup := .nil
  old := nofun
  connCount := rfl
  bound _ := Nat.zero_le _
  ips _ := .empty _ _

section Steps

variable {config : ServerConfig} {s : AcceptLoop} {p : Admission}

theorem Follows.later (h : Follows config s p) (elapsed : Nat) :
    Follows config { s with now := s.now + elapsed } { p with now := p.now + elapsed } :=
  { h with
    now := congrArg (· + elapsed) h.now
    ips := fun h0 => (h.ips h0).later (Nat.le_add_right _ _) }

theorem Follows.atLimit_iff (h : Follows config s p) : s.AtLimit config ↔ p.Full config := by
  unfold AcceptLoop.AtLimit Admission.Full
  rw [h.connCount, h.running, Nat.pos_iff_ne_zero]

/-- The per-IP check admits the first `n` attempts of a window, whatever it evicts, and the rate map
then knows the window with the attempt. -/
theorem AcceptLoop.checkIp_spec {n w : Nat} {attempts : IpAddr → List Nat}
    (hknows : n ≠ 0 → Knows w s.ipRateMap attempts s.now) (evicts : UInt64 → Bool) (ip : IpAddr) :
    ((s.checkIp evicts n w ip).1 = true ↔ n = 0 ∨ AmongFirst n w (attempts ip ++ [s.now])) ∧
      ∃ ipRateMap acceptCount, (s.checkIp evicts n w ip).2 = { s with ipRateMap, acceptCount } ∧
        (n ≠ 0 → Knows w ipRateMap (Function.update attempts ip (attempts ip ++ [s.now])) s.now) := by
  unfold checkIp
  by_cases h0 : n = 0
  · rw [if_neg (by rw [h0]; exact Nat.lt_irrefl 0)]
    exact ⟨iff_of_true rfl (.inl h0), _, _, rfl, fun h1 => absurd h0 h1⟩
  · have hhit := (hknows h0).hit ip
    rw [if_pos (Nat.pos_of_ne_zero h0), or_iff_right h0, amongFirst_iff,
      ← (hknows h0).hit_count ip, ← Nat.not_lt]
    dsimp only
    split
    · rename_i hover
      exact ⟨iff_of_false Bool.false_ne_true (not_not_intro hover), _, _, rfl, fun _ => hhit⟩
    · rename_i hunder
      split
      · exact ⟨iff_of_true rfl hunder, _, _, rfl, fun _ => hhit.retain⟩
      · exact ⟨iff_of_true rfl hunder, _, _, rfl, fun _ => hhit⟩

/-- The per-IP check answers as the policy does and keeps the relation. -/
theorem Follows.checkIp (h : Follows config s p) (evicts : UInt64 → Bool) (ip : IpAddr) :
    let check := s.checkIp evicts config.maxConnectionsPerIp (secs config.connectionWindowSecs) ip
    (check.1 = true ↔ (p.attempt ip).Within config ip) ∧ Follows config check.2 (p.attempt ip) := by
  have hknows := h.ips
  rw [← h.now] at hknows
  obtain ⟨hok, ipRateMap, acceptCount, hs, hnext⟩ := s.checkIp_spec hknows evicts ip
  have hnow : s.now = (p.attempt ip).now := h.now
  have hattempts :
      (p.attempt ip).attempts = Function.update p.attempts ip (p.attempts ip ++ [s.now]) := by
    rw [h.now]
    rfl
  refine ⟨?_, ?_⟩
  · rw [hok, Admission.Within, hattempts, Function.update_self]
  · rw [hs]
    refine { h with ips := fun h0 => ?_ }
    rw [hattempts, ← hnow]
    exact hnext h0

theorem Follows.spawnHandler (h : Follows config s p) (hfree : ¬ p.Full config) :
    Follows config s.spawnHandler p.spawn where
  now := h.now
  running := by
    unfold AcceptLoop.spawnHandler Admission.spawn
    rw [h.running, h.spawned]
  spawned := congrArg (· + 1) h.spawned
  nodup := by
    refine List.nodup_append.mpr ⟨h.nodup, by simp, ?_⟩
    intro handler hmem new hnew
    rw [List.mem_singleton.mp hnew]
    exact Nat.ne_of_lt (h.old handler hmem)
  old handler hmem := by
    rcases List.mem_append.mp hmem with hmem | hmem
    · exact Nat.lt_succ_of_lt (h.old handler hmem)
    · rw [List.mem_singleton.mp hmem]
      exact Nat.lt_succ_self _
  connCount := by
    unfold AcceptLoop.spawnHandler
    rw [h.connCount, List.length_append, List.length_singleton]
  bound h0 := by
    have hroom : ¬ config.maxConnections ≤ s.connCount := by
      rw [h.connCount, h.running]
      exact fun hle => hfree ⟨h0, hle⟩
    exact Nat.lt_of_not_le hroom
  ips := h.ips

theorem Follows.handlerDone (h : Follows config s p) (handler : Nat) :
    Follows config (s.handlerDone handler) { p with running := p.running.erase handler } := by
  unfold AcceptLoop.handlerDone
  split
  · rename_i hmem
    exact
      { h with
        running := congrArg (·.erase handler) h.running
        nodup := h.nodup.erase handler
        old := fun i hi => h.old i (List.mem_of_mem_erase hi)
        connCount := by rw [List.length_erase_of_mem hmem, h.connCount]
        bound := fun h0 => (Nat.sub_le _ _).trans (h.bound h0) }
  · rename_i hmem
    exact { h with running := by rw [h.running] at hmem ⊢; exact (List.erase_of_not_mem hmem).symm }

/-- A connection is answered alike. -/
theorem Follows.accepted (h : Follows config s p) (evicts : UInt64 → Bool)
    (peerAddr : SocketAddr) :
    (s.accepted config evicts peerAddr).1 = (p.accept config peerAddr.ip).1 ∧
      Follows config (s.accepted config evicts peerAddr).2 (p.accept config peerAddr.ip).2 := by
  unfold AcceptLoop.accepted Admission.accept
  by_cases hfull : p.Full config
  · rw [if_pos hfull, if_pos (h.atLimit_iff.mpr hfull)]
    exact ⟨rfl, h⟩
  · obtain ⟨hok, hnext⟩ := h.checkIp evicts peerAddr.ip
    rw [if_neg hfull, if_neg (mt h.atLimit_iff.mp hfull)]
    by_cases hwithin : (p.attempt peerAddr.ip).Within config peerAddr.ip
    · rw [if_pos hwithin]
      dsimp only
      rw [if_pos (hok.mpr hwithin)]
      exact ⟨rfl, hnext.spawnHandler hfull⟩
    · rw [if_neg hwithin]
      dsimp only
      rw [if_neg (mt hok.mp hwithin)]
      exact ⟨rfl, hnext⟩

/-- Every event is answered alike and keeps the relation. -/
theorem follows_exec (evicts : UInt64 → Bool) (s : AcceptLoop) (p : Admission) (event : AcceptEvent)
    (h : Follows config s p) :
    ((acceptLoop config evicts).exec s event).1 = ((admission config).exec p event).1 ∧
      Follows config ((acceptLoop config evicts).exec s event).2
        ((admission config).exec p event).2 := by
  cases event with
  | accept peerAddr elapsed =>
    obtain ⟨hsame, hnext⟩ := (h.later elapsed).accepted evicts peerAddr
    exact ⟨congrArg some hsame, hnext⟩
  | acceptError => exact ⟨rfl, h⟩
  | handlerDone handler => exact ⟨rfl, h.handlerDone handler⟩

end Steps

/-- Every sequence of events is answered alike. -/
theorem follows_run (config : ServerConfig) (evicts : UInt64 → Bool) (events : List AcceptEvent) :
    ((acceptLoop config evicts).run {} events).1 = ((admission config).run {} events).1 ∧
      Follows config ((acceptLoop config evicts).run {} events).2
        ((admission config).run {} events).2 :=
  Obj.sim_run (follows_exec evicts) (follows_new config) events

/-- What the policy does with a connection that the connection limit does not drop. -/
theorem Admission.accept_of_free {config : ServerConfig} {p : Admission} (hfree : ¬ p.Full config)
    (ip : IpAddr) :
    (p.accept config ip).1 =
      if config.maxConnectionsPerIp = 0 ∨
          AmongFirst config.maxConnectionsPerIp (secs config.connectionWindowSecs)
            (p.attempts ip ++ [p.now])
      then .admitted else .limited := by
  have hattempts : (p.attempt ip).attempts ip = p.attempts ip ++ [p.now] :=
    Function.update_self ..
  rw [accept, if_neg hfree, ← hattempts]
  by_cases hwithin : (p.attempt ip).Within config ip
  · rw [if_pos hwithin]
    exact (if_pos hwithin).symm
  · rw [if_neg hwithin]
    exact (if_neg hwithin).symm

/-- The connection limit drops a connection iff the counter has reached it. -/
theorem exec_capped_iff {config : ServerConfig} {evicts : UInt64 → Bool} {s : AcceptLoop}
    {peerAddr : SocketAddr} {elapsed : Nat} :
    ((acceptLoop config evicts).exec s (.accept peerAddr elapsed)).1 = some .capped ↔
      s.AtLimit config := by
  have hsome : ((acceptLoop config evicts).exec s (.accept peerAddr elapsed)).1 =
      some ({ s with now := s.now + elapsed }.accepted config evicts peerAddr).1 := rfl
  rw [hsome, Option.some_inj]
  unfold AcceptLoop.accepted
  split
  · rename_i hlimit
    exact iff_of_true rfl hlimit
  · rename_i hfree
    dsimp only
    split
    · exact iff_of_false nofun hfree
    · exact iff_of_false nofun hfree

/-- What the loop does with a connection that the connection limit does not drop. -/
theorem Follows.exec_of_free {config : ServerConfig} {s : AcceptLoop} {p : Admission}
    (h : Follows config s p) (evicts : UInt64 → Bool) (peerAddr : SocketAddr) (elapsed : Nat)
    (hfree : ((acceptLoop config evicts).exec s (.accept peerAddr elapsed)).1 ≠ some .capped) :
    ((acceptLoop config evicts).exec s (.accept peerAddr elapsed)).1 =
      some (if config.maxConnectionsPerIp = 0 ∨
          AmongFirst config.maxConnectionsPerIp (secs config.connectionWindowSecs)
            (p.attempts peerAddr.ip ++ [p.now + elapsed])
        then .admitted else .limited) := by
  have hroom : ¬ { p with now := p.now + elapsed }.Full config :=
    fun hfull => hfree (exec_capped_iff.mpr ((h.later elapsed).atLimit_iff.mpr hfull))
  rw [(follows_exec evicts s p (.accept peerAddr elapsed) h).1]
  exact congrArg some (Admission.accept_of_free hroom peerAddr.ip)

/-- For every sequence of connections and ends of handlers: the loop answers as the policy; its
counter is the number of running handlers and stays within the limit. A connection that the
connection limit does not drop is admitted iff it is within the limit of its IP, and what the other
addresses did does not matter. The decisions do not depend on what is evicted. -/
theorem acceptLoop_refines_admission (config : ServerConfig) (events : List AcceptEvent) :
    let loop := acceptLoop config cleanupDue
    let s := (loop.run {} events).2
    let p := ((admission config).run {} events).2
    (loop.run {} events).1 = ((admission config).run {} events).1 ∧
    s.running = p.running ∧ s.running.Nodup ∧ s.connCount = s.running.length ∧
    (config.maxConnections ≠ 0 → s.connCount ≤ config.maxConnections) ∧
    (∀ peerAddr elapsed, (loop.exec s (.accept peerAddr elapsed)).1 ≠ some .capped →
      ((loop.exec s (.accept peerAddr elapsed)).1 = some .admitted ↔
        config.maxConnectionsPerIp = 0 ∨
          AmongFirst config.maxConnectionsPerIp (secs config.connectionWindowSecs)
            (p.attempts peerAddr.ip ++ [p.now + elapsed]))) ∧
    (∀ evicts, ((acceptLoop config evicts).run {} events).1 = (loop.run {} events).1) ∧
    ∀ events' peerAddr elapsed elapsed',
      let s' := (loop.run {} events').2
      let p' := ((admission config).run {} events').2
      (loop.exec s (.accept peerAddr elapsed)).1 ≠ some .capped →
      (loop.exec s' (.accept peerAddr elapsed')).1 ≠ some .capped →
      p.attempts peerAddr.ip = p'.attempts peerAddr.ip → p.now + elapsed = p'.now + elapsed' →
      (loop.exec s (.accept peerAddr elapsed)).1 = (loop.exec s' (.accept peerAddr elapsed')).1 := by
  intro loop s p
  obtain ⟨hsame, h⟩ := follows_run config cleanupDue events
  refine ⟨hsame, h.running, h.nodup, h.connCount, h.bound, ?_, ?_, ?_⟩
  · intro peerAddr elapsed hfree
    rw [h.exec_of_free cleanupDue peerAddr elapsed hfree]
    split
    · rename_i hwithin
      exact iff_of_true rfl hwithin
    · rename_i hover
      exact iff_of_false nofun hover
  · intro evicts
    exact (follows_run config evicts events).1.trans hsame.symm
  · intro events' peerAddr elapsed elapsed' s' p' hfree hfree' hattempts hnow
    have h' := (follows_run config cleanupDue events').2
    rw [h.exec_of_free cleanupDue peerAddr elapsed hfree,
      h'.exec_of_free cleanupDue peerAddr elapsed' hfree', hattempts, hnow]

example :
    let peerAddr : SocketAddr := ⟨.v4 ⟨192, 0, 2, 1⟩, 5000⟩
    ((acceptLoop { maxConnections := 2, maxConnectionsPerIp := 1 } cleanupDue).run {}
      [.accept peerAddr 0, .accept peerAddr 5, .accept peerAddr (secs 60), .accept peerAddr 0,
        .handlerDone 0, .accept peerAddr 0]).1 =
      [some .admitted, some .limited, some .admitted, some .capped, none, some .limited] := by
  decide

end ShrimpWisp
