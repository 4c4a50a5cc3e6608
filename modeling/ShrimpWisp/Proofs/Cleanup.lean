import ShrimpWisp.Proofs.Admission

/-!
# The rate map does not grow without bound

Every 1024th connection that the limit of its IP lets through, the entries of windows that are over
are dropped. So at any time there are fewer than 1024 entries besides those whose windows were open
at one time, that of the last cleanup.

* `Tidy`: the map of the loop, with as many other keys as connections were counted since the last
  cleanup. Every event keeps it (`Tidy.accepted`): a connection that the limit drops is not counted,
  but its IP had an entry (`RateMap.OpenAt.hit_again`).
* `rateMap_bounded`: so in every run.
-/

namespace ShrimpWisp

/-- `accept_count & 1023` is 0 for every 1024th number. -/
theorem cleanupDue_iff (acceptCount : UInt64) :
    cleanupDue acceptCount = true ↔ acceptCount.toNat % 1024 = 0 := by
  rw [cleanupDue, beq_iff_eq, ← UInt64.toNat_inj, UInt64.toNat_and]
  have hmask : (1023 : UInt64).toNat = 2 ^ 10 - 1 := rfl
  rw [hmask, Nat.and_two_pow_sub_one_eq_mod]
  rfl

/-- The counter wraps at a multiple of 1024. -/
theorem count_succ_mod (acceptCount : UInt64) :
    (acceptCount + 1).toNat % 1024 = (acceptCount.toNat + 1) % 1024 := by
  rw [UInt64.toNat_add]
  exact Nat.mod_mod_of_dvd _ (by decide)

/-- The map of the loop (module doc). -/
structure Tidy (config : ServerConfig) (s : AcceptLoop) : Prop where
  entries : ∃ t ≤ s.now, ∃ fresh : Finset IpAddr, fresh.card ≤ s.acceptCount.toNat % 1024 ∧
    s.ipRateMap.OpenAt (secs config.connectionWindowSecs) t fresh
  unlimited : config.maxConnectionsPerIp = 0 → ∀ ip, s.ipRateMap ip = none

theorem tidy_new (config : ServerConfig) : Tidy config {} where
  entries := ⟨0, le_rfl, ∅, Nat.zero_le _, fun _ _ _ h => nomatch h⟩
  unlimited _ _ := rfl

section Steps

variable {config : ServerConfig} {s : AcceptLoop} {p : Admission}

theorem Tidy.later (h : Tidy config s) (elapsed : Nat) :
    Tidy config { s with now := s.now + elapsed } where
  entries := by
    obtain ⟨t, hle, rest⟩ := h.entries
    exact ⟨t, Nat.le_add_right_of_le hle, rest⟩
  unlimited := h.unlimited

/-- The per-IP check keeps it. -/
theorem Tidy.checkIp (h : Tidy config s) (hf : Follows config s p) (ip : IpAddr) :
    Tidy config (s.checkIp cleanupDue config.maxConnectionsPerIp
      (secs config.connectionWindowSecs) ip).2 := by
  unfold AcceptLoop.checkIp
  by_cases h0 : config.maxConnectionsPerIp = 0
  · rw [if_neg (by rw [h0]; exact Nat.lt_irrefl 0)]
    exact h
  rw [if_pos (Nat.pos_of_ne_zero h0)]
  obtain ⟨t, hle, fresh, hfew, hrest⟩ := h.entries
  have hknows := hf.ips h0
  rw [← hf.now] at hknows
  have hhit := hknows.hit ip
  dsimp only
  split
  next hover =>
    -- The IP had an entry, of a window with an attempt already.
    exact ⟨⟨t, hle, fresh, hfew, hrest.hit_again (by omega)⟩, fun h1 => absurd h1 h0⟩
  next =>
    split
    next hdue =>
      -- The cleanup: nothing is left but windows that are open now.
      refine ⟨⟨s.now, le_rfl, ∅, Nat.zero_le _, ?_⟩, fun h1 => absurd h1 h0⟩
      exact RateMap.openAt_retain fun k n start hk => (hhit.entry k n start hk).1
    next hdue =>
      refine ⟨⟨t, hle, insert ip fresh, ?_, hrest.hit ip⟩, fun h1 => absurd h1 h0⟩
      rw [cleanupDue_iff, count_succ_mod] at hdue
      have hcard := Finset.card_insert_le ip fresh
      show (insert ip fresh).card ≤ (s.acceptCount + 1).toNat % 1024
      rw [count_succ_mod]
      omega

theorem Tidy.accepted (h : Tidy config s) (hf : Follows config s p) (peerAddr : SocketAddr) :
    Tidy config (s.accepted config cleanupDue peerAddr).2 := by
  unfold AcceptLoop.accepted
  have hcheck := h.checkIp hf peerAddr.ip
  split
  · exact h
  · dsimp only
    split
    · exact ⟨hcheck.entries, hcheck.unlimited⟩
    · exact hcheck

/-- Every event keeps it. -/
theorem Tidy.exec (h : Tidy config s) (hf : Follows config s p) (event : AcceptEvent) :
    Tidy config ((acceptLoop config cleanupDue).exec s event).2 := by
  cases event with
  | accept peerAddr elapsed => exact (h.later elapsed).accepted (hf.later elapsed) peerAddr
  | acceptError => exact h
  | handlerDone handler =>
    show Tidy config (s.handlerDone handler)
    unfold AcceptLoop.handlerDone
    split
    · exact ⟨h.entries, h.unlimited⟩
    · exact h

end Steps

/-- For every sequence of connections and ends of handlers: there is a time such that fewer than
1024 addresses have an entry in the rate map besides those with an attempt less than a window
before that time. -/
theorem rateMap_bounded (config : ServerConfig) (events : List AcceptEvent) :
    let s := ((acceptLoop config cleanupDue).run {} events).2
    let p := ((admission config).run {} events).2
    ∃ t ≤ s.now, ∃ fresh : Finset IpAddr, fresh.card < 1024 ∧
      ∀ ip, s.ipRateMap ip ≠ none →
        ip ∈ fresh ∨ ∃ a ∈ p.attempts ip, a ≤ t ∧ t < a + secs config.connectionWindowSecs := by
  intro s p
  obtain ⟨-, hf, ht⟩ := Obj.sim_run (R := fun s p => Follows config s p ∧ Tidy config s)
    (fun s p event h =>
      have hexec := follows_exec cleanupDue s p event h.1
      ⟨hexec.1, hexec.2, h.2.exec h.1 event⟩)
    ⟨follows_new config, tidy_new config⟩ events
  obtain ⟨t, hle, fresh, hfew, hrest⟩ := ht.entries
  refine ⟨t, hle, fresh, hfew.trans_lt (Nat.mod_lt _ (by decide)), ?_⟩
  intro ip hip
  obtain ⟨⟨n, start⟩, hentry⟩ := Option.ne_none_iff_exists'.mp hip
  refine (hrest ip n start hentry).imp_right fun hopen => ⟨start, ?_, hopen⟩
  have h0 : config.maxConnectionsPerIp ≠ 0 := fun h0 => hip (ht.unlimited h0 ip)
  obtain ⟨-, rest, hw, -⟩ := (hf.ips h0).entry ip n start hentry
  exact mem_of_mem_window (hw ▸ List.mem_cons_self ..)

end ShrimpWisp
