import ShrimpWisp.Proofs.Opening
import ShrimpWisp.Server.Loop

/-!
# The list of streams with queued uploads

`streams_with_pending` and the flag `queued_for_drain` say the same, for every connected stream. A
removed stream can leave its id in the list. If the id is then used again, a second id would be
added for the new stream; but a stream becomes connected only after Phase 0, and Phase 0 keeps no id
without a queue.

* `Tracks`: list, flags and queues agree. Inbound frames keep it.
* `Purged`: from Phase 0 to the next inbound frame, no id of the list belongs to a stream that still
  connects. So a stream that becomes connected is not in the list yet.
* `pending_tracking`: both hold in every reachable state.
-/

namespace ShrimpWisp

variable {S : Setup} {l l' : Loop}

/-- List, flags and queues agree. -/
structure Tracks (l : Loop) : Prop where
  nodup : l.tracked.Nodup
  queued : ∀ s tcp, l.entry s = some (.tcp tcp) → tcp.pending ≠ [] → tcp.queuedForDrain = true
  flag : ∀ s tcp, l.entry s = some (.tcp tcp) → (tcp.queuedForDrain = true ↔ s ∈ l.tracked)

/-- The ids that Phase 0 has visited, if no inbound frame was handled since. -/
def Pc.purges : Pc → StreamId → Prop
  | .phase0 _ kept _, s => s ∈ kept
  | .phase0Dead _, _ => True
  | .phase1, _ => True
  | .select, _ => True
  | .controlRest, _ => True
  | _, _ => False

/-- No id of the list that Phase 0 kept belongs to a stream that still connects. -/
def Purged (l : Loop) : Prop :=
  ∀ s ∈ l.tracked, l.pc.purges s → ∀ cs, l.entry s ≠ some (.connecting cs)

/-- The invariant. -/
structure TrackOk (l : Loop) : Prop extends Tracks l where
  purged : Purged l
  phase0 : ∀ todo kept dead, l.pc = .phase0 todo kept dead → l.tracked = kept ++ todo

/-! ## Changes of one entry -/

theorem Tracks.congr (h : Tracks l) (he : l'.entry = l.entry) (ht : l'.tracked = l.tracked) :
    Tracks l' :=
  ⟨ht ▸ h.nodup, fun s tcp hx => h.queued s tcp (he ▸ hx), fun s tcp hx => ht ▸ h.flag s tcp (he ▸ hx)⟩

/-- The entry of `s` becomes another one, with the same list. -/
theorem Tracks.put (h : Tracks l) {s : StreamId} {x : Option (ProxyStream Octet)}
    (hx : ∀ tcp, x = some (.tcp tcp) →
      (tcp.pending ≠ [] → tcp.queuedForDrain = true) ∧ (tcp.queuedForDrain = true ↔ s ∈ l.tracked)) :
    Tracks (l.put s x) := by
  refine ⟨h.nodup, ?_, ?_⟩
  · intro s' tcp hs
    simp only [Loop.put] at hs
    split at hs
    · exact (hx tcp hs).1
    · exact h.queued s' tcp hs
  · intro s' tcp hs
    simp only [Loop.put] at hs
    split at hs
    · rename_i heq
      rw [heq]
      exact (hx tcp hs).2
    · exact h.flag s' tcp hs

/-- The entry of `s` becomes a connected stream, and `s` is added to the list. -/
theorem Tracks.add (h : Tracks l) {s : StreamId} (hs : s ∉ l.tracked) {tcp : TcpProxyStream Octet}
    (hq : tcp.queuedForDrain = true) :
    Tracks { l.put s (some (.tcp tcp)) with tracked := l.tracked ++ [s] } := by
  refine ⟨?_, ?_, ?_⟩
  · exact List.nodup_append.mpr ⟨h.nodup, List.nodup_singleton s, by
      rintro a ha b hb rfl
      rw [List.mem_singleton] at hb
      exact hs (hb ▸ ha)⟩
  · intro s' tcp' hx hp
    simp only [Loop.put] at hx
    split at hx
    · cases hx; exact hq
    · exact h.queued s' tcp' hx hp
  · intro s' tcp' hx
    simp only [Loop.put] at hx
    split at hx
    · rename_i heq
      cases hx
      simp [heq, hq]
    · rename_i hne
      rw [h.flag s' tcp' hx]
      simp [hne]

theorem Tracks.removeEntry (h : Tracks l) (s : StreamId) : Tracks (l.removeEntry s) :=
  (h.put (s := s) (x := none) (by simp)).congr rfl rfl

/-! ## The parts of a step -/

/-- The stream after a DATA packet. -/
theorem counted_flag (tcp : TcpProxyStream Octet) :
    (counted S tcp).2.queuedForDrain = (tcp.queuedForDrain || Conn.needsTracking tcp) := by
  unfold counted Conn.countPacket TcpProxyStream.recordPacket Conn.track
  dsimp only
  split <;> split <;> simp_all [TcpProxyStream.resetCounter]

theorem Tracks.inbound (h : Tracks l) {r : WispFrameResult} (hi : Inbound S l r l') : Tracks l' := by
  cases hi with
  | ignored _ => exact h
  | early _ => exact h.put (by simp)
  | @upload s _ tcp tcp' _ _ _ hx hw =>
    have hsame : tcp'.queuedForDrain = tcp.queuedForDrain := (tcpTryWrite_frame hw).2.2.1
    have hflag := counted_flag (S := S) tcp'
    have hpending := (counted_frame S tcp').2.1
    cases hn : Conn.needsTracking tcp' with
    | true =>
      rw [hn, Bool.or_true] at hflag
      have hq : tcp'.queuedForDrain = false := by
        simp only [Conn.needsTracking, Bool.and_eq_true, Bool.not_eq_true'] at hn
        exact hn.2
      have hout : s ∉ l.tracked := by
        rw [← h.flag s tcp hx, ← hsame, hq]
        nofun
      exact (h.add hout hflag).congr rfl rfl
    | false =>
      rw [hn, Bool.or_false] at hflag
      refine (h.put (s := s) (x := some (.tcp (counted S tcp').2)) ?_).congr rfl rfl
      rintro _ ⟨⟩
      refine ⟨fun hp => ?_, by rw [hflag, hsame]; exact h.flag s tcp hx⟩
      rw [hpending] at hp
      rw [hflag]
      simpa [Conn.needsTracking, hp] using hn
  | uploadDead _ _ => exact (h.put (x := none) (by simp)).congr rfl rfl
  | close => exact h.removeEntry _
  | refused _ => exact h.congr rfl rfl
  | throttled _ => exact h.congr rfl rfl
  | pong => exact h.congr rfl rfl

/-- After an inbound frame the program counter makes no demand on the entries. -/
theorem trackOk_of_tracks (h : Tracks l) (hpc : ∀ s, ¬ l.pc.purges s)
    (h0 : ∀ todo kept dead, l.pc = .phase0 todo kept dead → l.tracked = kept ++ todo) : TrackOk l :=
  { h with purged := fun s _ hp => absurd hp (hpc s), phase0 := h0 }

theorem trackOk_flushThen (h : Tracks l) {q : Pc}
    (hq : q = .phase0 l.tracked [] [] ∨ q = .inner ∨ q = .ended) : TrackOk (l.flushThen q) := by
  have hpc : (l.flushThen q).pc = q ∨ (l.flushThen q).pc = .ended := by
    simp only [Loop.flushThen]
    split
    · exact .inl rfl
    · exact .inr rfl
  refine trackOk_of_tracks (h.congr rfl rfl) ?_ ?_
  · intro s
    rcases hpc with hpc | hpc <;> rw [hpc]
    · rcases hq with rfl | rfl | rfl <;> simp [Pc.purges]
    · simp [Pc.purges]
  · intro todo kept dead h0
    rcases hpc with hpc | hpc <;> rw [hpc] at h0
    · rcases hq with rfl | rfl | rfl <;> cases h0
      rfl
    · cases h0

theorem trackOk_finishes (h : Tracks l) {site : Site} (hf : Finishes l site l') : TrackOk l' := by
  cases hf with
  | flush _ => exact trackOk_flushThen h (.inr (.inl rfl))
  | yield => exact trackOk_flushThen h (.inl rfl)
  | next => exact trackOk_of_tracks (h.congr rfl rfl) (by simp [Pc.purges]) nofun

theorem trackOk_breakLoop (h : Tracks l) (site : Site) : TrackOk (l.breakLoop site) := by
  cases site with
  | inner => exact trackOk_flushThen h (.inr (.inr rfl))
  | deferred => exact trackOk_of_tracks (h.congr rfl rfl) (by simp [Loop.breakLoop, Pc.purges]) nofun
  | select => exact trackOk_of_tracks (h.congr rfl rfl) (by simp [Loop.breakLoop, Pc.purges]) nofun

theorem trackOk_suspends (h : Tracks l) {site : Site} {r : WispFrameResult}
    (hs : Suspends l site r l') : TrackOk l' := by
  cases hs with
  | tcp _ =>
    refine trackOk_of_tracks ?_ (by simp [Pc.purges]) nofun
    exact (h.put (by simp)).congr rfl rfl
  | udp _ => exact trackOk_of_tracks (h.congr rfl rfl) (by simp [Pc.purges]) nofun

theorem Takes.tracks {site : Site} {i : WsInput} (h : Tracks l) (ht : Takes l site i l') :
    Tracks l' := by
  cases ht <;> exact h.congr rfl rfl

/-! ## Control events -/

/-- The program counters at which events are handled: Phase 0 is over. -/
theorem trackOk_delivers (h : TrackOk l) (hpc : ∀ s, l.pc.purges s) {p : Posted}
    (hd : Delivers S l p l') :
    Tracks l' ∧ ∀ s ∈ l'.tracked, ∀ cs, l'.entry s ≠ some (.connecting cs) := by
  have hpurged : ∀ s ∈ l.tracked, ∀ cs, l.entry s ≠ some (.connecting cs) :=
    fun s hs => h.purged s hs (hpc s)
  have hput : ∀ {s x}, (∀ cs, x ≠ some (.connecting cs)) →
      ∀ s' ∈ l.tracked, ∀ cs, (l.put s x).entry s' ≠ some (.connecting cs) := by
    intro s x hx s' hs' cs
    simp only [Loop.put]
    split
    · exact hx cs
    · exact hpurged s' hs' cs
  cases hd with
  | ended _ => exact ⟨(h.toTracks.removeEntry _).congr rfl rfl, hput (by simp)⟩
  | absent _ _ => exact ⟨h.toTracks, hpurged⟩
  | other _ _ _ => exact ⟨h.toTracks.congr rfl rfl, hpurged⟩
  | @attach s _ _ _ cs pending w _ hx =>
    -- A stream that still connects is not in the list.
    have hout : s ∉ l.tracked := fun hs => hpurged s hs cs hx
    cases pending with
    | nil =>
      refine ⟨?_, hput (by simp)⟩
      refine (h.toTracks.put (s := s) ?_).congr rfl rfl
      rintro _ ⟨⟩
      exact ⟨fun hp => absurd rfl hp, by simp [TcpProxyStream.withPending, hout]⟩
    | cons chunk rest =>
      have hadd := fun flag => @Tracks.add l h.toTracks s hout (.withPending w (chunk :: rest) flag) rfl
      refine ⟨(hadd _).congr rfl rfl, ?_⟩
      intro s' hs' cs'
      rcases List.mem_append.mp hs' with hs' | hs'
      · exact hput (by simp) s' hs' cs'
      · rw [List.mem_singleton] at hs'
        simp [Loop.emit, Loop.put, hs']
  | attachDead _ _ => exact ⟨(h.toTracks.put (x := none) (by simp)).congr rfl rfl, hput (by simp)⟩

/-! ## Phase 0 -/

/-- Phase 0 takes an id off the list, and its stream has no queue. -/
theorem Tracks.drop (h : Tracks l) {s : StreamId} {kept todo : List StreamId}
    (ht : l.tracked = kept ++ s :: todo) {x : Option (ProxyStream Octet)}
    (hx : ∀ tcp, x = some (.tcp tcp) → tcp.pending = [] ∧ tcp.queuedForDrain = false) :
    Tracks { l.put s x with tracked := kept ++ todo } := by
  have hnodup := h.nodup
  rw [ht, List.nodup_append, List.nodup_cons] at hnodup
  obtain ⟨hk, ⟨hs, htodo⟩, hdisj⟩ := hnodup
  have hkept : s ∉ kept := fun hm => hdisj s hm s List.mem_cons_self rfl
  refine ⟨?_, ?_, ?_⟩
  · exact List.nodup_append.mpr
      ⟨hk, htodo, fun a ha b hb => hdisj a ha b (List.mem_cons_of_mem _ hb)⟩
  · intro s' tcp hy hp
    simp only [Loop.put] at hy
    split at hy
    · exact absurd (hx tcp hy).1 hp
    · exact h.queued s' tcp hy hp
  · intro s' tcp hy
    simp only [Loop.put] at hy
    split at hy
    · rename_i heq
      rw [(hx tcp hy).2, heq]
      simp [hkept, hs]
    · rename_i hne
      rw [h.flag s' tcp hy, ht]
      simp [hne]

theorem trackOk_drains (h : TrackOk l) {s : StreamId} {todo kept dead : List StreamId}
    (hpc : l.pc = .phase0 (s :: todo) kept dead) {keep died : Bool} (hd : Drains l s keep died l')
    (dead' : List StreamId) :
    TrackOk { l' with
      tracked := (if keep then kept ++ [s] else kept) ++ todo
      pc := .phase0 todo (if keep then kept ++ [s] else kept) dead' } := by
  have ht := h.phase0 _ _ _ hpc
  have hpurged : ∀ s' ∈ kept, ∀ cs, l.entry s' ≠ some (.connecting cs) := by
    intro s' hs'
    refine h.purged s' (by rw [ht]; exact List.mem_append_left _ hs') ?_
    rw [hpc]
    exact hs'
  have hput : ∀ {tcp}, ∀ s' ∈ kept, ∀ cs,
      (l.put s (some (.tcp tcp))).entry s' ≠ some (.connecting cs) := by
    intro tcp s' hs' cs
    simp only [Loop.put]
    split
    · simp
    · exact hpurged s' hs' cs
  have hphase : ∀ {l₁ : Loop} {kept'}, Tracks { l₁ with tracked := kept' ++ todo } →
      (∀ s' ∈ kept', ∀ cs, l₁.entry s' ≠ some (.connecting cs)) →
      TrackOk { l₁ with tracked := kept' ++ todo, pc := .phase0 todo kept' dead' } := by
    intro l₁ kept' htr hp
    refine { htr.congr rfl rfl with purged := fun s' _ hs' => hp s' hs', phase0 := ?_ }
    rintro _ _ _ ⟨⟩
    rfl
  cases hd with
  | other hn =>
    refine hphase ?_ hpurged
    have hsame : l.entry = (l.put s (l.entry s)).entry := by
      funext s'
      simp only [Loop.put]
      split
      · rename_i heq; rw [heq]
      · rfl
    exact (h.toTracks.drop ht (x := l.entry s) (fun tcp hx => absurd hx (hn tcp))).congr hsame rfl
  | empty _ hp =>
    refine hphase (h.toTracks.drop ht ?_) hput
    rintro _ ⟨⟩
    exact ⟨hp, rfl⟩
  | dead _ hdead =>
    refine hphase (h.toTracks.drop ht ?_) hput
    rintro _ ⟨⟩
    exact ⟨(drainPending_dead hdead).2, rfl⟩
  | sent _ _ hp =>
    refine hphase (h.toTracks.drop ht ?_) hput
    rintro _ ⟨⟩
    exact ⟨hp, rfl⟩
  | @kept tcp r hx hp _ =>
    have hq := (drainPending_frame tcp r).2.2.1
    have hmem : s ∈ l.tracked := by rw [ht]; simp
    refine hphase ?_ ?_
    · refine (h.toTracks.put (s := s) (x := some (.tcp (drainPending tcp r).2)) ?_).congr rfl ?_
      · rintro _ ⟨⟩
        rw [hq, h.flag s tcp hx]
        exact ⟨fun _ => hmem, Iff.rfl⟩
      · show (if true then kept ++ [s] else kept) ++ todo = l.tracked
        simp [ht]
    · intro s' hs' cs
      rcases List.mem_append.mp hs' with hs' | hs'
      · exact hput s' hs' cs
      · rw [List.mem_singleton] at hs'
        simp [Loop.put, hs']

/-! ## Steps -/

/-- A step that leaves the list, the entries and the program counter alone. -/
theorem TrackOk.congr (h : TrackOk l) (he : l'.entry = l.entry) (ht : l'.tracked = l.tracked)
    (hpc : l'.pc = l.pc) : TrackOk l' :=
  { h.toTracks.congr he ht with
    purged := by
      intro s hs hp
      rw [hpc] at hp
      rw [he]
      exact h.purged s (ht ▸ hs) hp
    phase0 := by
      rw [hpc, ht]
      exact h.phase0 }

theorem TrackOk.step {r : Option WispFrameResult} (h : TrackOk l) (hs : LoopStep S l r l') :
    TrackOk l' := by
  have ht := h.toTracks
  have hquiet : ∀ {q : Pc}, (q = .ended ∨ q = .inner) →
      ∀ {l₁ : Loop}, l₁.entry = l.entry → l₁.tracked = l.tracked → l₁.pc = q → TrackOk l₁ := by
    intro q hq l₁ he htr hpc
    refine trackOk_of_tracks (ht.congr he htr) ?_ ?_
    · intro s
      rw [hpc]
      rcases hq with rfl | rfl <;> simp [Pc.purges]
    · intro todo kept dead h0
      rw [hpc] at h0
      rcases hq with rfl | rfl <;> cases h0
  have hfinish : ∀ {l₁ site}, Finishes l₁ site l' → l₁.entry = l.entry → l₁.tracked = l.tracked →
      TrackOk l' := fun hf he htr => trackOk_finishes (ht.congr he htr) hf
  cases hs with
  | nop => exact h
  | down => exact h.congr rfl rfl rfl
  | task _ _ => exact h.congr rfl rfl rfl
  | start _ hf => exact trackOk_finishes ht hf
  | deferred _ hi hf => exact trackOk_finishes (ht.inbound hi) hf
  | deferredConnect _ hs => exact trackOk_suspends ht hs
  | inbound htake _ _ hi hf => exact trackOk_finishes ((htake.tracks ht).inbound hi) hf
  | connect htake _ hs => exact trackOk_suspends (htake.tracks ht) hs
  | closing htake _ _ =>
    refine trackOk_breakLoop ?_ _
    exact (htake.tracks ht).congr rfl rfl
  | readError htake _ => exact trackOk_breakLoop (htake.tracks ht) _
  | drained _ _ => exact trackOk_flushThen ht (.inl rfl)
  | tcpFailed _ => exact trackOk_of_tracks (ht.congr rfl rfl) (by simp [Pc.purges]) nofun
  | spawned _ hf => exact hfinish hf rfl rfl
  | sendFailed _ hf => exact hfinish hf rfl rfl
  | udpRefused _ hf => exact hfinish hf rfl rfl
  | udpThrottled _ hf => exact hfinish hf rfl rfl
  | udpAccepted _ _ hf =>
    refine trackOk_finishes ?_ hf
    exact (ht.put (x := some (.udp _)) (by simp)).congr rfl rfl
  | phase0 hpc hd => exact trackOk_drains h hpc hd _
  | phase0End hpc =>
    -- All of the list is kept.
    have hkept := h.phase0 _ _ _ hpc
    refine { ht.congr rfl rfl with purged := ?_, phase0 := nofun }
    intro s hs _
    refine h.purged s hs ?_
    replace hs : s ∈ l.tracked := hs
    rw [hkept, List.append_nil] at hs
    rw [hpc]
    exact hs
  | deadEnd hpc =>
    refine { ht.congr rfl rfl with purged := ?_, phase0 := nofun }
    intro s hs _
    exact h.purged s hs (by rw [hpc]; trivial)
  | @deadOne s dead hpc =>
    refine { (ht.removeEntry s).congr rfl rfl with purged := ?_, phase0 := nofun }
    intro s' hs' _ cs
    simp only [Loop.emit, Loop.removeEntry, Loop.put]
    split
    · simp
    · exact h.purged s' hs' (by rw [hpc]; trivial) cs
  | @event p rest q l₁ _ hpc hd =>
    have hpurges : ∀ s, l.pc.purges s := by
      rcases hpc with ⟨hpc, -⟩ | ⟨hpc | hpc, -⟩ <;> rw [hpc] <;> exact fun _ => trivial
    obtain ⟨htr, hp⟩ := trackOk_delivers (l := { l with control := rest })
      (h.congr rfl rfl rfl) hpurges hd
    refine { htr.congr rfl rfl with purged := fun s hs _ => hp s hs, phase0 := ?_ }
    rintro todo kept dead h0
    rcases hpc with ⟨-, rfl⟩ | ⟨-, rfl⟩ <;> cases h0
  | @batch ms q hpc =>
    cases hok : (ms.isEmpty || l.up) with
    | false => exact hquiet (.inl rfl) rfl rfl (by simp)
    | true =>
      rcases hpc with ⟨hpc, rfl⟩ | ⟨hpc, rfl⟩
      · refine { ht.congr rfl rfl with purged := ?_, phase0 := by simp }
        intro s hs _
        exact h.purged s hs (by rw [hpc]; trivial)
      · exact hquiet (.inr rfl) rfl rfl (by simp)
  | restEnd _ => exact hquiet (.inr rfl) rfl rfl rfl
  | timedOut _ => exact hquiet (.inl rfl) rfl rfl rfl
  | noPing _ => exact hquiet (.inr rfl) rfl rfl rfl
  | ping _ => exact hquiet (.inr rfl) rfl rfl rfl

theorem Reach.trackOk {ok : Conn → Act → Conn → Prop} {c : Conn} (h : (sys S).Reach ok c) :
    TrackOk c.loop := by
  refine Reach.loop (I := TrackOk) ?_ (fun _ _ _ _ hi => hi.congr rfl rfl rfl)
    (fun c a c' _ hi _ hs => hi.step hs) h
  intro frame
  have hnone : ∀ s x, (Conn.start S frame).loop.entry s ≠ some x := by
    intro s x
    rw [Loop.start_entry]
    nofun
  exact {
    nodup := List.nodup_nil
    queued := fun s tcp hx => absurd hx (hnone s _)
    flag := fun s tcp hx => absurd hx (hnone s _)
    purged := nofun
    phase0 := nofun }

/-- In every reachable state, `streams_with_pending` has no id twice; a connected stream with a
queue has its flag set and its id in the list; and a connected stream whose id is in the list has its
flag set. -/
theorem pending_tracking {c : Conn} (h : (sys S).Reach Sys.Any c) :
    c.streamsWithPending.Nodup ∧
    (∀ s tcp, c.table.get? s = some (.tcp tcp) → tcp.pending ≠ [] →
      tcp.queuedForDrain = true ∧ s ∈ c.streamsWithPending) ∧
    ∀ s ∈ c.streamsWithPending, ∀ tcp, c.table.get? s = some (.tcp tcp) →
      tcp.queuedForDrain = true := by
  obtain ⟨hnodup, hqueued, hflag⟩ := (Reach.trackOk h).toTracks
  refine ⟨hnodup, ?_, ?_⟩
  · intro s tcp hx hp
    have hq := hqueued s tcp hx hp
    exact ⟨hq, (hflag s tcp hx).mp hq⟩
  · intro s hs tcp hx
    exact (hflag s tcp hx).mpr hs

/-- A byte for a connected stream whose socket takes nothing. -/
theorem pending_tracking_blocked :
    ∃ c tcp, (sys { config := {} }).Reach Sys.Any c ∧ c.table.get? 1 = some (.tcp tcp) ∧
      tcp.pending ≠ [] ∧ tcp.queuedForDrain = true ∧ 1 ∈ c.streamsWithPending := by
  obtain ⟨c, tcp, hr, hx, hp⟩ := Reach.exists_tcp { config := {} } Sys.Any
    (attachOne ++ [dataOne 7, .main {}]) 1 (fun _ tcp => decide (tcp.pending ≠ []))
    (by decide +kernel)
  have hne := of_decide_eq_true hp
  exact ⟨c, tcp, hr, hx, hne, (pending_tracking hr).2.1 1 tcp hx hne⟩

end ShrimpWisp
