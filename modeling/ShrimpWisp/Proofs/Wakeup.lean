import ShrimpWisp.Proofs.Incarnation

/-!
# Queued uploads and the wake-ups of the loop

The main task leaves `select!` for inbound frames, backend DATA, control events and timers
(`Conn.awake`). A backend socket that becomes writable is not among them.

* `parked_uploads`: while the main task is parked in `select!`, every queue is tracked for Phase 0 and
  its socket has been offered bytes since the last wake-up; the task goes on exactly if it is awake.
  So every wake-up of the loop offers the queued bytes again.
* `upload_stalls`: in a reachable state a queue waits, its socket is writable, and no step of the
  main task is enabled.
-/

namespace ShrimpWisp

variable {S : Setup}

/-! ## The invariant -/

/-- The queue of a stream: if it is not empty, it is tracked and `P` holds. -/
structure QueueOk (tracked : List StreamId) (P : StreamId → Prop) (s : StreamId)
    (tcp : TcpProxyStream Octet) : Prop where
  queued : tcp.pending ≠ [] → tcp.queuedForDrain = true ∧ P s
  tracked : tcp.queuedForDrain = true → s ∈ tracked

theorem QueueOk.mono {l l' : List StreamId} {P Q : StreamId → Prop} {s : StreamId}
    {tcp : TcpProxyStream Octet} (h : QueueOk l P s tcp) (hl : s ∈ l → s ∈ l') (hP : P s → Q s) :
    QueueOk l' Q s tcp :=
  ⟨fun hp => ⟨(h.queued hp).1, hP (h.queued hp).2⟩, fun hq => hl (h.tracked hq)⟩

/-- Every queue of the connection. -/
def Served (P : StreamId → Prop) (c : Conn) : Prop :=
  ∀ s tcp, c.table.get? s = some (.tcp tcp) → QueueOk c.streamsWithPending P s tcp

/-- What a queue satisfies at a program counter: from Phase 0 to `select!`, its socket has been
offered bytes, or Phase 0 is still to visit it. -/
def Pc.offers (tried : List StreamId) : Pc → StreamId → Prop
  | .phase0 todo _ _, s => s ∈ todo ∨ s ∈ tried
  | .phase0Dead _, s => s ∈ tried
  | .phase1, s => s ∈ tried
  | .select, s => s ∈ tried
  | _, _ => True

/-- The invariant. -/
structure Good (c : Conn) : Prop where
  served : Served (c.pc.offers c.tried) c
  phase0 : ∀ todo kept dead, c.pc = .phase0 todo kept dead → c.streamsWithPending = kept ++ todo

/-- Every queue is tracked. -/
def Tracked (c : Conn) : Prop := Served (fun _ => True) c

namespace Conn

variable {c : Conn} {P Q : StreamId → Prop}

theorem tracked_congr {c' : Conn} (h : Tracked c) (ht : c'.table = c.table)
    (hs : c'.streamsWithPending = c.streamsWithPending) : Tracked c' := by
  intro s tcp hx
  rw [hs]
  exact h s tcp (ht ▸ hx)

/-- A program counter at which the queues need only be tracked. -/
theorem good_of_tracked (h : Tracked c) (hoffers : ∀ s, c.pc.offers c.tried s)
    (hpc : ∀ todo kept dead, c.pc ≠ .phase0 todo kept dead) : Good c :=
  ⟨fun s tcp hx => (h s tcp hx).mono id fun _ => hoffers s,
    fun todo kept dead hd => absurd hd (hpc todo kept dead)⟩

/-- From the head of Phase 0 on, the tracked streams are still to visit. -/
theorem served_phase0Head (h : Tracked c) : Served (c.phase0Head.offers c.tried) c :=
  fun s tcp hx => ⟨fun hp =>
    have hq := ((h s tcp hx).queued hp).1
    ⟨hq, .inl ((h s tcp hx).tracked hq)⟩, (h s tcp hx).tracked⟩

theorem good_flushThen (h : Tracked c) {q : Pc}
    (hq : q = c.phase0Head ∨ q = .inner ∨ q = .ended) : Good (c.flushThen q) := by
  by_cases hok : (c.pendingContinues.isEmpty || c.clientUp) = true
  · have hpc : (c.flushThen q).pc = q := if_pos hok
    rcases hq with rfl | rfl | rfl
    · refine ⟨?_, ?_⟩
      · rw [hpc]; exact served_phase0Head h
      · intro todo kept dead hd
        rw [hpc] at hd
        cases hd
        rfl
    · exact good_of_tracked (tracked_congr h rfl rfl) (by rw [hpc]; simp [Pc.offers])
        (by rw [hpc]; nofun)
    · exact good_of_tracked (tracked_congr h rfl rfl) (by rw [hpc]; simp [Pc.offers])
        (by rw [hpc]; nofun)
  · have hpc : (c.flushThen q).pc = .ended := if_neg hok
    exact good_of_tracked (tracked_congr h rfl rfl) (by rw [hpc]; simp [Pc.offers])
      (by rw [hpc]; nofun)

theorem good_finish (h : Tracked c) (site : Site) : Good (c.finish S site) := by
  cases site with
  | deferred =>
    simp only [finish]
    refine good_flushThen ?_ (.inr (.inl rfl))
    exact tracked_congr h rfl rfl
  | inner =>
    simp only [finish]
    split
    · refine good_flushThen ?_ (.inl rfl)
      exact tracked_congr h rfl rfl
    · exact good_of_tracked (tracked_congr h rfl rfl) (by simp [Pc.offers]) (by rintro _ _ _ ⟨⟩)
  | select =>
    simp only [finish]
    refine good_flushThen ?_ (.inr (.inl rfl))
    exact tracked_congr h rfl rfl

theorem good_refuse (h : Tracked c) (site : Site) (s : StreamId) (reason : CloseReason) :
    Good (c.refuse S site s reason) := by
  refine good_finish ?_ site
  exact tracked_congr h rfl rfl

theorem good_breakLoop (h : Tracked c) (site : Site) : Good (c.breakLoop site) := by
  cases site with
  | inner => exact good_flushThen h (.inr (.inr rfl))
  | deferred => exact good_of_tracked (tracked_congr h rfl rfl) (by simp [breakLoop, Pc.offers]) nofun
  | select => exact good_of_tracked (tracked_congr h rfl rfl) (by simp [breakLoop, Pc.offers]) nofun

/-! ## Inbound packets -/

theorem removeStream_frame (c : Conn) (s : StreamId) :
    (c.removeStream s).streamsWithPending = c.streamsWithPending ∧
      (c.removeStream s).tried = c.tried := by
  unfold removeStream StreamTable.remove
  cases c.table.get? s with
  | none => exact ⟨rfl, rfl⟩
  | some x => cases x <;> exact ⟨rfl, rfl⟩

/-- The entry of one id is gone. -/
theorem served_none {c' : Conn} {s : StreamId} (h : Served P c)
    (hentry : ∀ s', c'.table.get? s' = if s' = s then none else c.table.get? s')
    (hs : c'.streamsWithPending = c.streamsWithPending) : Served P c' := by
  intro s' tcp hx
  rw [hentry] at hx
  split at hx
  · cases hx
  · rw [hs]
    exact h s' tcp hx

theorem removeStream_get? (c : Conn) (s s' : StreamId) :
    (c.removeStream s).table.get? s' = if s' = s then none else c.table.get? s' :=
  congrFun (congrArg Core.entry (core_removeStream c s)) s'

theorem served_removeStream (h : Served P c) (s : StreamId) : Served P (c.removeStream s) :=
  served_none h (removeStream_get? c s) (removeStream_frame c s).1

/-- The entry of one id changes. -/
theorem served_put {c' : Conn} {s : StreamId} {x : ProxyStream Octet} (h : Served P c)
    (hentry : c'.table.get? = fun s' => if s' = s then some x else c.table.get? s')
    (hsub : c.streamsWithPending ⊆ c'.streamsWithPending)
    (hP : ∀ s, P s → Q s)
    (hx : ∀ tcp, x = .tcp tcp → QueueOk c'.streamsWithPending Q s tcp) : Served Q c' := by
  intro s' tcp hs
  rw [hentry] at hs
  simp only at hs
  split at hs
  · rename_i he
    rw [he]
    exact hx tcp (Option.some.inj hs)
  · exact (h s' tcp hs).mono (fun hm => hsub hm) (hP s')

theorem tracked_insert_false {c' : Conn} {s : StreamId} {x : ProxyStream Octet}
    {t : StreamTable Octet} (h : Tracked c) (hi : c.table.insert s x = (false, t))
    (ht : c'.table = t) (hs : c'.streamsWithPending = c.streamsWithPending) : Tracked c' := by
  intro s' tcp hx
  rw [ht, entry_insert_false hi] at hx
  rw [hs]
  exact h s' tcp hx

/-- The stream after a DATA packet is tracked. -/
theorem queueOk_counted {tcp tcp' : TcpProxyStream Octet} {l : List StreamId} {s : StreamId}
    (h : QueueOk l P s tcp) (hf : tcp'.queuedForDrain = tcp.queuedForDrain) :
    QueueOk (if needsTracking tcp' then l ++ [s] else l) (fun _ => True) s (counted S tcp').2 := by
  have hpending := (counted_frame S tcp').2.1
  have hflag : (counted S tcp').2.queuedForDrain =
      (tcp'.queuedForDrain || needsTracking tcp') := by
    unfold counted countPacket TcpProxyStream.recordPacket track
    dsimp only
    split <;> split <;> simp_all [TcpProxyStream.resetCounter]
  refine ⟨fun hp => ⟨?_, trivial⟩, fun hq => ?_⟩
  · rw [hpending] at hp
    rw [hflag, needsTracking]
    cases tcp'.queuedForDrain with
    | true => rfl
    | false => simpa using hp
  · rw [hflag] at hq
    split
    · exact List.mem_append_right _ List.mem_cons_self
    · rename_i hn
      rw [Bool.eq_false_iff.mpr hn, Bool.or_false, hf] at hq
      exact h.tracked hq

theorem good_handleData (h : Tracked c) (site : Site) (s : StreamId) (payload : List UInt8)
    (e : Env) : Good (c.handleData S site s payload e) := by
  unfold handleData handleDataZerocopy
  cases hx : c.table.get? s with
  | none => exact good_finish h site
  | some x =>
    cases x with
    | udp u => exact good_finish h site
    | connecting cs =>
      simp only
      split
      · rename_i hl
        split at hl <;> cases hl
      · rename_i c' hl
        split at hl
        · cases hl
          refine good_finish ?_ site
          exact served_put h (entry_set hx _) (List.Subset.refl _) (fun _ _ => trivial) (by simp)
        · cases hl
          refine good_finish ?_ site
          exact tracked_congr h rfl rfl
    | tcp tcp =>
      simp only
      rcases hw : tcpTryWrite tcp (c.tagged s payload) (e.write 0) (e.write 1) with ⟨dead, tcp'⟩
      cases dead with
      | true =>
        simp only [if_true]
        refine good_finish ?_ site
        refine served_none h (s := s) (fun s' => ?_) (removeStream_frame _ s).1
        refine (removeStream_get? _ s s').trans ?_
        rw [show (c.table.set s (.tcp tcp')).get? s' = _ from congrFun (entry_set hx _) s']
        split <;> rfl
      | false =>
        simp only [Bool.false_eq_true, if_false]
        refine good_finish (served_put h (entry_set hx _) ?_ (fun _ _ => trivial) ?_) site
        · dsimp only
          split
          · exact List.subset_append_left _ _
          · exact List.Subset.refl _
        · rintro _ ⟨⟩
          exact queueOk_counted (h s tcp hx) (tcpTryWrite_frame hw).2.2.1

theorem good_handleConnect (h : Tracked c) (site : Site) (s : StreamId) (connect : ConnectPayload)
    (e : Env) : Good (c.handleConnect S site s connect e) := by
  have hrefuse : ∀ reason, Good (c.refuse S site s reason) := good_refuse h site s
  have htcp : Good (c.handleTcpConnect S site s connect) := by
    unfold handleTcpConnect
    simp only
    rcases hi : c.table.insert s (.connecting (.new (c.flags.new c.accepted.length).1)) with ⟨ok, t⟩
    cases ok with
    | false =>
      refine good_refuse ?_ site s _
      exact tracked_insert_false h hi rfl rfl
    | true =>
      refine good_of_tracked ?_ (by simp [Pc.offers]) nofun
      exact served_put h (entry_insert hi).2 (List.Subset.refl _) (fun _ _ => trivial) (by simp)
  have hudp : Good (c.handleUdpConnect S site s connect e) := by
    unfold handleUdpConnect
    split
    · refine good_of_tracked ?_ (by simp [Pc.offers]) nofun
      exact tracked_congr h rfl rfl
    · exact hrefuse _
  unfold handleConnect
  split
  · exact hrefuse _
  split
  · exact hrefuse _
  split
  · exact hrefuse _
  split
  · exact hrefuse _
  split
  · exact hrefuse _
  split
  · exact htcp
  · exact hudp

theorem good_handleInbound (h : Tracked c) (site : Site) (e : Env) (r : Option WispFrameResult) :
    Good (c.handleInbound S site e r) := by
  have hwrite : ∀ f, Tracked (c.write f) := fun f => tracked_congr h rfl rfl
  unfold handleInbound
  split
  · exact good_breakLoop h site
  · split
    · exact good_handleData h site _ _ e
    · split
      · split
        · exact good_handleConnect h site _ _ e
        · exact good_refuse h site _ _
      · split
        · split
          · exact good_breakLoop (hwrite _) site
          · exact good_finish (served_removeStream h _) site
        · exact good_finish h site
  · split
    · exact good_breakLoop (hwrite _) site
    · exact good_finish (hwrite _) site
    · refine good_finish ?_ site
      exact tracked_congr h rfl rfl
    · exact good_finish h site

theorem good_processInboundFrame (h : Tracked c) (e : Env) (payload : List UInt8) :
    Good (c.processInboundFrame S e payload) := by
  unfold processInboundFrame
  split
  · exact good_finish h _
  · split
    · simp only
      split
      · exact good_handleData h _ _ _ e
      · split
        · split
          · exact good_handleConnect h _ _ _ e
          · exact good_refuse h _ _ _
        · split
          · split
            · exact good_finish h _
            · exact good_finish (served_removeStream h _) _
          · exact good_finish h _
    · exact good_finish h _

theorem good_tcpResolved (h : Tracked c) (site : Site) (s : StreamId) (connect : ConnectPayload)
    (f : CancelFlag) (res : Option Resolved) : Good (c.tcpResolved S site s connect f res) := by
  have hfail : ∀ p, Good { c with pc := .sending site p } := by
    intro p
    refine good_of_tracked ?_ (by simp [Pc.offers]) nofun
    exact tracked_congr h rfl rfl
  unfold tcpResolved
  simp only
  split
  · exact hfail _
  · split
    · exact hfail _
    · split
      · exact hfail _
      · refine good_finish ?_ site
        exact tracked_congr h rfl rfl

theorem good_udpResolved (h : Tracked c) (site : Site) (s : StreamId) (connect : ConnectPayload)
    (res : Option Resolved) : Good (c.udpResolved S site s connect res) := by
  unfold udpResolved
  split
  · exact good_refuse h site s _
  · rename_i r
    split
    · exact good_refuse h site s _
    · simp only
      rcases hi : c.table.insert s (.udp ⟨c.accepted.length, r.addr,
        (c.flags.new c.accepted.length).1⟩) with ⟨ok, t⟩
      cases ok with
      | false =>
        refine good_refuse ?_ site s _
        exact tracked_insert_false h hi rfl rfl
      | true =>
        refine good_finish ?_ site
        exact served_put h (entry_insert hi).2 (List.Subset.refl _) (fun _ _ => trivial) (by simp)

/-! ## Control events -/

/-- The stream after the flush of its early data. -/
theorem queueOk_attach {w : OwnedWriteHalf Octet} {pending early : List (List Octet)}
    {f : CancelFlag} {l tried : List StreamId} {s : StreamId}
    (hlen : pending.length ≤ early.length)
    (htried : ∀ s' ∈ (if early.isEmpty then tried else s :: tried), Q s') :
    QueueOk (if pending.isEmpty then l else l ++ [s]) Q s (.withPending w pending f) := by
  refine ⟨fun hp => ⟨?_, ?_⟩, fun hq => ?_⟩
  · simpa [TcpProxyStream.withPending] using hp
  · have hne : early.isEmpty = false := by
      cases early with
      | nil => exact absurd (List.length_eq_zero_iff.mp (Nat.le_zero.mp hlen)) hp
      | cons _ _ => rfl
    rw [hne] at htried
    exact htried s List.mem_cons_self
  · have hne : pending.isEmpty = false := by simpa [TcpProxyStream.withPending] using hq
    rw [hne]
    exact List.mem_append_right _ List.mem_cons_self

theorem served_handleTcpConnected (h : Served P c) (e : Env) (s : StreamId) (reader : Inc)
    (writer : OwnedWriteHalf Octet) (hP : ∀ s', P s' → Q s')
    (htried : ∀ s' ∈ (c.handleTcpConnected S e s reader writer).tried, Q s') :
    Served Q (c.handleTcpConnected S e s reader writer) := by
  unfold handleTcpConnected StreamTable.remove at htried ⊢
  simp only at htried ⊢
  cases hx : c.table.get? s with
  | none => exact fun s' tcp hs => (h s' tcp hs).mono id (hP s')
  | some x =>
    cases x with
    | udp u => 
      exact served_put h (entry_replace hx _) (List.Subset.refl _) hP (by simp)
    | tcp tcp =>
      refine served_put h (entry_replace hx _) (List.Subset.refl _) hP ?_
      rintro _ ⟨⟩
      exact (h s tcp hx).mono id (hP s)
    | connecting cs =>
      simp only [hx] at htried ⊢
      split
      · rename_i hd
        intro s' tcp hs
        have hs : (c.table.takeEntry s).get? s' = some (.tcp tcp) := hs
        rw [StreamTable.get?_takeEntry] at hs
        split at hs
        · cases hs
        · exact (h s' tcp hs).mono id (hP s')
      · rename_i hd
        rw [if_neg hd] at htried
        refine served_put h (entry_replace hx _) ?_ hP ?_
        · dsimp only [write, writeAll, spawn]
          split
          · exact List.Subset.refl _
          · exact List.subset_append_left _ _
        · rintro _ ⟨⟩
          exact queueOk_attach (length_flushEarly _ _ _) htried

theorem handleTcpConnected_tried (c : Conn) (e : Env) (s : StreamId) (reader : Inc)
    (writer : OwnedWriteHalf Octet) :
    c.tried ⊆ (c.handleTcpConnected S e s reader writer).tried := by
  have hmono : ∀ b : Bool, c.tried ⊆ if b then c.tried else s :: c.tried := by
    intro b
    cases b with
    | true => exact List.Subset.refl _
    | false => exact List.subset_cons_self _ _
  unfold handleTcpConnected
  split
  · dsimp only
    split <;> exact hmono _
  · exact List.Subset.refl _
  · exact List.Subset.refl _

theorem handleControlEvent_tried (c : Conn) (e : Env) (p : Posted) :
    c.tried ⊆ (c.handleControlEvent S e p).tried := by
  have hend : ∀ s reason f, c.tried ⊆ (c.handleEnd s reason f).tried := by
    intro s reason f
    rw [show (c.handleEnd s reason f).tried = c.tried from (removeStream_frame c s).2]
    exact List.Subset.refl _
  unfold handleControlEvent
  split
  · exact hend _ _ _
  · exact handleTcpConnected_tried c e _ _ _
  · exact hend _ _ _

theorem served_handleControlEvent (h : Served P c) (e : Env) (p : Posted)
    (hP : ∀ s, P s → Q s) (htried : ∀ s ∈ (c.handleControlEvent S e p).tried, Q s) :
    Served Q (c.handleControlEvent S e p) := by
  have hend : ∀ s reason f, Served Q (c.handleEnd s reason f) := by
    intro s reason f s' tcp hx
    exact (served_removeStream h s s' tcp hx).mono id (hP s')
  unfold handleControlEvent at htried ⊢
  split
  · exact hend _ _ _
  · rename_i hev
    rw [hev] at htried
    exact served_handleTcpConnected h e _ _ _ hP htried
  · exact hend _ _ _

theorem tracked_handleControlEvent (h : Tracked c) (e : Env) (p : Posted) :
    Tracked (c.handleControlEvent S e p) :=
  served_handleControlEvent h e p (fun _ _ => trivial) (fun _ _ => trivial)

/-! ## Phase 0 -/

/-- The entries after Phase 0 has visited `s`: others are as before, and a queue that is still there
is kept and was offered to its socket. -/
theorem drainOne_entry (c : Conn) (s : StreamId) (r : WriteResult) {s' : StreamId}
    {tcp : TcpProxyStream Octet} (hx : (c.drainOne s r).2.2.table.get? s' = some (.tcp tcp)) :
    (s' ≠ s ∧ c.table.get? s' = some (.tcp tcp)) ∨
    (s' = s ∧ tcp.pending = [] ∧ tcp.queuedForDrain = false) ∨
    (s' = s ∧ (c.drainOne s r).1 = true ∧ s ∈ (c.drainOne s r).2.2.tried ∧
      ∃ old, c.table.get? s = some (.tcp old) ∧ old.pending ≠ [] ∧
        tcp.queuedForDrain = old.queuedForDrain) := by
  -- The id has no TCP stream, so the entry is another one's.
  have hother : ∀ {y}, c.table.get? s = y → (∀ old, y ≠ some (.tcp old)) →
      c.table.get? s' = some (.tcp tcp) → s' ≠ s := by
    rintro y hy hn ht rfl
    exact hn tcp (hy.symm.trans ht)
  unfold drainOne at hx ⊢
  cases hs : c.table.get? s with
  | none =>
    simp only [hs] at hx
    exact .inl ⟨hother hs nofun hx, hx⟩
  | some y =>
    cases y with
    | udp u =>
      simp only [hs] at hx
      exact .inl ⟨hother hs nofun hx, hx⟩
    | connecting cs =>
      simp only [hs] at hx
      exact .inl ⟨hother hs nofun hx, hx⟩
    | tcp old =>
      simp only [hs] at hx ⊢
      by_cases hp : old.pending.isEmpty = true
      · simp only [hp, if_true, StreamTable.get?_set hs] at hx
        split at hx
        · rename_i he
          cases hx
          exact .inr (.inl ⟨he, List.isEmpty_iff.mp hp, rfl⟩)
        · rename_i hne; exact .inl ⟨hne, hx⟩
      · simp only [hp, if_false, Bool.false_eq_true, StreamTable.get?_set hs] at hx ⊢
        split at hx
        · rename_i he
          refine .inr ?_
          cases hx
          split
          · rename_i hkeep
            refine .inr ⟨he, hkeep, List.mem_cons_self, old, rfl, by simpa using hp, ?_⟩
            exact (drainPending_frame old r).2.2.1
          · rename_i hkeep
            refine .inl ⟨he, ?_, rfl⟩
            cases hd : (drainPending old r).1 with
            | true => exact (drainPending_dead hd).2
            | false => simpa [hd] using hkeep
        · rename_i hne; exact .inl ⟨hne, hx⟩

theorem drainOne_tried (c : Conn) (s : StreamId) (r : WriteResult) :
    c.tried ⊆ (c.drainOne s r).2.2.tried := by
  unfold drainOne
  split
  · split
    · exact List.Subset.refl _
    · exact List.subset_cons_self _ _
  · exact List.Subset.refl _

theorem good_drainOne (h : Good c) {s : StreamId} {todo kept dead : List StreamId}
    (hpc : c.pc = .phase0 (s :: todo) kept dead) (r : WriteResult) (dead' : List StreamId) :
    Good { (c.drainOne s r).2.2 with
      streamsWithPending := (if (c.drainOne s r).1 then kept ++ [s] else kept) ++ todo
      pc := .phase0 todo (if (c.drainOne s r).1 then kept ++ [s] else kept) dead' } := by
  have hswp := h.phase0 _ _ _ hpc
  have hserved := h.served
  rw [hpc] at hserved
  refine ⟨?_, by rintro _ _ _ ⟨⟩; rfl⟩
  intro s' tcp hx
  rcases drainOne_entry c s r hx with ⟨hne, hx⟩ | ⟨rfl, hp, hq⟩ | ⟨rfl, hkeep, htried, old, hold, hp, hq⟩
  · refine (hserved s' tcp hx).mono (fun hm => ?_) (fun ho => ?_)
    · rw [hswp] at hm
      rcases List.mem_append.mp hm with hm | hm
      · refine List.mem_append_left _ ?_
        split
        · exact List.mem_append_left _ hm
        · exact hm
      · rcases List.mem_cons.mp hm with rfl | hm
        · exact absurd rfl hne
        · exact List.mem_append_right _ hm
    · rcases ho with ho | ho
      · rcases List.mem_cons.mp ho with rfl | ho
        · exact absurd rfl hne
        · exact .inl ho
      · exact .inr (drainOne_tried c s r ho)
  · exact ⟨fun hn => absurd hp hn, fun ht => by rw [hq] at ht; cases ht⟩
  · refine ⟨fun _ => ⟨?_, .inr htried⟩, fun _ => ?_⟩
    · rw [hq]; exact ((hserved s' old hold).queued hp).1
    · simp [hkeep]

/-! ## Steps -/

theorem tracked_of_good (h : Good c) : Tracked c :=
  fun s tcp hx => (h.served s tcp hx).mono id fun _ => trivial

/-- The program counter moves on to one with the same demand on the queues. -/
theorem good_setPc {c' : Conn} (h : Good c) (ht : c'.table = c.table)
    (hs : c'.streamsWithPending = c.streamsWithPending) (htried : c'.tried = c.tried)
    (hoffers : ∀ s, c.pc.offers c.tried s → c'.pc.offers c.tried s)
    (hpc : ∀ todo kept dead, c'.pc ≠ .phase0 todo kept dead) : Good c' := by
  refine ⟨?_, fun todo kept dead hd => absurd hd (hpc todo kept dead)⟩
  intro s tcp hx
  rw [hs, htried]
  exact (h.served s tcp (ht ▸ hx)).mono id (hoffers s)

/-- Phase 2. -/
theorem good_writeBatch (h : Served (· ∈ c.tried) c) : Good (c.writeBatch .select) := by
  by_cases hok : (c.data.items.isEmpty || c.clientUp) = true
  · have hpc : (c.writeBatch .select).pc = .select := if_pos hok
    exact ⟨by rw [hpc]; exact h, by rw [hpc]; nofun⟩
  · have hpc : (c.writeBatch .select).pc = .ended := if_neg hok
    refine good_of_tracked ?_ (by rw [hpc]; simp [Pc.offers]) (by rw [hpc]; nofun)
    exact fun s tcp hx => (h s tcp hx).mono id fun _ => trivial

/-- The batch of `select!`. -/
theorem good_writeBatch_inner (h : Tracked c) : Good (c.writeBatch .inner) := by
  refine good_of_tracked ?_ ?_ ?_
  · exact tracked_congr h rfl rfl
  · intro s
    simp only [writeBatch]
    split <;> trivial
  · intro todo kept dead
    simp only [writeBatch]
    split <;> rintro ⟨⟩

/-- A frame that was taken off the buffer. -/
theorem good_inbound {c' : Conn} (h : Tracked c) (ht : c'.table = c.table)
    (hs : c'.streamsWithPending = c.streamsWithPending) (site : Site) (e : Env)
    (r : Option WispFrameResult) : Good ((c'.resetIdle S).handleInbound S site e r) := by
  refine good_handleInbound ?_ site e r
  unfold resetIdle
  split
  · exact tracked_congr h ht hs
  · exact tracked_congr h ht hs

theorem good_stepTimers {c' : Conn} (h : Tracked c) (hs : c.stepTimers S = some c') : Good c' := by
  have hpc : ∀ {q : Pc}, q = .ended ∨ q = .inner → Good { c with pc := q } := by
    rintro q (rfl | rfl)
    · exact good_of_tracked (tracked_congr h rfl rfl) (by simp [Pc.offers]) nofun
    · exact good_of_tracked (tracked_congr h rfl rfl) (by simp [Pc.offers]) nofun
  unfold stepTimers at hs
  split at hs
  · cases hs
  split at hs
  · cases hs; exact hpc (.inl rfl)
  split at hs
  · split at hs
    · split at hs
      · cases hs; exact hpc (.inl rfl)
      · cases hs
        exact good_of_tracked (tracked_congr h rfl rfl) (by simp [Pc.offers]) nofun
    · cases hs; exact hpc (.inr rfl)
  · cases hs

theorem good_stepSelect {c' : Conn} (h : Tracked c) {e : Env} (hs : c.stepSelect S e = some c') :
    Good c' := by
  have hclear : Tracked { c with tried := [] } := tracked_congr h rfl rfl
  unfold stepSelect at hs
  split at hs
  · cases hs
    refine good_inbound h ?_ ?_ _ _ _ <;> rfl
  · cases hs
    refine good_inbound h ?_ ?_ _ _ _ <;> rfl
  · split at hs
    · cases hs
      exact good_writeBatch_inner hclear
    · split at hs
      · cases hs
        refine good_of_tracked ?_ (by simp [Pc.offers]) nofun
        rename_i p control _
        have := tracked_handleControlEvent (S := S) (c := { c with control, tried := [] })
          (tracked_congr h rfl rfl) e p
        exact tracked_congr this rfl rfl
      · exact good_stepTimers hclear hs

/-- An event outside `select!`. -/
theorem good_event {q : Pc} (hq : q = .phase1 ∨ q = .controlRest)
    (h : Served (q.offers c.tried) c) (e : Env) (p : Posted) (control : Chan 256 Posted) :
    Good { { c with control }.handleControlEvent S e p with pc := q } := by
  let c₁ : Conn := { c with control }
  have hmono := handleControlEvent_tried (S := S) c₁ e p
  rcases hq with rfl | rfl
  · refine ⟨?_, nofun⟩
    exact served_handleControlEvent (c := c₁) h e p (fun s hs => hmono hs) (fun s hs => hs)
  · refine ⟨?_, nofun⟩
    exact served_handleControlEvent (c := c₁) h e p (fun _ _ => trivial) (fun _ _ => trivial)

theorem good_stepMain {c' : Conn} (h : Good c) {e : Env} (hs : c.stepMain S e = some c') :
    Good c' := by
  have ht := tracked_of_good h
  unfold stepMain at hs
  split at hs
  case h_1 => cases hs; exact good_finish ht _
  case h_2 => cases hs; exact good_processInboundFrame ht e _
  case h_3 hpc =>
    split at hs
    · cases hs
      refine good_inbound ht ?_ ?_ _ _ _ <;> rfl
    · cases hs
      exact good_flushThen ht (.inl rfl)
  case h_4 hpc =>
    split at hs
    · cases hs; exact good_tcpResolved ht _ _ _ _ _
    · split at hs
      · cases hs; exact good_tcpResolved ht _ _ _ _ _
      · cases hs
        refine good_tcpResolved ?_ _ _ _ _ _
        exact tracked_congr ht rfl rfl
  case h_5 hpc =>
    split at hs
    · cases hs; exact good_udpResolved ht _ _ _ _
    · split at hs
      · cases hs; exact good_udpResolved ht _ _ _ _
      · cases hs
        refine good_udpResolved ?_ _ _ _ _
        exact tracked_congr ht rfl rfl
  case h_6 hpc =>
    split at hs
    · cases hs
      refine good_finish ?_ _
      exact tracked_congr ht rfl rfl
    · cases hs
  case h_7 dead hpc =>
    cases hs
    refine good_setPc h rfl rfl rfl ?_ nofun
    intro s ho
    rw [hpc] at ho
    exact ho.resolve_left (List.not_mem_nil)
  case h_8 s todo kept dead hpc =>
    cases hs
    exact good_drainOne h hpc _ _
  case h_9 hpc =>
    cases hs
    refine good_setPc h rfl rfl rfl ?_ nofun
    intro s ho
    rw [hpc] at ho
    exact ho
  case h_10 s dead hpc =>
    cases hs
    have hserved := h.served
    rw [hpc] at hserved
    refine ⟨?_, nofun⟩
    have := served_removeStream hserved s
    rw [← (removeStream_frame c s).2] at this
    exact this
  case h_11 hpc =>
    have hserved := h.served
    rw [hpc] at hserved
    split at hs
    · cases hs
      exact good_event (.inl rfl) hserved e _ _
    · cases hs
      exact good_writeBatch hserved
  case h_12 => exact good_stepSelect ht hs
  case h_13 hpc =>
    have hserved := h.served
    rw [hpc] at hserved
    split at hs
    · cases hs
      exact good_event (.inr rfl) hserved e _ _
    · cases hs
      exact good_of_tracked (tracked_congr ht rfl rfl) (by simp [Pc.offers]) nofun
  case h_14 => cases hs

/-- A spawned task changes none of what the invariant is about. -/
theorem stepTask_frame {c' : Conn} {i : Nat} {x : TaskInput} (hs : c.stepTask i x = some c') :
    c'.table = c.table ∧ c'.streamsWithPending = c.streamsWithPending ∧ c'.tried = c.tried ∧
      c'.pc = c.pc := by
  obtain ⟨tasks, control, data, reads, dialed, rfl⟩ := stepTask_changes hs
  exact ⟨rfl, rfl, rfl, rfl⟩

end Conn

theorem good_step {c c' : Conn} {a : Act} (h : Good c) (hs : step S c a = some c') : Good c' := by
  cases a with
  | main e => exact Conn.good_stepMain h hs
  | task i x =>
    obtain ⟨ht, hswp, htried, hpc⟩ := Conn.stepTask_frame hs
    refine ⟨?_, ?_⟩
    · intro s tcp hx
      rw [hswp, htried, hpc]
      exact h.served s tcp (ht ▸ hx)
    · rw [hswp, hpc]
      exact h.phase0
  | client i => cases hs; exact ⟨h.served, h.phase0⟩
  | clientReads =>
    simp only [step] at hs
    split at hs
    · cases hs; exact ⟨h.served, h.phase0⟩
    · cases hs
  | clientDown => cases hs; exact ⟨h.served, h.phase0⟩
  | otherResolve hostname port answer =>
    simp only [step] at hs
    split at hs
    · cases hs
    · split at hs
      · cases hs
      · cases hs; exact ⟨h.served, h.phase0⟩
  | tick d => cases hs; exact ⟨h.served, h.phase0⟩
  | writable sock => cases hs; exact ⟨h.served, h.phase0⟩

theorem Reach.good {ok : Conn → Act → Conn → Prop} {c : Conn} (h : (sys S).Reach ok c) : Good c := by
  refine h.invariant (I := Good) ?_ (fun c a c' _ hg hs _ => good_step hg hs)
  rintro _ ⟨deferredFrame, rfl⟩
  refine ⟨?_, nofun⟩
  intro s tcp hx
  rw [show (Conn.start S deferredFrame).table.get? s = none from StreamTable.get?_new _ s] at hx
  cases hx

/-! ## The parked main task -/

/-- What takes the main task out of `select!`. -/
def Conn.awake (S : Setup) (c : Conn) : Prop :=
  c.wsBuf ≠ [] ∨ c.wire ≠ [] ∨ c.data.items ≠ [] ∨ c.control.items ≠ [] ∨
    S.full = true ∧ (c.idleAt ≤ c.now ∨ c.pingAt ≤ c.now)

theorem stepTimers_isSome (c : Conn) :
    (c.stepTimers S).isSome = true ↔ S.full = true ∧ (c.idleAt ≤ c.now ∨ c.pingAt ≤ c.now) := by
  unfold Conn.stepTimers
  by_cases hf : S.full = true
  · by_cases hi : c.idleAt ≤ c.now
    · simp [hf, hi]
    · by_cases hp : c.pingAt ≤ c.now
      · simp only [hf, hi, hp, Bool.not_true, Bool.false_eq_true, if_false, if_true, false_or,
          and_self, iff_true]
        split
        · split <;> rfl
        · rfl
      · simp [hf, hi, hp]
  · simp [hf]

/-- At `select!`, the main task goes on exactly if it is awake. -/
theorem select_awake {c : Conn} (hpc : c.pc = .select) (e : Env) :
    (step S c (.main e)).isSome = true ↔ c.awake S := by
  simp only [step, Conn.stepMain, hpc, Conn.stepSelect, Conn.awake]
  cases hb : c.wsBuf with
  | cons i rest => simp
  | nil =>
    cases hw : c.wire with
    | cons i rest => simp
    | nil =>
      by_cases hd : c.data.items = []
      · cases hr : c.control.tryRecv with
        | some r =>
          have := Chan.tryRecv_some (x := r.1) (d := r.2) hr
          simp [hd, this]
        | none =>
          have := Chan.tryRecv_none.mp hr
          simp only [hd, this, ne_eq, not_true_eq_false, if_false, false_or]
          exact stepTimers_isSome _
      · simp [hd]

/-- In every reachable state in which the main task is parked in `select!`, it goes on exactly for an
inbound frame, backend DATA, a control event or a timer; and every queue is tracked for the next
Phase 0, and its socket was offered bytes since the task last went on. -/
theorem parked_uploads {c : Conn} (h : (sys S).Reach Sys.Any c) (hpc : c.pc = .select) :
    ((∃ e c', step S c (.main e) = some c') ↔ c.awake S) ∧
    ∀ s tcp, c.table.get? s = some (.tcp tcp) → tcp.pending ≠ [] →
      s ∈ c.streamsWithPending ∧ s ∈ c.tried := by
  refine ⟨⟨?_, ?_⟩, ?_⟩
  · rintro ⟨e, c', hs⟩
    exact (select_awake hpc e).mp (by rw [hs]; rfl)
  · intro ha
    obtain ⟨c', hs⟩ := Option.isSome_iff_exists.mp ((select_awake hpc {}).mpr ha)
    exact ⟨{}, c', hs⟩
  · intro s tcp hx hp
    have hok := (Reach.good h).served s tcp hx
    rw [hpc] at hok
    obtain ⟨hq, ho⟩ := hok.queued hp
    exact ⟨hok.tracked hq, ho⟩

/-- A byte for a connected stream, and a socket that takes nothing; then it becomes writable. -/
def blockedOne : List Act :=
  attachOne ++ [dataOne 7, .main {}, .main {}] ++ toSelect ++ [.writable 0]

theorem parked_uploads_blocked :
    ∃ c tcp, (sys { config := {} }).Reach Sys.Any c ∧ c.table.get? 1 = some (.tcp tcp) ∧
      tcp.pending ≠ [] ∧ 1 ∈ c.streamsWithPending ∧ 1 ∈ c.tried := by
  obtain ⟨c, tcp, hr, hx, hp⟩ := Reach.exists_tcp { config := {} } Sys.Any blockedOne 1
    (fun c tcp => decide (c.pc = .select ∧ tcp.pending ≠ [])) (by decide +kernel)
  obtain ⟨hpc, hne⟩ := of_decide_eq_true hp
  exact ⟨c, tcp, hr, hx, hne, (parked_uploads hr hpc).2 1 tcp hx hne⟩

/-- The main task is parked, a byte of stream 1 is queued, its socket is writable, and no step of the
main task is enabled. -/
theorem upload_stalls :
    ∃ c tcp, (sys { config := {} }).Reach Sys.Any c ∧ c.pc = .select ∧
      c.table.get? 1 = some (.tcp tcp) ∧ tcp.pending ≠ [] ∧ tcp.writer.sock ∈ c.writable ∧
      c.wsBuf = [] ∧ c.wire = [] ∧ c.data.items = [] ∧ c.control.items = [] ∧
      ∀ e, step { config := {} } c (.main e) = none := by
  obtain ⟨c, tcp, hr, hx, hp⟩ := Reach.exists_tcp { config := {} } Sys.Any blockedOne 1
    (fun c tcp => decide (c.pc = .select ∧ tcp.pending ≠ [] ∧ tcp.writer.sock ∈ c.writable ∧
      c.wsBuf = [] ∧ c.wire = [] ∧ c.data.items = [] ∧ c.control.items = [])) (by decide +kernel)
  obtain ⟨hpc, hne, hsock, hbuf, hwire, hdata, hctl⟩ := of_decide_eq_true hp
  refine ⟨c, tcp, hr, hpc, hx, hne, hsock, hbuf, hwire, hdata, hctl, fun e => ?_⟩
  refine Option.not_isSome_iff_eq_none.mp fun hs => ?_
  rcases (select_awake hpc e).mp hs with h | h | h | h | ⟨h, -⟩
  · exact h hbuf
  · exact h hwire
  · exact h hdata
  · exact h hctl
  · cases h

end ShrimpWisp
