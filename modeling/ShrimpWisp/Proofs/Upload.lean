import ShrimpWisp.Proofs.Incarnation

/-!
# Uploads: what is kept, and how much

A DATA packet for a stream that still connects waits in `early_data`, one for a connected stream is
written or queued in `pending`.

* **Accounting** (`upload_kept`): while a stream is in the table, its early packets up to the cap of
  128, and every later packet, are written to its socket or wait for it, in order. The cap and the
  removal of a stream discard the rest (`upload_discarded`).
* **Queue length** (`pending_bounded`): a CONTINUE grants a full buffer whatever is queued. The queue
  is shorter than the queue at the latest CONTINUE and one buffer together, but can be longer than
  one buffer (`pending_exceeds_buffer`).
-/

namespace ShrimpWisp

variable {S : Setup} {c d : Core}

/-! ## Accounting -/

/-- The payloads handled for an accepted CONNECT, before its connection was there or after. -/
def payloads (l : List Received) (k : Inc) (early : Bool) : List (List Octet) :=
  (l.filter fun r => r.inc == k && r.early == early).map (·.data)

/-- The bytes that are kept for an accepted CONNECT: the early packets up to the cap, and all the
later ones. -/
def account (l : List Received) (k : Inc) : List Octet :=
  ((payloads l k true).take 128).flatten ++ (payloads l k false).flatten

theorem payloads_append (l : List Received) (r : Received) (k : Inc) (early : Bool) :
    payloads (l ++ [r]) k early =
      payloads l k early ++ if r.inc = k ∧ r.early = early then [r.data] else [] := by
  unfold payloads
  rw [List.filter_append, List.map_append]
  congr 1
  by_cases h : r.inc = k ∧ r.early = early
  · simp [h]
  · rw [if_neg h]
    have : (r.inc == k && r.early == early) = false := by simpa using fun h₁ h₂ => h ⟨h₁, h₂⟩
    simp [this]

theorem payloads_append_ne {l : List Received} {r : Received} {k : Inc} (h : r.inc ≠ k)
    (early : Bool) : payloads (l ++ [r]) k early = payloads l k early := by
  rw [payloads_append, if_neg (fun h' => h h'.1), List.append_nil]

/-- Every packet of the stream is kept. A socket with a fatal error is out of the account. -/
def Kept (received : List Received) (broken : List Inc) : ProxyStream Octet → Prop
  | .tcp tcp => tcp.cancel.owner ∉ broken →
      tcp.writer.sent ++ tcp.pending.flatten = account received tcp.cancel.owner
  | .udp _ => True
  | .connecting cs => cs.earlyData = (payloads received cs.cancel.owner true).take 128 ∧
      payloads received cs.cancel.owner false = []

theorem Kept.mono {l : List Received} {broken broken' : List Inc} {x : ProxyStream Octet}
    (h : Kept l broken x) (hb : broken ⊆ broken') : Kept l broken' x := by
  cases x with
  | tcp tcp => exact fun hn => h (fun hm => hn (hb hm))
  | udp _ => trivial
  | connecting _ => exact h

/-- A packet of another stream. -/
theorem Kept.append {l : List Received} {broken : List Inc} {x : ProxyStream Octet} {r : Received}
    (h : Kept l broken x) (hr : r.inc ≠ x.cancel.owner) : Kept (l ++ [r]) broken x := by
  have hp := fun early => payloads_append_ne (l := l) hr early
  cases x with
  | tcp tcp =>
    intro hn
    rw [h hn, account, account]
    rw [ProxyStream.cancel] at hp
    rw [hp, hp]
  | udp _ => trivial
  | connecting cs => exact ⟨by rw [h.1]; exact congrArg _ (hp true).symm, (hp false).trans h.2⟩

/-- Every entry is kept, and packets are handled for accepted CONNECTs only. -/
structure Accounted (c : Core) : Prop where
  known : ∀ r ∈ c.received, r.inc < c.accepted.length
  entries : ∀ s x, c.entry s = some x → Kept c.received c.broken x

theorem Accounted.known_step (h : Accounted c) (hb : Base c) (he : Effect S c d) :
    ∀ r ∈ d.received, r.inc < d.accepted.length := by
  have happend : ∀ {s x r}, c.entry s = some x → r.inc = x.cancel.owner →
      ∀ r' ∈ c.received ++ [r], r'.inc < c.accepted.length := by
    intro s x r hx hr r' hr'
    rcases List.mem_append.mp hr' with hr' | hr'
    · exact h.known r' hr'
    · rw [List.mem_singleton] at hr'
      subst hr'
      obtain ⟨a, ha, -, hinc⟩ := hb.accepted_of_entry hx
      rw [hr, ← hinc]
      exact hb.numbered a ha
  have haccept : ∀ r ∈ c.received, r.inc < c.accepted.length + 1 :=
    fun r hr => Nat.lt_succ_of_lt (h.known r hr)
  cases he with
  | early _ hx _ _ => exact happend hx rfl
  | earlyFull _ hx _ _ => exact happend hx rfl
  | upload _ hx _ _ => exact happend hx rfl
  | uploadDead _ hx _ _ => exact happend hx rfl
  | acceptTcp _ _ _ => exact haccept
  | acceptUdp _ _ _ _ => exact haccept
  | _ => exact h.known

theorem payloads_of_known {l : List Received} {k : Inc} (h : ∀ r ∈ l, r.inc < k) (early : Bool) :
    payloads l k early = [] := by
  unfold payloads
  rw [List.map_eq_nil_iff, List.filter_eq_nil_iff]
  intro r hr hk
  have := h r hr
  simp only [Bool.and_eq_true, beq_iff_eq] at hk
  exact absurd hk.1 (Nat.ne_of_lt this)

theorem kept_early {l : List Received} {broken : List Inc} {cs : ConnectingStream Octet}
    (h : Kept l broken (.connecting cs)) (hlen : cs.earlyData.length < 128) (data : List Octet) :
    Kept (l ++ [⟨cs.cancel.owner, true, data⟩]) broken (.connecting (cs.queueEarlyData data)) := by
  obtain ⟨hearly, hlate⟩ := h
  rw [hearly, List.length_take] at hlen
  refine ⟨?_, ?_⟩
  · simp only [ConnectingStream.queueEarlyData, payloads_append, and_self, if_true, hearly]
    rw [List.take_of_length_le (by omega), List.take_of_length_le (by simp; omega)]
  · simp only [ConnectingStream.queueEarlyData, payloads_append, hlate]
    simp

theorem kept_earlyFull {l : List Received} {broken : List Inc} {cs : ConnectingStream Octet}
    (h : Kept l broken (.connecting cs)) (hlen : 128 ≤ cs.earlyData.length) (data : List Octet) :
    Kept (l ++ [⟨cs.cancel.owner, true, data⟩]) broken (.connecting cs) := by
  obtain ⟨hearly, hlate⟩ := h
  rw [hearly, List.length_take] at hlen
  refine ⟨?_, ?_⟩
  · simp only [payloads_append, and_self, if_true]
    rw [List.take_append_of_le_length (by omega), hearly]
  · simp only [payloads_append, hlate]
    simp

theorem kept_upload {l : List Received} {broken : List Inc} {tcp tcp' : TcpProxyStream Octet}
    (h : Kept l broken (.tcp tcp)) {data : List Octet} {r₁ r₂ : WriteResult}
    (hw : tcpTryWrite tcp data r₁ r₂ = (false, tcp')) :
    Kept (l ++ [⟨tcp.cancel.owner, false, data⟩]) broken (.tcp (counted S tcp').2) := by
  obtain ⟨hwriter, hpending, hcancel⟩ := counted_frame S tcp'
  have hc := (tcpTryWrite_frame hw).2.2.2
  intro hn
  rw [hcancel, hc] at hn
  rw [hwriter, hpending, tcpTryWrite_fifo hw, h hn, hcancel, hc, account, account, payloads_append,
    payloads_append]
  simp

theorem kept_drain {l : List Received} {broken : List Inc} {tcp : TcpProxyStream Octet}
    (h : Kept l broken (.tcp tcp)) (r : WriteResult) (q : Bool) :
    Kept l (if (drainPending tcp r).1 then (drainPending tcp r).2.cancel.owner :: broken else broken)
      (.tcp { (drainPending tcp r).2 with queuedForDrain := q }) := by
  have hcancel := (drainPending_frame tcp r).2.2.2
  cases hd : (drainPending tcp r).1 with
  | true => exact fun hn => absurd List.mem_cons_self hn
  | false =>
    intro hn
    have := h (by rw [← hcancel]; exact hn)
    simp only [hcancel]
    rw [← this]
    exact drainPending_fifo hd

/-- The early data is flushed to a fresh socket. -/
theorem kept_attach {l : List Received} {broken : List Inc} {cs : ConnectingStream Octet}
    (h : Kept l broken (.connecting cs)) {w : OwnedWriteHalf Octet} (hw : w.sent = [])
    {rs : List WriteResult} (hd : (flushEarly w cs.earlyData rs).dead = false) {f : CancelFlag}
    (hf : f.owner = cs.cancel.owner) :
    Kept l broken (.tcp (.withPending (flushEarly w cs.earlyData rs).writer
      (flushEarly w cs.earlyData rs).pending f)) := by
  obtain ⟨hearly, hlate⟩ := h
  intro _
  simp only [TcpProxyStream.withPending, hf, account, hlate, flushEarly_fifo hd, hw, ← hearly]
  simp

theorem Accounted.entries_step (h : Accounted c) (hb : Base c) (he : Effect S c d) :
    ∀ s x, d.entry s = some x → Kept d.received d.broken x := by
  -- A packet for the entry `y` of `s`, which becomes `z`.
  have hput : ∀ {s y z r broken}, c.entry s = some y → r.inc = y.cancel.owner →
      c.broken ⊆ broken → (∀ x, z = some x → Kept (c.received ++ [r]) broken x) →
      ∀ s' x, (c.put s z).entry s' = some x → Kept (c.received ++ [r]) broken x := by
    intro s y z r broken hy hr hsub hkept s' x hx
    simp only [Core.put] at hx
    split at hx
    · exact hkept x hx
    · rename_i hne
      refine ((h.entries s' x hx).mono hsub).append fun heq => hne ?_
      exact hb.entry_inj hx hy (by rw [← heq, hr])
  -- A change of the entry of `s` without a packet.
  have hset : ∀ {s z broken}, c.broken ⊆ broken → (∀ x, z = some x → Kept c.received broken x) →
      ∀ s' x, (c.put s z).entry s' = some x → Kept c.received broken x := by
    intro s z broken hsub hkept s' x hx
    simp only [Core.put] at hx
    split at hx
    · exact hkept x hx
    · exact (h.entries s' x hx).mono hsub
  have hrefl : c.broken ⊆ c.broken := List.Subset.refl _
  have hnone : ∀ {s broken}, c.broken ⊆ broken →
      ∀ s' x, (c.put s none).entry s' = some x → Kept c.received broken x :=
    fun hsub => hset hsub (by simp)
  cases he with
  | early _ hx hlen _ =>
    exact hput hx rfl hrefl (by
      rintro _ ⟨⟩
      exact kept_early (h.entries _ _ hx) hlen _)
  | @earlyFull s cs data _ hx hlen _ =>
    intro s' x hx'
    refine hput hx rfl hrefl (z := some (.connecting cs)) ?_ s' x ?_
    · rintro _ ⟨⟩
      exact kept_earlyFull (h.entries _ _ hx) hlen _
    · simp only [Core.put]
      split
      · rename_i hs; rw [← hx, ← hs]; exact hx'
      · exact hx'
  | upload _ hx hw _ =>
    exact hput hx rfl hrefl (by
      rintro _ ⟨⟩
      exact kept_upload (h.entries _ _ hx) hw)
  | uploadDead _ hx hw _ => exact hput hx rfl (List.subset_cons_self _ _) (by simp)
  | untrack _ hx =>
    have hkept := h.entries _ _ hx
    refine hset hrefl ?_
    rintro _ ⟨⟩
    exact hkept
  | drain _ hx =>
    refine hset ?_ (by
      rintro _ ⟨⟩
      exact kept_drain (h.entries _ _ hx) _ _)
    split
    · exact List.subset_cons_self _ _
    · exact hrefl
  | remove _ => exact hnone hrefl
  | ended _ _ _ => exact hnone hrefl
  | acceptTcp _ _ _ =>
    refine hset hrefl ?_
    rintro _ ⟨⟩
    have := payloads_of_known h.known
    exact ⟨by simp [ConnectingStream.new, Flags.new, this], this false⟩
  | acceptUdp _ _ _ _ =>
    refine hset hrefl ?_
    rintro _ ⟨⟩
    trivial
  | attach _ hc hp hx hd =>
    refine hset hrefl ?_
    rintro _ ⟨⟩
    have hg := hb.posted _ (by rw [hc]; exact List.mem_cons_self) _ _ _ _ hp
    exact kept_attach (h.entries _ _ hx) (by rw [hg.2.2]) hd rfl
  | attachDead _ _ _ _ _ => exact hnone (List.subset_cons_self _ _)
  | _ => exact h.entries

theorem Accounted.step (h : Accounted c) (hb : Base c) (he : Effect S c d) : Accounted d :=
  ⟨h.known_step hb he, h.entries_step hb he⟩

theorem Reach.accounted {ok : Conn → Act → Conn → Prop} {c : Conn} (h : (sys S).Reach ok c) :
    Accounted c.core := by
  have hstart : Accounted (Core.start S) :=
    ⟨nofun, fun s x hx => by rw [Core.start_entry] at hx; cases hx⟩
  refine Reach.core (R := fun _ _ => True) (fun _ _ _ _ => trivial) hstart ?_ h
  intro c d fs hr hi he _ _
  have := hi.step (Reach.base hr) he
  exact ⟨this.known, this.entries⟩

/-- In every reachable state, a stream in the table belongs to the latest accepted CONNECT of its id,
and no packet that was handled for it is lost: a connecting stream holds its early packets up to the
cap of 128, and a connected one has written or queued these and every later packet, in order, unless
its socket had a fatal error. -/
theorem upload_kept {c : Conn} (h : (sys S).Reach Sys.Any c) (s : StreamId) :
    (∀ cs, c.table.get? s = some (.connecting cs) → c.current s = some cs.cancel.owner ∧
      cs.earlyData = (payloads c.received cs.cancel.owner true).take 128) ∧
    ∀ tcp, c.table.get? s = some (.tcp tcp) → c.current s = some tcp.cancel.owner ∧
      (tcp.cancel.owner ∉ c.broken →
        tcp.writer.sent ++ tcp.pending.flatten = account c.received tcp.cancel.owner) := by
  have ha := Reach.accounted h
  have hb := Reach.base h
  refine ⟨?_, ?_⟩
  · intro cs hx
    exact ⟨hb.owner s _ hx, (ha.entries s _ hx).1⟩
  · intro tcp hx
    exact ⟨hb.owner s _ hx, ha.entries s _ hx⟩

/-- The byte of `uploadOne` is written. -/
theorem upload_kept_one :
    ∃ c tcp, (sys { config := {} }).Reach Sys.Any c ∧ c.table.get? 1 = some (.tcp tcp) ∧
      account c.received tcp.cancel.owner = [⟨7, some 0⟩] ∧
      tcp.writer.sent ++ tcp.pending.flatten = account c.received tcp.cancel.owner := by
  obtain ⟨c, tcp, hr, hx, hp⟩ := Reach.exists_tcp { config := {} } Sys.Any uploadOne 1
    (fun c tcp => decide (tcp.cancel.owner ∉ c.broken ∧
      account c.received tcp.cancel.owner = [⟨7, some 0⟩])) (by decide +kernel)
  obtain ⟨hn, ha⟩ := of_decide_eq_true hp
  exact ⟨c, tcp, hr, hx, ha, ((upload_kept hr 1).2 tcp hx).2 hn⟩

/-! ## Credits -/

/-- A DATA packet is sent with a credit for its stream. -/
def Conn.hasCredit (c : Conn) : Act → Bool
  | .client (.frame f) =>
    match WispFrameResult.ofFrame f with
    | .wisp t s _ => t != packetData || decide (0 < c.credit s)
    | .control _ => true
  | _ => true

/-- Condition on a step: the client sends DATA only with a credit. -/
def Credited (c : Conn) (a : Act) (_ : Conn) : Prop := c.hasCredit a = true

instance (c : Conn) (a : Act) (c' : Conn) : Decidable (Credited c a c') :=
  inferInstanceAs (Decidable (_ = _))

/-- The client opens stream 1, sends a byte and closes the stream, while the connect task dials. -/
def closeEarly : List Act :=
  openOne ++ [dataOne 7, closeOne, .main { more := 1 }, .main {}]

/-- The client opens stream 1 and sends 129 packets while the connect task dials, the last one with
another byte. -/
def fillEarly : List Act :=
  openOne ++ List.replicate 128 (dataOne 7) ++ dataOne 8 ::
    .main { more := 128 } :: List.replicate 140 (.main {})

/-- No backend connection has failed: no socket had an error, and every connect task dials. -/
def noneFailed (c : Conn) : Bool :=
  c.broken.isEmpty && c.control.items.isEmpty &&
  c.tasks.all fun t => match t.state with | .dialing _ => true | _ => false

/-- A client that respects its credits loses bytes although no backend connection failed: a byte that
waits for the connection when the client closes the stream, and the packet after the cap. -/
theorem upload_discarded :
    (∃ c, (sys { config := {} }).Reach Credited c ∧ noneFailed c = true ∧
      ⟨0, true, [⟨7, some 0⟩]⟩ ∈ c.received ∧ c.table.get? 1 = none ∧ c.retired = []) ∧
    ∃ c cs, (sys { config := {} }).Reach Credited c ∧ noneFailed c = true ∧
      ⟨0, true, [⟨8, some 0⟩]⟩ ∈ c.received ∧ c.table.get? 1 = some (.connecting cs) ∧
      ⟨8, some 0⟩ ∉ cs.earlyData.flatten := by
  constructor
  · obtain ⟨c, hr, hp⟩ := Reach.of_run { config := {} } Credited closeEarly
      (fun c => decide (noneFailed c = true ∧ ⟨0, true, [⟨7, some 0⟩]⟩ ∈ c.received ∧
        c.table.get? 1 = none ∧ c.retired = [])) (by decide +kernel)
    exact ⟨c, hr, of_decide_eq_true hp⟩
  · obtain ⟨c, cs, hr, hx, hp⟩ := Reach.exists_connecting { config := {} } Credited fillEarly 1
      (fun c cs => decide (noneFailed c = true ∧
        ⟨0, true, [⟨8, some 0⟩]⟩ ∈ c.received ∧ ⟨8, some 0⟩ ∉ cs.earlyData.flatten))
      (by decide +kernel)
    obtain ⟨hf, hm, hn⟩ := of_decide_eq_true hp
    exact ⟨c, cs, hr, hf, hm, hx, hn⟩

/-! ## The length of the queue -/

/-- The latest CONTINUE granted to an accepted CONNECT. -/
def latestGrant (l : List Grant) (k : Inc) : Option Grant := l.find? fun g => g.inc == k

theorem latestGrant_cons (g : Grant) (l : List Grant) (k : Inc) :
    latestGrant (g :: l) k = if g.inc = k then some g else latestGrant l k := by
  unfold latestGrant
  rw [List.find?_cons]
  by_cases h : g.inc = k
  · simp [h]
  · have : (g.inc == k) = false := by simpa using h
    simp [this, h]

/-- The queue since the latest CONTINUE. -/
def Bounded (S : Setup) (granted : List Grant) (tcp : TcpProxyStream Octet) : Prop :=
  tcp.packetsSinceContinue < S.config.continueThreshold ∧
  ∃ g, latestGrant granted tcp.cancel.owner = some g ∧
    tcp.pending.length ≤ g.queued + tcp.packetsSinceContinue

theorem bounded_cons {l : List Grant} {tcp : TcpProxyStream Octet} {g : Grant}
    (h : Bounded S l tcp) (hg : g.inc ≠ tcp.cancel.owner) : Bounded S (g :: l) tcp := by
  refine ⟨h.1, ?_⟩
  rw [latestGrant_cons, if_neg hg]
  exact h.2

/-- A CONTINUE restarts the count. -/
theorem bounded_grant (l : List Grant) {tcp : TcpProxyStream Octet}
    (h : tcp.packetsSinceContinue = 0) :
    Bounded S (⟨tcp.cancel.owner, tcp.pending.length⟩ :: l) tcp := by
  refine ⟨by rw [h]; exact S.config.continueThreshold_pos,
    ⟨tcp.cancel.owner, tcp.pending.length⟩, ?_, Nat.le_add_right _ _⟩
  rw [latestGrant_cons, if_pos rfl]

theorem bounded_upload {l : List Grant} {tcp tcp' : TcpProxyStream Octet} (h : Bounded S l tcp)
    {data : List Octet} {r₁ r₂ : WriteResult} (hw : tcpTryWrite tcp data r₁ r₂ = (false, tcp')) :
    Bounded S (if (counted S tcp').1 then
      ⟨(counted S tcp').2.cancel.owner, (counted S tcp').2.pending.length⟩ :: l else l)
      (counted S tcp').2 := by
  have hpackets := counted_packets S tcp'
  have hdue := counted_due S tcp'
  cases hc : (counted S tcp').1 with
  | true =>
    rw [hc, if_pos rfl] at hpackets
    exact bounded_grant l hpackets
  | false =>
    obtain ⟨-, hpending, hcancel⟩ := counted_frame S tcp'
    obtain ⟨-, hsince, -, hcancel'⟩ := tcpTryWrite_frame hw
    rw [hc] at hpackets hdue
    simp only [Bool.false_eq_true, if_false] at hpackets ⊢
    have hlt : ¬ S.config.continueThreshold ≤ tcp'.packetsSinceContinue + 1 :=
      of_decide_eq_false hdue.symm
    obtain ⟨-, g, hg, hle⟩ := h
    refine ⟨by omega, g, by rw [hcancel, hcancel']; exact hg, ?_⟩
    have := length_tcpTryWrite hw
    rw [hpending, hpackets, hsince]
    omega

theorem bounded_drain {l : List Grant} {tcp : TcpProxyStream Octet} (h : Bounded S l tcp)
    (r : WriteResult) (q : Bool) :
    Bounded S l { (drainPending tcp r).2 with queuedForDrain := q } := by
  obtain ⟨-, hsince, -, hcancel⟩ := drainPending_frame tcp r
  have hlen := length_drainPending tcp r
  obtain ⟨hlt, g, hg, hle⟩ := h
  refine ⟨by rw [hsince]; exact hlt, g, by rw [hcancel]; exact hg, ?_⟩
  simp only [hsince]
  omega

/-- Every connected stream is bounded. -/
def AllBounded (S : Setup) (c : Core) : Prop :=
  ∀ s tcp, c.entry s = some (.tcp tcp) → Bounded S c.granted tcp

theorem AllBounded.step (h : AllBounded S c) (hb : Base c) (he : Effect S c d) :
    AllBounded S d := by
  -- The entry `y` of `s` becomes `z`, and its stream may get a CONTINUE.
  have hput : ∀ {s y z granted}, c.entry s = some y →
      (granted = c.granted ∨ ∃ g, g.inc = y.cancel.owner ∧ granted = g :: c.granted) →
      (∀ tcp, z = some (.tcp tcp) → Bounded S granted tcp) →
      ∀ s' tcp, (c.put s z).entry s' = some (.tcp tcp) → Bounded S granted tcp := by
    intro s y z granted hy hg hz s' tcp hx
    simp only [Core.put] at hx
    split at hx
    · exact hz tcp hx
    · rename_i hne
      rcases hg with rfl | ⟨g, hinc, rfl⟩
      · exact h s' tcp hx
      · refine bounded_cons (h s' tcp hx) fun heq => hne ?_
        exact hb.entry_inj hx hy (by rw [← hinc, heq]; rfl)
  have hset : ∀ {s z}, (∀ tcp, z ≠ some (.tcp tcp)) →
      ∀ s' tcp, (c.put s z).entry s' = some (.tcp tcp) → Bounded S c.granted tcp := by
    intro s z hz s' tcp hx
    simp only [Core.put] at hx
    split at hx
    · exact absurd hx (hz tcp)
    · exact h s' tcp hx
  cases he with
  | early _ _ _ _ => exact hset (by simp)
  | upload _ hx hw _ =>
    refine hput hx ?_ (by
      rintro _ ⟨⟩
      exact bounded_upload (h _ _ hx) hw)
    split
    · refine .inr ⟨_, ?_, rfl⟩
      exact congrArg CancelFlag.owner
        ((counted_frame S _).2.2.trans (tcpTryWrite_frame hw).2.2.2)
    · exact .inl rfl
  | uploadDead _ _ _ _ => exact hset (by simp)
  | untrack _ hx =>
    have hbounded := h _ _ hx
    exact hput hx (.inl rfl) (by
      rintro _ ⟨⟩
      exact hbounded)
  | drain _ hx =>
    exact hput hx (.inl rfl) (by
      rintro _ ⟨⟩
      exact bounded_drain (h _ _ hx) _ _)
  | remove _ => exact hset (by simp)
  | ended _ _ _ => exact hset (by simp)
  | acceptTcp _ _ _ => exact hset (by simp)
  | acceptUdp _ _ _ _ => exact hset (by simp)
  | attach _ _ _ hx _ =>
    refine hput hx (.inr ⟨_, rfl, rfl⟩) ?_
    rintro _ ⟨⟩
    exact bounded_grant c.granted rfl
  | attachDead _ _ _ _ _ => exact hset (by simp)
  | _ => exact h

theorem Reach.allBounded {ok : Conn → Act → Conn → Prop} {c : Conn} (h : (sys S).Reach ok c) :
    AllBounded S c.core := by
  refine Reach.core (R := fun _ _ => True) (fun _ _ _ _ => trivial) ?_ ?_ h
  · intro s tcp hx
    rw [Core.start_entry] at hx
    cases hx
  · intro c d fs hr hi he _ _
    have := hi.step (Reach.base hr) he
    exact this

/-- In every reachable state, the queue of a TCP stream has grown by fewer chunks than one buffer
since the latest CONTINUE of the stream. -/
theorem pending_bounded {c : Conn} (h : (sys S).Reach Sys.Any c)
    (hsize : 1 ≤ S.config.bufferSize.toNat) {s : StreamId} {tcp : TcpProxyStream Octet}
    (hx : c.table.get? s = some (.tcp tcp)) :
    ∃ g, latestGrant c.granted tcp.cancel.owner = some g ∧
      tcp.pending.length < g.queued + S.config.bufferSize.toNat := by
  obtain ⟨hlt, g, hg, hle⟩ := Reach.allBounded h s tcp hx
  have := S.config.continueThreshold_le hsize
  exact ⟨g, hg, by omega⟩

/-- A buffer of one packet. -/
def tiny : Setup := { config := { bufferSize := 1 } }

/-- The client sends two packets to a backend that takes nothing; it has received the CONTINUE of
the first one. -/
def fillTiny : List Act :=
  attachOne ++ [.clientReads, dataOne 7, .main {}, .clientReads, dataOne 8] ++
    .main {} :: toSelect ++ [.main {}]

theorem pending_bounded_tiny :
    ∃ c tcp g, (sys tiny).Reach Sys.Any c ∧ c.table.get? 1 = some (.tcp tcp) ∧
      latestGrant c.granted tcp.cancel.owner = some g ∧ tcp.pending.length < g.queued + 1 := by
  obtain ⟨c, tcp, hr, hx, -⟩ := Reach.exists_tcp tiny Sys.Any fillTiny 1 (fun _ _ => true)
    (by decide +kernel)
  obtain ⟨g, hg, hlt⟩ := pending_bounded hr (by decide) hx
  exact ⟨c, tcp, g, hr, hx, hg, hlt⟩

/-- A client that respects its credits fills the queue with two packets, and the buffer is one. -/
theorem pending_exceeds_buffer :
    ∃ c tcp, (sys tiny).Reach Credited c ∧ c.table.get? 1 = some (.tcp tcp) ∧
      tcp.pending.length = 2 ∧ tiny.config.bufferSize = 1 := by
  obtain ⟨c, tcp, hr, hx, hp⟩ := Reach.exists_tcp tiny Credited fillTiny 1
    (fun _ tcp => decide (tcp.pending.length = 2)) (by decide +kernel)
  exact ⟨c, tcp, hr, hx, of_decide_eq_true hp, rfl⟩

end ShrimpWisp
