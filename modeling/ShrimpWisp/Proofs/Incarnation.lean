import ShrimpWisp.Proofs.Opening

/-!
# Uploads and the incarnations of a stream id

A client reuses an id once it has closed the stream. Events in the control channel carry only the
id, so a TcpConnected event of an earlier CONNECT can meet the Connecting entry of a later one.

* `data_to_current_socket`: if no TcpConnected event whose flag is set meets a Connecting entry
  (`OwnConnect`), every payload byte goes to the socket of the CONNECT that was the latest one when
  its packet was handled.
* `data_to_stale_socket`: without the condition it can go to the socket of an earlier CONNECT.
-/

namespace ShrimpWisp

variable {S : Setup}

/-- A TcpConnected event that meets a Connecting entry has an unset flag. -/
def Core.ownFlag (c : Core) (p : Posted) : Bool :=
  match p.event with
  | .tcpConnected s _ _ cancel =>
    match c.entry s with
    | some (.connecting _) => !c.flags.isCancelled cancel
    | _ => true
  | _ => true

/-- Condition on a step: the event that it handles satisfies `ownFlag`. -/
def OwnConnect (c : Conn) (_ : Act) (c' : Conn) : Prop :=
  (delivered c.core.control c'.core.control).all c.core.ownFlag = true

instance (c : Conn) (a : Act) (c' : Conn) : Decidable (OwnConnect c a c') :=
  inferInstanceAs (Decidable (_ = _))

/-- The bytes of a stream belong to its incarnation, and a TCP stream writes to its own socket. -/
def Routed : ProxyStream Octet → Prop
  | .tcp tcp => tcp.writer.sock = tcp.cancel.owner ∧
      ∀ o ∈ tcp.writer.sent ++ tcp.pending.flatten, o.tag = some tcp.cancel.owner
  | .udp _ => True
  | .connecting cs => ∀ o ∈ cs.earlyData.flatten, o.tag = some cs.cancel.owner

/-- Every byte of an entry or of a dropped write half is where it belongs. -/
structure AllRouted (c : Core) : Prop where
  entries : ∀ s x, c.entry s = some x → Routed x
  retired : ∀ w ∈ c.retired, ∀ o ∈ w.sent, o.tag = some w.sock

variable {c d : Core}

theorem routed_early {cs : ConnectingStream Octet} (h : Routed (.connecting cs))
    {data : List Octet} (hdata : ∀ o ∈ data, o.tag = some cs.cancel.owner) :
    Routed (.connecting (cs.queueEarlyData data)) := by
  intro o ho
  simp only [ConnectingStream.queueEarlyData, List.flatten_append, List.flatten_cons,
    List.flatten_nil, List.append_nil, List.mem_append] at ho
  rcases ho with ho | ho
  · exact h o ho
  · exact hdata o ho

theorem routed_upload {tcp tcp' : TcpProxyStream Octet} (h : Routed (.tcp tcp)) {data : List Octet}
    {r₁ r₂ : WriteResult} (hw : tcpTryWrite tcp data r₁ r₂ = (false, tcp'))
    (hdata : ∀ o ∈ data, o.tag = some tcp.cancel.owner) : Routed (.tcp (counted S tcp').2) := by
  obtain ⟨hsock, -, -, hcancel⟩ := tcpTryWrite_frame hw
  obtain ⟨hwriter, hpending, hc⟩ := counted_frame S tcp'
  refine ⟨by rw [hwriter, hc, hsock, hcancel]; exact h.1, ?_⟩
  intro o ho
  rw [hwriter, hpending, tcpTryWrite_fifo hw] at ho
  rw [hc, hcancel]
  rcases List.mem_append.mp ho with ho | ho
  · exact h.2 o ho
  · exact hdata o ho

theorem routed_drain {tcp : TcpProxyStream Octet} (h : Routed (.tcp tcp)) (r : WriteResult)
    (q : Bool) : Routed (.tcp { (drainPending tcp r).2 with queuedForDrain := q }) := by
  obtain ⟨hsock, -, -, hcancel⟩ := drainPending_frame tcp r
  refine ⟨hsock.trans (h.1.trans (congrArg _ hcancel.symm)), ?_⟩
  intro o ho
  simp only [hcancel]
  exact h.2 o (mem_drainPending ho)

/-- The bytes of a write half that is dropped. -/
theorem routed_writers {x : ProxyStream Octet} (h : Routed x) :
    ∀ w ∈ Core.writers x, ∀ o ∈ w.sent, o.tag = some w.sock := by
  intro w hw o ho
  cases x with
  | tcp tcp =>
    rw [Core.writers, List.mem_singleton] at hw
    subst hw
    rw [h.1]
    exact h.2 o (List.mem_append_left _ ho)
  | udp _ => cases hw
  | connecting _ => cases hw

/-- The flush of the early data to the socket of the stream's own CONNECT. -/
theorem routed_attach {cs : ConnectingStream Octet} (h : Routed (.connecting cs))
    {rs : List WriteResult} {cancel : CancelFlag} (hc : cancel.owner = cs.cancel.owner)
    (hd : (flushEarly ⟨cs.cancel.owner, []⟩ cs.earlyData rs).dead = false) :
    Routed (.tcp (.withPending (flushEarly ⟨cs.cancel.owner, []⟩ cs.earlyData rs).writer
      (flushEarly ⟨cs.cancel.owner, []⟩ cs.earlyData rs).pending cancel)) := by
  refine ⟨?_, ?_⟩
  · simp only [TcpProxyStream.withPending, flushEarly_sock, hc]
  · intro o ho
    simp only [TcpProxyStream.withPending] at ho ⊢
    rw [flushEarly_fifo hd, List.nil_append] at ho
    rw [hc]
    exact h o ho

/-- The unset flag of a TcpConnected event is that of the Connecting entry it meets. -/
theorem own_entry (hb : Base c) {p : Posted} (hp : p ∈ c.control) {s : StreamId} {reader : Inc}
    {writer : OwnedWriteHalf Octet} {cancel : CancelFlag}
    (he : p.event = .tcpConnected s reader writer cancel) {cs : ConnectingStream Octet}
    (hx : c.entry s = some (.connecting cs)) (hf : c.flags.isCancelled cancel = false) :
    writer = ⟨cs.cancel.owner, []⟩ := by
  obtain ⟨hc, -, hw⟩ := hb.posted p hp s reader writer cancel he
  have hold : c.Holds s p.origin := by
    have := Core.Holds.posted hp
    rwa [he] at this
  obtain ⟨x, hx', hcancel⟩ := hb.flagged s p.origin hold (hc ▸ hf)
  rw [hx] at hx'
  cases hx'
  rw [hw, ← hcancel]
  rfl

theorem AllRouted.step (h : AllRouted c) (hb : Base c) (he : Effect S c d)
    (hok : (delivered c.control d.control).all c.ownFlag = true) : AllRouted d := by
  have hput : ∀ {s y}, Routed y → ∀ s' x, (c.put s (some y)).entry s' = some x → Routed x := by
    intro s y hy s' x hx
    simp only [Core.put] at hx
    split at hx
    · cases hx; exact hy
    · exact h.entries s' x hx
  have hnone : ∀ {s}, ∀ s' x, (c.put s none).entry s' = some x → Routed x := by
    intro s s' x hx
    simp only [Core.put] at hx
    split at hx
    · cases hx
    · exact h.entries s' x hx
  -- The bytes of a packet carry the incarnation of the entry they go to.
  have htag : ∀ {s x} {data : List Octet}, c.entry s = some x → (∀ o ∈ data, o.tag = c.current s) →
      ∀ o ∈ data, o.tag = some x.cancel.owner := by
    intro s x data hx hdata o ho
    rw [hdata o ho, hb.owner s x hx]
  have hretire : ∀ ws, (∀ w ∈ ws, ∀ o ∈ w.sent, o.tag = some w.sock) →
      ∀ w ∈ ws ++ c.retired, ∀ o ∈ w.sent, o.tag = some w.sock := by
    intro ws hws w hw
    rcases List.mem_append.mp hw with hw | hw
    · exact hws w hw
    · exact h.retired w hw
  have hremove : ∀ {s}, ∀ w ∈ (c.removeEntry s).retired, ∀ o ∈ w.sent, o.tag = some w.sock := by
    intro s
    simp only [Core.removeEntry]
    split
    · rename_i x hx; exact hretire _ (routed_writers (h.entries s x hx))
    · exact h.retired
  -- Under the condition, the socket of a TcpConnected event is the one of the entry's CONNECT.
  have hown : ∀ {p rest s reader writer cancel cs}, c.control = p :: rest → d.control = rest →
      p.event = .tcpConnected s reader writer cancel → c.entry s = some (.connecting cs) →
      writer = ⟨cs.cancel.owner, []⟩ := by
    intro p rest s reader writer cancel cs hc hd hp hx
    rw [hc, hd, delivered_cons] at hok
    have hf : c.flags.isCancelled cancel = false := by
      simpa [Core.ownFlag, hp, hx] using hok
    exact own_entry hb (by rw [hc]; exact List.mem_cons_self) hp hx hf
  cases he with
  | early _ hx _ hdata => exact ⟨hput (routed_early (h.entries _ _ hx) (htag hx hdata)), h.retired⟩
  | upload _ hx hw hdata =>
    exact ⟨hput (routed_upload (h.entries _ _ hx) hw (htag hx hdata)), h.retired⟩
  | uploadDead _ hx hw hdata =>
    refine ⟨hnone, hretire _ ?_⟩
    intro w hw' o ho
    rw [Core.writers, List.mem_singleton] at hw'
    subst hw'
    have hr := h.entries _ _ hx
    rw [(tcpTryWrite_frame hw).1, hr.1]
    exact hr.2 o ((tcpTryWrite_dead hw).subset ho)
  | untrack _ hx =>
    have hr := h.entries _ _ hx
    exact ⟨hput ⟨hr.1, hr.2⟩, h.retired⟩
  | drain _ hx => exact ⟨hput (routed_drain (h.entries _ _ hx) _ _), h.retired⟩
  | remove _ => exact ⟨hnone, hremove⟩
  | ended _ _ _ => exact ⟨hnone, hremove⟩
  | acceptTcp _ _ _ => exact ⟨hput (by simp [Routed, ConnectingStream.new]), h.retired⟩
  | acceptUdp _ _ _ _ => exact ⟨hput trivial, h.retired⟩
  | attach _ hc hp hx hd =>
    obtain rfl := hown hc rfl hp hx
    exact ⟨hput (routed_attach (h.entries _ _ hx) rfl hd), h.retired⟩
  | attachDead _ hc hp hx _ =>
    obtain rfl := hown hc rfl hp hx
    refine ⟨hnone, ?_⟩
    refine hretire [_] ?_
    intro w hw o ho
    rw [List.mem_singleton] at hw
    subst hw
    rw [flushEarly_sock]
    have := (flushEarly_dead _ _ _).subset ho
    rw [List.nil_append] at this
    exact h.entries _ _ hx o this
  | _ => exact ⟨h.entries, h.retired⟩

theorem Reach.allRouted {c : Conn} (h : (sys S).Reach OwnConnect c) : AllRouted c.core := by
  refine Reach.core (R := fun c d => (delivered c.control d.control).all c.ownFlag = true)
    (fun _ _ _ hok => hok) ?_ ?_ h
  · refine ⟨?_, nofun⟩
    intro s x hx
    rw [Core.start_entry] at hx
    cases hx
  · intro c d fs hr hi he _ hok
    have := hi.step (Reach.base hr) he hok
    exact ⟨this.entries, this.retired⟩

/-- In a run in which every TcpConnected event that meets a Connecting entry has its flag unset, a
TCP stream writes to the socket of the latest accepted CONNECT of its id, and every byte that a
write half has accepted or that waits for it came in a packet that was handled while the CONNECT of
that socket was the latest one of its id. -/
theorem data_to_current_socket {c : Conn} (h : (sys S).Reach OwnConnect c) :
    (∀ s tcp, c.table.get? s = some (.tcp tcp) →
      c.current s = some tcp.writer.sock ∧
        ∀ o ∈ tcp.writer.sent ++ tcp.pending.flatten, o.tag = some tcp.writer.sock) ∧
    ∀ w ∈ c.retired, ∀ o ∈ w.sent, o.tag = some w.sock := by
  have hr := Reach.allRouted h
  refine ⟨?_, hr.retired⟩
  intro s tcp hx
  obtain ⟨hsock, hbytes⟩ := hr.entries s _ hx
  have hcur : c.core.current s = some tcp.cancel.owner := (Reach.base h).owner s _ hx
  rw [hsock]
  exact ⟨hcur, hbytes⟩

/-- Stream 1 is connected, and a byte is written to the backend. -/
def uploadOne : List Act := attachOne ++ [dataOne 7, .main { writes := [.ok 1, .ok 1] }]

theorem data_to_current_socket_upload :
    ∃ c tcp, (sys { config := {} }).Reach OwnConnect c ∧ c.table.get? 1 = some (.tcp tcp) ∧
      tcp.writer.sent = [⟨7, some 0⟩] ∧ c.current 1 = some tcp.writer.sock := by
  obtain ⟨c, tcp, hr, hx, hp⟩ := Reach.exists_tcp { config := {} } OwnConnect uploadOne 1
    (fun _ tcp => decide (tcp.writer.sent = [⟨7, some 0⟩])) (by decide +kernel)
  exact ⟨c, tcp, hr, hx, of_decide_eq_true hp, ((data_to_current_socket hr).1 1 tcp hx).1⟩

/-- The client closes stream 1 while its connect task dials, opens it again and sends a byte; then
the first connect task succeeds. -/
def reconnect : List Act :=
  openOne ++ [closeOne, connectOne, dataOne 7] ++
    [.main { more := 2 }, .main {}, .main {}, .main {}] ++ toSelect ++
    [.task 0 .connected, .task 0 .go, .main { writes := [.ok 1] }]

/-- The byte goes to the socket of the first CONNECT, which was closed before the byte came. -/
theorem data_to_stale_socket :
    ∃ c tcp, (sys { config := {} }).Reach Sys.Any c ∧ c.table.get? 1 = some (.tcp tcp) ∧
      tcp.writer.sent = [⟨7, some 1⟩] ∧ tcp.writer.sock = 0 ∧ c.current 1 = some 1 := by
  obtain ⟨c, tcp, hr, hx, hp⟩ := Reach.exists_tcp { config := {} } Sys.Any reconnect 1
    (fun c tcp => decide (tcp.writer.sent = [⟨7, some 1⟩] ∧ tcp.writer.sock = 0 ∧
      c.current 1 = some 1)) (by decide +kernel)
  exact ⟨c, tcp, hr, hx, of_decide_eq_true hp⟩

end ShrimpWisp
