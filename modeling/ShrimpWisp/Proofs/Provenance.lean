import ShrimpWisp.Proofs.Downstream
import ShrimpWisp.Proofs.Incarnation

/-!
# Where the DATA for the client comes from

A backend reader frames what it reads with the id of its stream and sends it on the channel that all
readers share. The frame carries nothing else, so a frame of a closed stream that still waits when
the client opens the id again is written as DATA of the new stream. A UDP reader takes datagrams
from an unconnected socket and drops their sender.

* `FromOwn`: the condition. A TcpConnected event meets the Connecting entry of its own CONNECT
  (`OwnConnect`), a CONNECT is accepted only while no DATA of its id waits, and the datagrams that
  are read come from the address that the stream was opened to.
* `data_from_current`: under the condition, every DATA frame that is written was read from the socket
  of the latest accepted CONNECT of its id, a datagram from that stream's `dest_addr`.
* `data_from_earlier`: without it, the client of the second CONNECT gets bytes of the first one's
  socket.
-/

namespace ShrimpWisp

variable {S : Setup} {c d : Core}

namespace Core

/-- The message was read from the socket of the latest accepted CONNECT of its id, and a datagram
from the address that the stream was opened to. -/
def Sourced (c : Core) (m : DataMsg) : Prop :=
  c.current m.streamId = some m.sock ∧
    ∀ o ∈ c.bound, o.inc = m.sock → m.source = some o.addr.addr

/-- The message waits in the data channel, or its reader waits to send it. -/
def Waiting (c : Core) (m : DataMsg) : Prop :=
  m ∈ c.data ∨ ∃ t ∈ c.tasks, t.state = .sendingData m

/-- DATA of the id waits. -/
def dataUnderway (c : Core) (s : StreamId) : Bool :=
  (c.data.any fun m => m.streamId == s) ||
  c.tasks.any fun t =>
    match t.state with
    | .sendingData m => m.streamId == s
    | _ => false

/-- The datagram comes from the address that its stream was opened to. -/
def fromDest (c : Core) (m : DataMsg) : Bool :=
  c.bound.all fun o => o.inc != m.sock || m.source == some o.addr.addr

/-- The condition of the module doc, on machine states. -/
def fromOwn (c d : Core) : Bool :=
  (delivered c.control d.control).all c.ownFlag &&
  (c.accepts d).all (fun a => !c.dataUnderway a.streamId) &&
  (d.reads.drop c.reads.length).all c.fromDest

theorem dataUnderway_of {m : DataMsg} (h : c.Waiting m) : c.dataUnderway m.streamId = true := by
  simp only [dataUnderway, Bool.or_eq_true, List.any_eq_true]
  rcases h with h | ⟨t, ht, hst⟩
  · exact .inl ⟨m, h, by simp⟩
  · exact .inr ⟨t, ht, by simp [hst]⟩

theorem fromDest_iff {m : DataMsg} :
    c.fromDest m = true ↔ ∀ o ∈ c.bound, o.inc = m.sock → m.source = some o.addr.addr := by
  simp only [fromDest, List.all_eq_true, Bool.or_eq_true, bne_iff_ne, beq_iff_eq]
  refine forall₂_congr fun o _ => ?_
  rw [ne_eq, ← imp_iff_not_or]

end Core

/-- The condition of the module doc, on steps. -/
def FromOwn (c : Conn) (_ : Act) (c' : Conn) : Prop := c.core.fromOwn c'.core = true

instance (c : Conn) (a : Act) (c' : Conn) : Decidable (FromOwn c a c') :=
  inferInstanceAs (Decidable (_ = _))

/-- The invariant: a task uses the socket of its own CONNECT, and what waits is `Sourced`. -/
structure AllSourced (c : Core) : Prop where
  own : ∀ t ∈ c.tasks, t.sock = t.cancel.owner
  waiting : ∀ m, c.Waiting m → c.Sourced m

/-! ## Steps -/

theorem Effect.bound_cases (he : Effect S c d) :
    d.bound = c.bound ∨ ∃ r, d.bound = ⟨c.accepted.length, r⟩ :: c.bound := by
  cases he with
  | acceptUdp _ _ _ _ => exact .inr ⟨_, rfl⟩
  | _ => exact .inl rfl

/-- The latest CONNECT of an id is one of those that were accepted. -/
theorem Base.current_lt (hb : Base c) {s : StreamId} {k : Inc} (h : c.current s = some k) :
    k < c.accepted.length := by
  obtain ⟨a, ha, rfl⟩ := Option.map_eq_some_iff.mp h
  exact hb.numbered a (List.mem_of_find?_eq_some ha)

/-- A message stays `Sourced` until a CONNECT of its id is accepted. -/
theorem Core.Sourced.step {m : DataMsg} (h : c.Sourced m) (hb : Base c) (he : Effect S c d)
    (hacc : ∀ a, c.accepts d = some a → a.streamId ≠ m.streamId) : d.Sourced m := by
  refine ⟨?_, ?_⟩
  · rcases he.accepted_cases with hd | ⟨s, connect, hd, -⟩
    · simpa only [Core.current, hd] using h.1
    · have hne : m.streamId ≠ s := by
        refine Ne.symm (hacc ⟨c.accepted.length, s, connect⟩ ?_)
        simp only [Core.accepts, hd, List.length_cons, if_true, List.head?_cons]
      have hcur := current_accept c s m.streamId connect
      rw [if_neg hne] at hcur
      rw [← h.1, ← hcur]
      simp only [Core.current, Core.accept, hd]
  · intro o ho hinc
    rcases he.bound_cases with hd | ⟨r, hd⟩ <;> rw [hd] at ho
    · exact h.2 o ho hinc
    · rcases List.mem_cons.mp ho with rfl | ho
      · -- The new socket is later than the message.
        exact absurd hinc (Nat.ne_of_gt (hb.current_lt h.1))
      · exact h.2 o ho hinc

/-- The reader that is spawned for a stream uses the socket of the stream's own CONNECT. -/
theorem AllSourced.own_step (h : AllSourced c) (hb : Base c) (he : Effect S c d)
    (hok : (delivered c.control d.control).all c.ownFlag = true) :
    ∀ t ∈ d.tasks, t.sock = t.cancel.owner := by
  have hadd : ∀ {t : Task}, t.sock = t.cancel.owner → ∀ u ∈ c.tasks ++ [t],
      u.sock = u.cancel.owner := by
    intro t ht u hu
    rcases List.mem_append.mp hu with hu | hu
    · exact h.own u hu
    · rw [List.mem_singleton] at hu
      rw [hu]
      exact ht
  have hset : ∀ {i t st}, c.tasks[i]? = some t → ∀ u ∈ c.tasks.set i { t with state := st },
      u.sock = u.cancel.owner := by
    intro i t st ht u hu
    rcases mem_set_task hu with rfl | hu
    · exact h.own t (List.mem_of_getElem? ht)
    · exact h.own u hu
  cases he with
  | spawnConnect _ _ _ => exact hadd rfl
  | acceptUdp _ _ _ _ => exact hadd rfl
  | @attach p rest s reader writer cancel cs rs _ hctl hp hx _ =>
    refine hadd ?_
    have hmem : p ∈ c.control := by rw [hctl]; exact List.mem_cons_self
    rw [hctl, delivered_cons] at hok
    simp only [Option.all_some, Core.ownFlag, hp, hx, Bool.not_eq_true'] at hok
    have hw := own_entry hb hmem hp hx hok
    obtain ⟨-, hr, hw'⟩ := hb.posted p hmem s reader writer cancel hp
    rw [hw'] at hw
    rw [hr]
    exact congrArg OwnedWriteHalf.sock hw
  | taskDone ht => exact hset ht
  | dial ht _ _ => exact hset ht
  | connected ht _ => exact hset ht
  | connectFailed ht _ => exact hset ht
  | startRead ht _ _ => exact hset ht
  | read ht _ _ _ _ _ => exact hset ht
  | readCancelled ht _ _ _ _ => exact hset ht
  | readEnd ht _ _ => exact hset ht
  | sendData ht _ => exact hset ht
  | sendControl ht _ => exact hset ht
  | _ => exact h.own

/-- A message that waits waited before, or it was read by a reader whose flag is unset. -/
theorem Effect.waiting_cases (he : Effect S c d) {m : DataMsg} (h : d.Waiting m) :
    c.Waiting m ∨ ∃ t ∈ c.tasks, c.flags.isCancelled t.cancel = false ∧
      m.streamId = t.streamId ∧ m.sock = t.sock ∧ d.reads = c.reads ++ [m] ∧
      d.accepted = c.accepted ∧ d.bound = c.bound := by
  have hsame : d.data ⊆ c.data → (∀ t ∈ d.tasks, t ∈ c.tasks ∨ ∀ m, t.state ≠ .sendingData m) →
      c.Waiting m := by
    intro hdata htasks
    rcases h with h | ⟨t, ht, hst⟩
    · exact .inl (hdata h)
    · rcases htasks t ht with ht | hne
      · exact .inr ⟨t, ht, hst⟩
      · exact absurd hst (hne m)
  have hadd : ∀ {t : Task}, (∀ m, t.state ≠ .sendingData m) →
      ∀ u ∈ c.tasks ++ [t], u ∈ c.tasks ∨ ∀ m, u.state ≠ .sendingData m := by
    intro t ht u hu
    rcases List.mem_append.mp hu with hu | hu
    · exact .inl hu
    · rw [List.mem_singleton] at hu
      rw [hu]
      exact .inr ht
  have hset : ∀ {i} {t : Task} {st}, (∀ m, st ≠ TaskState.sendingData m) →
      ∀ u ∈ c.tasks.set i { t with state := st }, u ∈ c.tasks ∨ ∀ m, u.state ≠ .sendingData m := by
    intro i t st hst u hu
    rcases mem_set_task hu with rfl | hu
    · exact .inr hst
    · exact .inl hu
  have hrefl : c.data ⊆ c.data := List.Subset.refl _
  cases he with
  | spawnConnect _ _ _ => exact .inl (hsame hrefl (hadd nofun))
  | acceptUdp _ _ _ _ => exact .inl (hsame hrefl (hadd nofun))
  | attach _ _ _ _ _ => exact .inl (hsame hrefl (hadd nofun))
  | batch _ => exact .inl (hsame (List.nil_subset _) fun t ht => .inl ht)
  | taskDone ht => exact .inl (hsame hrefl (hset nofun))
  | dial ht _ _ => exact .inl (hsame hrefl (hset nofun))
  | connected ht _ => exact .inl (hsame hrefl (hset nofun))
  | connectFailed ht _ => exact .inl (hsame hrefl (hset nofun))
  | startRead ht _ _ => exact .inl (hsame hrefl (hset nofun))
  | @read i t m' ht hst hf _ hid hsock =>
    rcases h with h | ⟨u, hu, hst'⟩
    · exact .inl (.inl h)
    · rcases mem_set_task hu with rfl | hu
      · cases hst'
        exact .inr ⟨t, List.mem_of_getElem? ht, hf, hid, hsock, rfl, rfl, rfl⟩
      · exact .inl (.inr ⟨u, hu, hst'⟩)
  | readCancelled ht _ _ _ _ => exact .inl (hsame hrefl (hset nofun))
  | readEnd ht _ _ => exact .inl (hsame hrefl (hset nofun))
  | @sendData i t m' ht hst =>
    left
    rcases h with h | ⟨u, hu, hst'⟩
    · rcases List.mem_append.mp h with h | h
      · exact .inl h
      · rw [List.mem_singleton] at h
        exact .inr ⟨t, List.mem_of_getElem? ht, by rw [h]; exact hst⟩
    · rcases mem_set_task hu with rfl | hu
      · cases hst'
      · exact .inr ⟨u, hu, hst'⟩
  | sendControl ht _ => exact .inl (hsame hrefl (hset nofun))
  | _ => exact .inl h

theorem AllSourced.step (h : AllSourced c) (hb : Base c) (he : Effect S c d)
    (hok : c.fromOwn d = true) : AllSourced d := by
  simp only [Core.fromOwn, Bool.and_eq_true] at hok
  obtain ⟨⟨hown, haccept⟩, hreads⟩ := hok
  refine ⟨h.own_step hb he hown, fun m hm => ?_⟩
  rcases he.waiting_cases hm with hm | ⟨t, ht, hf, hid, hsock, hr, hacc, hbound⟩
  · refine (h.waiting m hm).step hb he ?_
    intro a ha heq
    rw [ha, Option.all_some, heq, Core.dataUnderway_of hm] at haccept
    cases haccept
  · -- The reader's flag is unset, so its stream is the one in the table.
    obtain ⟨x, hx, hflag⟩ := hb.flagged t.streamId t.cancel (.task ht) hf
    refine ⟨?_, ?_⟩
    · rw [hid, hsock, h.own t ht, ← hflag]
      simpa only [Core.current, hacc] using hb.owner t.streamId x hx
    · rw [hr, List.drop_left] at hreads
      rw [hbound]
      exact Core.fromDest_iff.mp (by simpa using hreads)

theorem Reach.allSourced {c : Conn} (h : (sys S).Reach FromOwn c) : AllSourced c.core := by
  refine Reach.core (R := fun c d => c.fromOwn d = true) (fun _ _ _ hok => hok) ?_ ?_ h
  · refine ⟨fun _ ht => absurd ht List.not_mem_nil, ?_⟩
    rintro m (hm | ⟨t, ht, -⟩)
    · exact absurd hm List.not_mem_nil
    · exact absurd ht List.not_mem_nil
  · intro c d fs hr hi he _ hok
    have := hi.step (Reach.base hr) he hok
    exact ⟨this.own, this.waiting⟩

/-! ## The frames that a step writes -/

theorem Core.emit_out (c : Core) (fs : List ClientFrame) :
    (c.emit fs).out = c.out ++ if c.up then fs else [] := by
  unfold Core.emit
  cases c.up <;> simp

/-- An effect writes DATA that waits in the channel. -/
theorem Effect.writes_data (he : Effect S c d) :
    ∃ fs, d.out = c.out ++ fs ∧ ∀ m, .data m ∈ fs → m ∈ c.data := by
  have hnone : d.out = c.out → ∃ fs, d.out = c.out ++ fs ∧ ∀ m, .data m ∈ fs → m ∈ c.data :=
    fun hout => ⟨[], by rw [hout, List.append_nil], nofun⟩
  cases he with
  | @ended p rest s reason _ _ _ =>
    refine ⟨_, Core.emit_out ({ c with control := rest }.removeEntry s) _, ?_⟩
    intro m hm
    split at hm <;> simp at hm
  | batch _ =>
    refine ⟨_, Core.emit_out { c with data := [] } _, ?_⟩
    intro m hm
    split at hm
    · simpa using hm
    · cases hm
  | _ => exact hnone rfl

theorem step_writes_data {c c' : Conn} {a : Act} (hs : step S c a = some c') {m : DataMsg}
    (hm : .data m ∈ c'.out.drop c.out.length) : m ∈ c.data.items := by
  obtain ⟨d, fs, he, hplain, hc⟩ := step_core hs
  obtain ⟨gs, hgs, hdata⟩ := he.writes_data
  have hout : c'.out = c.out ++ (gs ++ if d.up then fs else []) := by
    rw [show c'.out = (d.emit fs).out from congrArg Core.out hc, Core.emit_out, hgs,
      List.append_assoc]
    rfl
  rw [hout, List.drop_left] at hm
  rcases List.mem_append.mp hm with hm | hm
  · exact hdata m hm
  · split at hm
    · cases hplain _ hm
    · cases hm

/-- In a run that satisfies `FromOwn`, every DATA frame that a step writes was read from the socket of
the latest accepted CONNECT of its id; if that stream is a UDP stream, the frame is a datagram from
the address that the stream was opened to. -/
theorem data_from_current {c : Conn} (h : (sys S).Reach FromOwn c) :
    ∀ a c' m, step S c a = some c' → .data m ∈ c'.out.drop c.out.length →
      m ∈ c.reads ∧ c.current m.streamId = some m.sock ∧
        ∀ o ∈ c.bound, o.inc = m.sock → m.source = some o.addr.addr := by
  intro a c' m hs hm
  have hdata : m ∈ c.core.data := step_writes_data hs hm
  have hread : m ∈ c.core.reads := (Reach.flow h).sent (List.mem_append_right _ hdata)
  exact ⟨hread, (Reach.allSourced h).waiting m (.inl hdata)⟩

/-- The reader of stream 1 reads a chunk and sends it. -/
def chunkOne : List Act := [.task 1 .go, .task 1 (.chunk [9] none), .task 1 .go]

/-- The chunk of the reader of stream 1, after its first CONNECT. -/
def chunkMsg : DataMsg := ⟨1, [9], ⟨1, 0⟩, 0, none⟩

/-- A step writes the chunk. -/
def writesChunk (c c' : Conn) : Bool := decide (.data chunkMsg ∈ c'.out.drop c.out.length)

/-- The chunk is written while the CONNECT it was read for is the latest one. -/
theorem data_from_current_chunk :
    ∃ c c', (sys { config := {} }).Reach FromOwn c ∧ step { config := {} } c (.main {}) = some c' ∧
      .data chunkMsg ∈ c'.out.drop c.out.length ∧ c.current 1 = some 0 := by
  obtain ⟨c, hr, hp⟩ := Reach.of_run { config := {} } FromOwn (attachOne ++ chunkOne)
    (fun c => (step { config := {} } c (.main {})).any (writesChunk c)) (by decide +kernel)
  obtain ⟨c', hs, hm⟩ := (Option.any_eq_true _ _).mp hp
  have hm := of_decide_eq_true hm
  exact ⟨c, c', hr, hs, hm, (data_from_current hr _ _ _ hs hm).2.1⟩

/-- Stream 1 is opened as a UDP stream, and a datagram of `source` is read and sent. -/
def datagramOne (source : SocketAddr) : List Act :=
  [.client (packet packetConnect 1 (connectPayloadBytes ⟨.udp, 80, lit "a.io"⟩)), .main {}] ++
    toSelect ++ [.main {}, .main resolved] ++ toSelect ++
    [.task 0 .go, .task 0 (.chunk [9] (some source)), .task 0 .go]

/-- A sender that no stream was opened to. -/
def stranger : SocketAddr := ⟨.v4 ⟨198, 51, 100, 1⟩, 53⟩

/-- The chunk of the first CONNECT waits in the channel while the client closes stream 1 and opens it
again; it is written as DATA of the second CONNECT. And a datagram of a stranger is written as DATA of
a UDP stream. -/
theorem data_from_earlier :
    (∃ c c', (sys { config := {} }).Reach Sys.Any c ∧ step { config := {} } c (.main {}) = some c' ∧
      .data chunkMsg ∈ c'.out.drop c.out.length ∧ chunkMsg.sock = 0 ∧ c.current 1 = some 1) ∧
    ∃ c, (sys { config := {} }).Reach Sys.Any c ∧ c.current 1 = some 0 ∧
      c.bound.map (·.addr.addr) = [⟨.v4 ⟨192, 0, 2, 1⟩, 80⟩] ∧
      .data ⟨1, [9], ⟨0, 0⟩, 0, some stranger⟩ ∈ c.out := by
  refine ⟨?_, ?_⟩
  · obtain ⟨c, hr, hp⟩ := Reach.of_run { config := {} } Sys.Any
      (attachOne ++ chunkOne ++ [closeOne, connectOne, .main { more := 1 }, .main {}, .main {},
        .main {}, .main {}, .main {}])
      (fun c => (step { config := {} } c (.main {})).any (writesChunk c) && c.current 1 == some 1)
      (by decide +kernel)
    rw [Bool.and_eq_true, beq_iff_eq] at hp
    obtain ⟨c', hs, hm⟩ := (Option.any_eq_true _ _).mp hp.1
    exact ⟨c, c', hr, hs, of_decide_eq_true hm, rfl, hp.2⟩
  · obtain ⟨c, hr, hp⟩ := Reach.of_run { config := {} } Sys.Any
      (datagramOne stranger ++ [.main {}])
      (fun c => decide (c.current 1 = some 0 ∧
        c.bound.map (·.addr.addr) = [⟨.v4 ⟨192, 0, 2, 1⟩, 80⟩] ∧
        .data ⟨1, [9], ⟨0, 0⟩, 0, some stranger⟩ ∈ c.out)) (by decide +kernel)
    exact ⟨c, hr, of_decide_eq_true hp⟩

end ShrimpWisp
