import ShrimpWisp.Proofs.Opening

/-!
# The main task and its own control channel

`handle_tcp_connect` runs in the main task and awaits a send on the control channel when the
resolver fails or the address is blocked. The only receiver of that channel is the main task itself.

* `no_self_wait`: if a CONNECT fails in the main task only while the queued events and the tasks that
  can still send one are fewer than the slots (`FailRoom`), the channel has room when the main task
  sends.
* `self_wait`: without the condition the main task can wait for itself. 256 connect tasks fail while
  it awaits the resolver, and the resolver fails.
-/

namespace ShrimpWisp

variable {S : Setup} {c d : Core}

namespace Core

/-- The task can still send an event: a reader and a task that is not polled yet send none once their
flag is set. -/
def canSend (c : Core) (t : Task) : Bool :=
  match t.state with
  | .done => false
  | .dialing _ => true
  | .sendingControl _ => true
  | _ => !c.flags.isCancelled t.cancel

/-- Queued events, and tasks that can still send one. -/
def load (c : Core) : Nat := c.control.length + c.tasks.countP c.canSend

/-- The condition of the module doc, on machine states. -/
def failRoom (c d : Core) : Bool :=
  match c.attempt, d.attempt with
  | .tcp .., .failed _ => decide (c.load < 256)
  | _, _ => true

end Core

/-- The condition of the module doc, on steps. -/
def FailRoom (c : Conn) (_ : Act) (c' : Conn) : Prop := c.core.failRoom c'.core = true

instance (c : Conn) (a : Act) (c' : Conn) : Decidable (FailRoom c a c') :=
  inferInstanceAs (Decidable (_ = _))

/-- A task that can send after a move could send before it. -/
theorem Moves.canSend {t : Task} {st : TaskState} (hm : Moves c d t st)
    (h : c.canSend { t with state := st } = true) : c.canSend t = true := by
  cases hm with
  | done => cases h
  | dial hst hf => simp [Core.canSend, hst, hf]
  | connected hst => simp [Core.canSend, hst]
  | connectFailed hst => simp [Core.canSend, hst]
  | startRead hst => simpa [Core.canSend, hst] using h
  | read hst _ _ => simp_all [Core.canSend]
  | readEnd hst hf => simp [Core.canSend, hst, hf]
  | sendData hst => simpa [Core.canSend, hst] using h

theorem countP_canSend_pos {t : Task} {i : Nat} (ht : c.tasks[i]? = some t)
    (h : c.canSend t = true) : 0 < c.tasks.countP c.canSend :=
  List.countP_pos_iff.mpr ⟨t, List.mem_of_getElem? ht, h⟩

/-- A task that moves on does not add to the tasks that can still send. -/
theorem countP_move_le {t : Task} {i : Nat} (ht : c.tasks[i]? = some t) {st : TaskState}
    (hm : Moves c d t st) :
    (c.tasks.set i { t with state := st }).countP c.canSend ≤ c.tasks.countP c.canSend := by
  obtain ⟨hi, he⟩ := List.getElem?_eq_some_iff.mp ht
  rw [List.countP_set hi, he]
  by_cases h : c.canSend { t with state := st } = true
  · have := countP_canSend_pos ht (hm.canSend h)
    rw [if_pos (hm.canSend h), if_pos h]
    omega
  · rw [if_neg h]
    omega

/-- A task that has sent its event is done. -/
theorem countP_done {t : Task} {i : Nat} (ht : c.tasks[i]? = some t) (h : c.canSend t = true) :
    (c.tasks.set i { t with state := .done }).countP c.canSend + 1 = c.tasks.countP c.canSend := by
  obtain ⟨hi, he⟩ := List.getElem?_eq_some_iff.mp ht
  have := countP_canSend_pos ht h
  have hd : c.canSend { t with state := .done } = false := rfl
  rw [List.countP_set hi, he, h, hd]
  simp only [if_true, Bool.false_eq_true, if_false]
  omega

/-- While the main task works on a CONNECT, no effect adds to the load. -/
theorem Effect.load_le (he : Effect S c d) (hc : c.attempt ≠ .idle) (hd : d.attempt ≠ .idle) :
    d.load ≤ c.load := by
  have hmove : ∀ {i t st}, c.tasks[i]? = some t → Moves c d t st →
      (c.setTask i t st).load ≤ c.load :=
    fun hi hm => Nat.add_le_add_left (countP_move_le hi hm) _
  cases he with
  | nop => exact le_rfl
  | down => exact le_rfl
  | otherResolve _ _ => exact le_rfl
  | tcpFailed _ _ => exact le_rfl
  | taskDone hi => exact hmove hi .done
  | dial hi hst hf => exact hmove hi (.dial hst hf)
  | connected hi hst => exact hmove hi (.connected hst)
  | connectFailed hi hst => exact hmove hi (.connectFailed hst)
  | startRead hi hst _ => exact hmove hi (.startRead hst)
  | read hi hst _ hm _ _ => exact hmove hi (.read hst hm rfl)
  | readCancelled hi _ _ _ _ => exact hmove hi .done
  | readEnd hi hst hf => exact hmove hi (.readEnd hst hf)
  | sendData hi hst => exact hmove hi (.sendData hst)
  | @sendControl i t p hi hst =>
    -- The event moves from the task to the queue.
    have hcount := countP_done hi (by simp [Core.canSend, hst])
    simp only [Core.load, List.length_append, List.length_singleton]
    show c.control.length + 1 + (c.tasks.set i { t with state := .done }).countP c.canSend ≤ _
    omega
  | newFlag => exact absurd rfl hd
  | spawnConnect _ _ _ => exact absurd rfl hd
  | sendFailed _ _ => exact absurd rfl hd
  | refuseUdp _ _ => exact absurd rfl hd
  | refuseUdpFlag _ _ => exact absurd rfl hd
  | acceptUdp _ _ _ _ => exact absurd rfl hd
  | _ => exact absurd ‹c.attempt = .idle› hc

/-- While the main task sends its own event, the channel has room for it. -/
def Roomy (c : Core) : Prop := ∀ p, c.attempt = .failed p → c.load < 256

theorem Roomy.step (h : Roomy c) (he : Effect S c d) (hok : c.failRoom d = true) : Roomy d := by
  intro p hp
  have hd : d.attempt ≠ .idle := by rw [hp]; nofun
  rcases he.attempt_cases with hi | ⟨hsame, -⟩ | ⟨_, _, _, -, hi, -⟩ | ⟨_, _, _, _, _, hc, -, -⟩ |
    ⟨_, _, _, hi⟩
  · exact absurd hi hd
  · rw [hp] at hsame
    exact Nat.lt_of_le_of_lt (he.load_le (by rw [← hsame]; nofun) hd) (h p hsame.symm)
  · rw [hp] at hi; cases hi
  · refine Nat.lt_of_le_of_lt (he.load_le (by rw [hc]; nofun) hd) ?_
    simpa [Core.failRoom, hc, hp] using hok
  · rw [hp] at hi; cases hi

theorem roomy {c : Conn} (h : (sys S).Reach FailRoom c) : Roomy c.core := by
  refine Reach.core (R := fun c d => c.failRoom d = true) (fun _ _ _ hok => hok) nofun ?_ h
  intro c d fs _ hi he _ hok
  have := hi.step he hok
  exact this

/-- In a run that satisfies `FailRoom`, the control channel has a free slot whenever the main task
sends its own event. -/
theorem no_self_wait {c : Conn} (h : (sys S).Reach FailRoom c) {site : Site} {p : Posted}
    (hpc : c.pc = .sending site p) : c.control.items.length < 256 := by
  have hload := roomy h p (by simp only [Conn.core, hpc, Pc.attempt])
  exact Nat.lt_of_le_of_lt (Nat.le_add_right _ _) hload

/-- The resolver fails for the only stream. -/
theorem no_self_wait_one :
    ∃ c p, (sys { config := {} }).Reach FailRoom c ∧ c.pc = .sending .select p ∧
      c.control.items.length < 256 := by
  obtain ⟨c, hr, hp⟩ := Reach.of_run { config := {} } FailRoom
    ([connectOne, .main {}] ++ toSelect ++ [.main {}, .main {}])
    (fun c => decide (c.pc = .sending .select
      ⟨.tcpConnectFailed 1 .unreachable, ⟨0, 0⟩⟩)) (by decide +kernel)
  exact ⟨c, _, hr, of_decide_eq_true hp, no_self_wait hr (of_decide_eq_true hp)⟩

/-! ## The main task waits for itself

256 streams are opened in the default configuration, one more CONNECT is accepted, and all the
connect tasks fail while the main task awaits the resolver. -/

namespace ControlFull

/-- The default configuration: the lean loop. -/
def S₀ : Setup := { config := {} }

/-- The CONNECT to port 80 of `host`. -/
def connectTo (host : Str) : ConnectPayload := ⟨.tcp, 80, host⟩

theorem admitted_connectTo {host : Str} (hl : host.length ≤ 253) {s : StreamId}
    (hs : s ≠ streamIdControl) : Admitted S₀ s (connectTo host) where
  streamId := hs
  port := show (80 : UInt16) ≠ 0 by decide
  hostname := rfl
  portList := rfl
  preResolution := rfl
  frame := by
    have : S₀.frameLimit = 64 * 2 ^ 20 := rfl
    simp only [connectTo]
    omega

/-- From the head of the loop to the await of the resolver, for the next id. -/
theorem accept_next {n : Nat} (h : CalmAt S₀ n n .inner []) (hn : n + 1 < 2 ^ 32) {host : Str}
    (hne : host ≠ []) (hl : host.length ≤ 253) (hv : Utf8.valid host = true) :
    ∃ s f c, (sys S₀).Reach Sys.Any c ∧ Calm S₀ (n + 1) n (.resolvingTcp .select s (connectTo host) f
      (resolveNow c.dns c.now host 80)) [] c := by
  have hs : (UInt32.ofNat (n + 1)).toNat = n + 1 := UInt32.toNat_ofNat_of_lt' hn
  have hctl : UInt32.ofNat (n + 1) ≠ streamIdControl := by
    intro h
    rw [h] at hs
    cases hs
  exact ⟨_, calm_accept (calm_select (calm_client h _)) hs (.inl rfl) (admitted_connectTo hl hctl) rfl
    hne hl hv⟩

/-- Opening one more stream. -/
theorem calm_open {n : Nat} (h : CalmAt S₀ n n .inner []) (hn : n + 1 < 2 ^ 32) :
    CalmAt S₀ (n + 1) (n + 1) .inner [] := by
  obtain ⟨s, f, c, hr, h⟩ := accept_next h hn (by decide : lit "192.0.2.1" ≠ []) (by decide)
    (by decide)
  have hknown : resolveNow c.dns c.now (lit "192.0.2.1") 80 =
      some ⟨⟨.v4 ⟨192, 0, 2, 1⟩, 80⟩, .literal⟩ := by
    have : parseIpAddr (lit "192.0.2.1") = some (.v4 ⟨192, 0, 2, 1⟩) := by decide
    simp only [resolveNow, this]
  rw [hknown] at h
  refine ⟨_, reach_spawn hr h.pc h.continues (.inl ⟨rfl, rfl⟩) (by decide) rfl, { h with
    pc := rfl
    length := by simp [h.length]
    spawned := ?_ }⟩
  intro t ht
  rcases List.mem_append.mp ht with ht | ht
  · exact h.spawned t ht
  · rw [List.mem_singleton] at ht
    rw [ht]
    exact ⟨_, rfl⟩

theorem calm_many (n : Nat) (hn : n < 2 ^ 32) : CalmAt S₀ n n .inner [] := by
  induction n with
  | zero => exact calm_start
  | succ n ih => exact calm_open (ih (by omega)) hn

/-- The connect tasks run while the main task awaits the resolver: `k` of them have dialed, failed
and sent their event, the rest wait for their first poll. -/
structure Failing (n k : Nat) (s : StreamId) (f : CancelFlag) (c : Conn) : Prop where
  reach : (sys S₀).Reach Sys.Any c
  pc : c.pc = .resolvingTcp .select s (connectTo (lit "a.io")) f none
  control : c.control.items.length = k
  flags : c.flags.cancelled = []
  rest : ∀ i, k ≤ i → i < n → ∃ t r, c.tasks[i]? = some t ∧ t.state = .spawned r

theorem failing_start (n : Nat) (hn : n + 1 < 2 ^ 32) : ∃ s f c, Failing n 0 s f c := by
  obtain ⟨s, f, c, hr, h⟩ := accept_next (calm_many n (by omega)) hn (by decide : lit "a.io" ≠ [])
    (by decide) (by decide)
  have hknown : resolveNow c.dns c.now (lit "a.io") 80 = none := by
    have : parseIpAddr (lit "a.io") = none := by decide
    simp only [resolveNow, this, DnsCache.getCached, h.dns, List.lookup_nil, Option.map_none]
  rw [hknown] at h
  refine ⟨s, f, c, hr, h.pc, by rw [h.control]; rfl, h.flags, ?_⟩
  intro i _ hi
  rw [← h.length] at hi
  obtain ⟨r, hst⟩ := h.spawned _ (List.getElem_mem hi)
  exact ⟨_, r, List.getElem?_eq_getElem hi, hst⟩

variable {n k : Nat} {s : StreamId} {f : CancelFlag} {c : Conn}

/-- One more task dials and fails, while a slot is free. -/
theorem failing_step (h : Failing n k s f c) (hk : k < n)
    (hroom : k < 256) : ∃ c', Failing n (k + 1) s f c' := by
  obtain ⟨t, r, ht, hst⟩ := h.rest k (Nat.le_refl k) hk
  have hlt : k < c.tasks.length := (List.getElem?_eq_some_iff.mp ht).1
  let p : Posted := ⟨.tcpConnectFailed t.streamId .timedOut, t.cancel⟩
  let c₁ : Conn := { c with
    tasks := c.tasks.set k { t with state := .dialing r }
    dialed := ⟨t.cancel.owner, r⟩ :: c.dialed }
  have h1 : (sys S₀).Reach Sys.Any c₁ :=
    reach_dial h.reach ht hst (by simp [Flags.isCancelled, h.flags])
  have ht1 : c₁.tasks[k]? = some { t with state := .dialing r } := List.getElem?_set_self hlt
  let c₂ : Conn := c₁.setTask k t (.sendingControl p)
  have h2 : (sys S₀).Reach Sys.Any c₂ :=
    .step (.task k (.connectFailed .timedOut)) h1 (by simp only [sys, step, Conn.stepTask, ht1]; rfl)
      trivial
  have ht2 : c₂.tasks[k]? = some { t with state := .sendingControl p } :=
    List.getElem?_set_self (by simpa [c₁] using hlt)
  obtain ⟨ctl, hsend⟩ : ∃ ctl, c₂.control.trySend p = some ctl := by
    refine Option.ne_none_iff_exists'.mp fun hn => ?_
    have := Chan.trySend_none.mp hn
    have : c.control.items.length = 256 := this
    have := h.control
    omega
  let c₃ : Conn := { c₂ with control := ctl }.setTask k t .done
  have h3 : (sys S₀).Reach Sys.Any c₃ := by
    refine .step (.task k .go) h2 ?_ trivial
    have hgone : c₂.gone = false := by simp [Conn.gone, c₂, c₁, Conn.setTask, h.pc]
    simp only [sys, step, Conn.stepTask, ht2, hgone, hsend, Bool.false_eq_true, if_false]
    rfl
  refine ⟨c₃, h3, h.pc, ?_, h.flags, ?_⟩
  · show ctl.items.length = k + 1
    have hctl : ctl.items = c.control.items ++ [p] := (Chan.trySend_some hsend).1
    rw [hctl, List.length_append, h.control, List.length_singleton]
  · intro i hi hin
    obtain ⟨t', r', ht', hst'⟩ := h.rest i (by omega) hin
    refine ⟨t', r', ?_, hst'⟩
    simp only [c₃, c₂, c₁, Conn.setTask]
    rw [List.getElem?_set_ne (by omega), List.getElem?_set_ne (by omega),
      List.getElem?_set_ne (by omega), ht']

theorem failing_many (n k : Nat) (hn : n + 1 < 2 ^ 32) (hk : k ≤ n) (hroom : k ≤ 256) :
    ∃ s f c, Failing n k s f c := by
  induction k with
  | zero => exact failing_start n hn
  | succ k ih =>
    obtain ⟨s, f, c, h⟩ := ih (by omega) (by omega)
    exact ⟨s, f, failing_step h hk (by omega)⟩

/-- The resolver fails, and the main task sends its own event. -/
theorem failing_resolver (h : Failing n k s f c) :
    ∃ c' p, (sys S₀).Reach Sys.Any c' ∧ c'.pc = .sending .select p ∧
      c'.control.items.length = k := by
  have hstep : step S₀ c (.main {}) = some
      { c with pc := .sending .select ⟨.tcpConnectFailed s .unreachable, f⟩ } := by
    have : parseSocketAddr (lookupText (lit "a.io") 80) = none := by decide
    simp only [step, Conn.stepMain, h.pc, resolveLookup, connectTo, lookupHost, this, Except.map,
      Conn.tcpResolved]
  exact ⟨_, _, .step (.main {}) h.reach hstep trivial, rfl, h.control⟩

end ControlFull

/-- The main task sends on its control channel while all the slots are taken: it waits, and nobody
else can receive. -/
theorem self_wait :
    ∃ c site p, (sys { config := {} }).Reach Sys.Any c ∧ c.pc = .sending site p ∧
      c.control.items.length = 256 ∧ ∀ e, step { config := {} } c (.main e) = none := by
  obtain ⟨s, f, c, h⟩ := ControlFull.failing_many 256 256 (by decide) (by decide) (by decide)
  obtain ⟨c', p, hr, hpc, hfull⟩ := ControlFull.failing_resolver h
  refine ⟨c', _, p, hr, hpc, hfull, fun e => ?_⟩
  have : c'.control.trySend p = none := Chan.trySend_none.mpr hfull
  simp only [step, Conn.stepMain, hpc, this]

end ShrimpWisp
