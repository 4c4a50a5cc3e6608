import ShrimpWisp.Lib.Progress
import ShrimpWisp.Proofs.Credit
import ShrimpWisp.Proofs.Heartbeat
import ShrimpWisp.Server.Turn

/-!
# The main task comes to rest

Each turn of the loop can cause more work: a frame becomes a failure event, a poll of the timers
starts another turn, every turn visits the tracked queues again. Still the main task does not spin:
left alone it handles all that is there and then waits, whatever its environment answers.

* `Desk.rank`: first what is still to be handled, where a frame weighs as much as the event that it
  may cause; then the steps of the turn that are left. Every step goes down (`MainTurn.rank_lt`).
* `Paced`: the ping timer is not a timer of a disabled ping that is due. `noPing` is the one step
  that the rank excludes: with an idle timeout and without pings, the ping timer stays due after a
  year, and the loop spins.
* `comes_to_rest`: from every reachable state.
-/

namespace ShrimpWisp

variable {S : Setup} {d d' : Desk}

/-! ## The rank -/

/-- What the frame in hand can still cause. -/
def Pc.due : Pc → Nat
  | .start _ => 3
  | .resolvingTcp .. => 2
  | .sending .. => 2
  | .resolvingUdp .. => 1
  | _ => 0

namespace Desk

/-- What is queued. A frame weighs three, since it can cause one event. -/
def load (d : Desk) : Nat :=
  3 * (d.wsBuf.length + d.wire.length) + d.control.length + min d.data.length 1 +
    if d.pingAt ≤ d.now then 1 else 0

/-- The steps of the turn that are left. -/
def ahead (d : Desk) : Nat :=
  match d.pc with
  | .resolvingTcp .. => 1
  | .select => 1
  | .phase1 => 2
  | .phase0Dead dead => 3 + dead.length
  | .phase0 todo _ dead => 4 + 2 * todo.length + dead.length
  | .inner => 5 + 2 * d.tracked.length
  | .controlRest => 6 + 2 * d.tracked.length
  | _ => 0

def rank (d : Desk) : Nat × Nat := (d.load + d.pc.due, d.ahead)

/-- Only the idle timer changes. The durations are not looked at: `rfl` would compute them. -/
theorem resetIdle_eq (d : Desk) : ∃ time, d.resetIdle S = { d with idleAt := time } := by
  unfold resetIdle
  split
  · exact ⟨_, rfl⟩
  · exact ⟨d.idleAt, rfl⟩

theorem load_resetIdle (d : Desk) : (d.resetIdle S).load = d.load := by
  obtain ⟨time, h⟩ := d.resetIdle_eq (S := S)
  rw [h]
  rfl

/-- The ping timer waits, unless pings are enabled. -/
def Timed (S : Setup) (d : Desk) : Prop :=
  S.full = false ∨ S.pingEnabled = true ∨ d.now < d.pingAt

/-- The loop has not begun, or its ping timer waits, or it has ended. -/
def Paced (S : Setup) (d : Desk) : Prop := d.pc.early = true ∨ d.pc = .ended ∨ d.Timed S

theorem timed_resetIdle (h : d.Timed S) : (d.resetIdle S).Timed S := by
  obtain ⟨time, hd⟩ := d.resetIdle_eq (S := S)
  rw [hd]
  exact h

theorem Paced.timed (h : d.Paced S) {q : Pc} (hpc : d.pc = q) (he : q.early = false)
    (hend : q ≠ .ended) : d.Timed S := by
  rcases h with h | h | h
  · rw [hpc, he] at h
    cases h
  · exact absurd (hpc.symm.trans h) hend
  · exact h

end Desk

theorem pingInterval_pos : 0 < S.pingInterval := by
  unfold Setup.pingInterval secs
  split
  · next h =>
    have : 0 < S.config.wsPingIntervalSecs := of_decide_eq_true h
    omega
  · omega

theorem lex_of_fst {a b : Nat × Nat} (h : a.1 < b.1) : Prod.Lex (· < ·) (· < ·) a b :=
  Prod.lex_def.mpr (.inl h)

theorem lex_of_snd {a b : Nat × Nat} (h₁ : a.1 ≤ b.1) (h₂ : a.2 < b.2) :
    Prod.Lex (· < ·) (· < ·) a b := by
  rcases Nat.lt_or_eq_of_le h₁ with h | h
  · exact lex_of_fst h
  · exact Prod.lex_def.mpr (.inr ⟨h, h₂⟩)

/-! ## One step -/

/-- What follows a frame causes nothing more. -/
theorem Resumes.load_le {site : Site} (h : Resumes S d site d') :
    d'.load ≤ d.load ∧ d'.pc.due = 0 := by
  cases h with
  | deferred hq =>
    refine ⟨?_, by rcases hq with rfl | ⟨rfl, -⟩ <;> rfl⟩
    have hpos := pingInterval_pos (S := S)
    simp only [Desk.load]
    rw [if_neg (by omega)]
    omega
  | yield _ hq => exact ⟨le_rfl, by rcases hq with rfl | ⟨rfl, -⟩ <;> rfl⟩
  | next _ => exact ⟨le_rfl, rfl⟩
  | select hq => exact ⟨le_rfl, by rcases hq with rfl | ⟨rfl, -⟩ <;> rfl⟩

theorem Handles.load_le {site : Site} {b : Bool} (h : Handles S d site b d') :
    d'.load ≤ d.load ∧ d'.pc.due ≤ 2 := by
  cases h with
  | resumes hr =>
    obtain ⟨hl, hd⟩ := hr.load_le
    exact ⟨hl, by omega⟩
  | tcp => exact ⟨le_rfl, le_rfl⟩
  | udp => exact ⟨le_rfl, Nat.le_succ 1⟩
  | breaks => exact ⟨le_rfl, Nat.zero_le 2⟩

/-- A frame is taken and handled. -/
theorem Handles.taken_lt {d₁ : Desk} {site : Site} {b : Bool}
    (h : Handles S (d₁.resetIdle S) site b d') (hload : d₁.load + 3 ≤ d.load) :
    Prod.Lex (· < ·) (· < ·) d'.rank d.rank := by
  obtain ⟨hl, hd⟩ := h.load_le
  rw [Desk.load_resetIdle] at hl
  refine lex_of_fst ?_
  simp only [Desk.rank]
  omega

/-- Every step of the main task goes down, but for the poll of a disabled ping timer. -/
theorem MainTurn.rank_lt (h : MainTurn S d d') (hp : d.Paced S) :
    Prod.Lex (· < ·) (· < ·) d'.rank d.rank := by
  cases h with
  | begin hpc h =>
    obtain ⟨hl, hd⟩ := h.load_le
    refine lex_of_fst ?_
    simp only [Desk.rank, hpc, Pc.due] at hd ⊢
    omega
  | inbound _ hbuf h =>
    refine h.taken_lt ?_
    simp only [Desk.load, hbuf, List.length_cons]
    omega
  | buffered _ hbuf h =>
    refine h.taken_lt ?_
    simp only [Desk.load, hbuf, List.length_cons]
    omega
  | @socket i rest n _ hpc hbuf hwire h =>
    refine h.taken_lt ?_
    have hlen : (rest.take n).length + (rest.drop n).length = rest.length := by
      rw [← List.length_append, List.take_append_drop]
    simp only [Desk.load, hbuf, hwire, List.length_cons, List.length_nil]
    omega
  | drained hpc _ hq =>
    rcases hq with rfl | ⟨rfl, -⟩
    · refine lex_of_snd ?_ ?_
      · simp only [Desk.rank, Desk.load, hpc, Pc.due, le_refl]
      · simp only [Desk.rank, Desk.ahead, hpc, List.length_nil]
        omega
    · refine lex_of_snd ?_ ?_
      · simp only [Desk.rank, Desk.load, hpc, Pc.due, le_refl]
      · simp only [Desk.rank, Desk.ahead, hpc]
        omega
  | failed hpc =>
    refine lex_of_snd ?_ ?_
    · simp only [Desk.rank, Desk.load, hpc, Pc.due, le_refl]
    · simp only [Desk.rank, Desk.ahead, hpc, Nat.lt_one_iff]
  | spawned hpc h =>
    obtain ⟨hl, hd⟩ := h.load_le
    refine lex_of_fst ?_
    simp only [Desk.rank, Desk.load, hpc, Pc.due] at hl hd ⊢
    omega
  | udp hpc h =>
    obtain ⟨hl, hd⟩ := h.load_le
    refine lex_of_fst ?_
    simp only [Desk.rank, Desk.load, hpc, Pc.due] at hl hd ⊢
    omega
  | sent hpc h =>
    -- The event takes the place of the frame that caused it.
    obtain ⟨hl, hd⟩ := h.load_le
    refine lex_of_fst ?_
    simp only [Desk.rank, Desk.load, hpc, Pc.due, List.length_append, List.length_singleton]
      at hl hd ⊢
    omega
  | phase0 hpc hdead =>
    refine lex_of_snd ?_ ?_
    · simp only [Desk.rank, Desk.load, hpc, Pc.due, le_refl]
    · simp only [Desk.rank, Desk.ahead, hpc, List.length_cons]
      omega
  | phase0End hpc =>
    refine lex_of_snd ?_ ?_
    · simp only [Desk.rank, Desk.load, hpc, Pc.due, le_refl]
    · simp only [Desk.rank, Desk.ahead, hpc, List.length_nil]
      omega
  | deadOne hpc =>
    refine lex_of_snd ?_ ?_
    · simp only [Desk.rank, Desk.load, hpc, Pc.due, le_refl]
    · simp only [Desk.rank, Desk.ahead, hpc, List.length_cons]
      omega
  | deadEnd hpc =>
    refine lex_of_snd ?_ ?_
    · simp only [Desk.rank, Desk.load, hpc, Pc.due, le_refl]
    · simp only [Desk.rank, Desk.ahead, hpc, List.length_nil]
      omega
  | event hctl hpc =>
    refine lex_of_fst ?_
    rcases hpc with ⟨hpc, rfl⟩ | ⟨hpc, rfl⟩ | ⟨hpc, -, -, -, rfl⟩ <;>
    · simp only [Desk.rank, Desk.load, hpc, Pc.due, hctl, List.length_cons]
      omega
  | phase2 hpc _ hq =>
    rcases hq with rfl | ⟨rfl, -⟩
    · refine lex_of_snd ?_ ?_
      · simp only [Desk.rank, Desk.load, hpc, Pc.due, List.length_nil]
        omega
      · simp only [Desk.rank, Desk.ahead, hpc]
        omega
    · refine lex_of_snd ?_ ?_
      · simp only [Desk.rank, Desk.load, hpc, Pc.due, List.length_nil]
        omega
      · simp only [Desk.rank, Desk.ahead, hpc]
        omega
  | restEnd hpc _ =>
    refine lex_of_snd ?_ ?_
    · simp only [Desk.rank, Desk.load, hpc, Pc.due, le_refl]
    · simp only [Desk.rank, Desk.ahead, hpc]
      omega
  | batch hpc _ _ hdata hq =>
    have hpos : 0 < d.data.length := List.length_pos_iff.mpr hdata
    refine lex_of_fst ?_
    rcases hq with rfl | ⟨rfl, -⟩ <;>
    · simp only [Desk.rank, Desk.load, hpc, Pc.due, List.length_nil]
      omega
  | idle hc _ _ =>
    refine lex_of_snd ?_ ?_
    · simp only [Desk.rank, Desk.load, hc.pc, Pc.due, le_refl]
    · simp only [Desk.rank, Desk.ahead, hc.pc, Nat.lt_one_iff]
  | ping hc _ hping _ =>
    have hpos := pingInterval_pos (S := S)
    refine lex_of_fst ?_
    simp only [Desk.rank, Desk.load, hc.pc, Pc.due]
    rw [if_neg (by omega), if_pos hping]
    omega
  | pongTimeout hc _ _ _ =>
    refine lex_of_snd ?_ ?_
    · simp only [Desk.rank, Desk.load, hc.pc, Pc.due, le_refl]
    · simp only [Desk.rank, Desk.ahead, hc.pc, Nat.lt_one_iff]
  | noPing hc hfull _ hping hen =>
    rcases hp.timed hc.pc rfl (by rintro ⟨⟩) with h | h | h
    · rw [hfull] at h
      cases h
    · rw [hen] at h
      cases h
    · omega

/-! ## The ping timer -/

theorem Resumes.timed {site : Site} (h : Resumes S d site d') (hd : site = .deferred ∨ d.Timed S) :
    d'.Timed S := by
  have hkeep : site ≠ .deferred → d.Timed S := by
    intro hs
    rcases hd with h | h
    · exact absurd h hs
    · exact h
  cases h with
  | deferred _ =>
    have hpos := pingInterval_pos (S := S)
    exact .inr (.inr (Nat.lt_add_of_pos_right hpos))
  | yield _ _ => exact hkeep (by rintro ⟨⟩)
  | next _ => exact hkeep (by rintro ⟨⟩)
  | select _ => exact hkeep (by rintro ⟨⟩)

theorem Handles.paced {site : Site} {b : Bool} (h : Handles S d site b d')
    (hd : site = .deferred ∨ d.Timed S) : d'.Paced S := by
  cases h with
  | resumes hr => exact .inr (.inr (hr.timed hd))
  | tcp =>
    rcases hd with rfl | hd
    · exact .inl rfl
    · exact .inr (.inr hd)
  | udp =>
    rcases hd with rfl | hd
    · exact .inl rfl
    · exact .inr (.inr hd)
  | breaks => exact .inr (.inl rfl)

theorem MainTurn.paced (h : MainTurn S d d') (hp : d.Paced S) : d'.Paced S := by
  -- The await at a site other than the deferred frame's is after the begin of the loop.
  have hsite : ∀ (site : Site) {q : Pc}, d.pc = q → q.early = (site == .deferred) → q ≠ .ended →
      site = .deferred ∨ d.Timed S := by
    intro site q hpc he hend
    by_cases hs : site = .deferred
    · exact .inl hs
    · exact .inr (hp.timed hpc (by rw [he]; simpa using hs) hend)
  cases h with
  | begin _ h => exact h.paced (.inl rfl)
  | inbound hpc _ h =>
    have ht := hp.timed hpc rfl (by rintro ⟨⟩)
    exact h.paced (.inr (Desk.timed_resetIdle ht))
  | buffered hpc _ h =>
    have ht := hp.timed hpc rfl (by rintro ⟨⟩)
    exact h.paced (.inr (Desk.timed_resetIdle ht))
  | socket hpc _ _ h =>
    have ht := hp.timed hpc rfl (by rintro ⟨⟩)
    exact h.paced (.inr (Desk.timed_resetIdle ht))
  | drained hpc _ _ => exact .inr (.inr (hp.timed hpc rfl (by rintro ⟨⟩)))
  | @failed site s connect cancel known p hpc =>
    rcases hsite site hpc rfl (by rintro ⟨⟩) with rfl | ht
    · exact .inl rfl
    · exact .inr (.inr ht)
  | spawned hpc h => exact .inr (.inr (h.timed (hsite _ hpc rfl (by rintro ⟨⟩))))
  | udp hpc h => exact .inr (.inr (h.timed (hsite _ hpc rfl (by rintro ⟨⟩))))
  | sent hpc h => exact .inr (.inr (h.timed (hsite _ hpc rfl (by rintro ⟨⟩))))
  | phase0 hpc _ => exact .inr (.inr (hp.timed hpc rfl (by rintro ⟨⟩)))
  | phase0End hpc => exact .inr (.inr (hp.timed hpc rfl (by rintro ⟨⟩)))
  | deadOne hpc => exact .inr (.inr (hp.timed hpc rfl (by rintro ⟨⟩)))
  | deadEnd hpc => exact .inr (.inr (hp.timed hpc rfl (by rintro ⟨⟩)))
  | event _ hpc =>
    rcases hpc with ⟨hpc, -⟩ | ⟨hpc, -⟩ | ⟨hpc, -⟩ <;>
      exact .inr (.inr (hp.timed hpc rfl (by rintro ⟨⟩)))
  | phase2 hpc _ _ => exact .inr (.inr (hp.timed hpc rfl (by rintro ⟨⟩)))
  | restEnd hpc _ => exact .inr (.inr (hp.timed hpc rfl (by rintro ⟨⟩)))
  | batch hpc _ _ _ _ => exact .inr (.inr (hp.timed hpc rfl (by rintro ⟨⟩)))
  | idle _ _ _ => exact .inr (.inl rfl)
  | ping _ _ _ hen => exact .inr (.inr (.inr (.inl hen)))
  | pongTimeout _ _ _ _ => exact .inr (.inl rfl)
  | noPing hc _ _ _ _ => exact .inr (.inr (hp.timed hc.pc rfl (by rintro ⟨⟩)))

/-! ## Runs of the main task alone -/

/-- A step of the main task. -/
def Act.IsMain (a : Act) : Prop := ∃ e, a = .main e

/-- The main task has ended, or waits for a slot in the full control channel, or waits in its
`select!` with every frame, every event and all DATA handled, all CONTINUEs written, and no timer
due. -/
def Conn.Resting (S : Setup) (c : Conn) : Prop :=
  c.pc = .ended ∨
  (∃ site p, c.pc = .sending site p) ∧ c.control.items.length = 256 ∨
  c.pc = .select ∧ c.wsBuf = [] ∧ c.wire = [] ∧ c.control.items = [] ∧ c.data.items = [] ∧
    c.pendingContinues = [] ∧ (S.full = true → c.now < c.idleAt ∧ c.now < c.pingAt)

theorem AtRest.resting {c : Conn} (hr : (sys S).Reach Sys.Any c) (h : AtRest S c.desk) :
    c.Resting S := by
  cases h with
  | ended hpc => exact .inl hpc
  | blocked hpc hfull => exact .inr (.inl ⟨⟨_, _, hpc⟩, hfull⟩)
  | waits hc htimers =>
    have hpc : c.pc = .select := hc.pc
    have hflushed : c.pendingContinues = [] :=
      Reach.continuesFlushed hr (by rw [show c.loop.pc = .select from hpc]; rfl)
    refine .inr (.inr ⟨hpc, hc.wsBuf, hc.wire, hc.control, hc.data, hflushed, ?_⟩)
    intro hfull
    rcases htimers with hno | htimers
    · rw [hno] at hfull
      cases hfull
    · exact htimers

theorem exists_resting {c : Conn} (h : (sys S).Reach Sys.Any c) (hp : c.desk.Paced S)
    (env : Nat → Env) :
    ∃ n c', (sys S).run Sys.Any c (Sys.alone (fun k => .main (env k)) n) = some c' ∧
      c'.Resting S := by
  have hstep : ∀ c, (sys S).Reach Sys.Any c ∧ c.desk.Paced S → ¬ AtRest S c.desk →
      ∀ a, Act.IsMain a → ∃ c', (sys S).step c a = some c' ∧
        ((sys S).Reach Sys.Any c' ∧ c'.desk.Paced S) ∧
        Prod.Lex (· < ·) (· < ·) c'.desk.rank c.desk.rank := by
    rintro c ⟨hr, hp⟩ hrest _ ⟨e, rfl⟩
    obtain ⟨c', hs⟩ := Conn.stepMain_isSome hrest e
    have ht := Conn.stepMain_turn hs
    exact ⟨c', hs, ⟨.step (.main e) hr hs trivial, ht.paced hp⟩, ht.rank_lt hp⟩
  obtain ⟨n, c', hrun, ⟨hr, -⟩, hrest⟩ :=
    Sys.exists_rest (Sys.lexRank_wf fun c : Conn => c.desk.rank) hstep ⟨h, hp⟩
      (fun k => .main (env k)) fun k => ⟨env k, rfl⟩
  exact ⟨n, c', hrun, hrest.resting hr⟩

/-- From every reachable state, for all answers of the environment: if the main task alone goes on,
it comes to rest. With an idle timeout and without pings, the timer of the pings, which is set to a
year, must not be due yet. -/
theorem comes_to_rest {c : Conn} (h : (sys S).Reach Sys.Any c)
    (hyear : S.idleEnabled = true → S.pingEnabled = false →
      c.pc.early = true ∨ c.now < c.pingAt) (env : Nat → Env) :
    ∃ n c', (sys S).run Sys.Any c (Sys.alone (fun k => .main (env k)) n) = some c' ∧
      c'.Resting S := by
  refine exists_resting h ?_ env
  cases hen : S.pingEnabled with
  | true => exact .inr (.inr (.inr (.inl hen)))
  | false =>
    cases hidle : S.idleEnabled with
    | false => exact .inr (.inr (.inl (by rw [Setup.full, hidle, hen]; rfl)))
    | true =>
      rcases hyear hidle hen with he | hlt
      · exact .inl he
      · exact .inr (.inr (.inr (.inr hlt)))

/-- With an idle timeout of a minute and without pings: a frame of the client has arrived before the
loop begins, and the main task handles it. -/
theorem comes_to_rest_idle :
    ∃ c, (sys { config := { idleTimeoutSecs := 60 } }).Reach Sys.Any c ∧ c.wire ≠ [] ∧
      ∀ env : Nat → Env, ∃ n c', (sys { config := { idleTimeoutSecs := 60 } }).run Sys.Any c
        (Sys.alone (fun k => .main (env k)) n) = some c' ∧
        c'.Resting { config := { idleTimeoutSecs := 60 } } := by
  obtain ⟨c, hr, hp⟩ := Reach.of_run { config := { idleTimeoutSecs := 60 } } Sys.Any
    [.client (packet packetConnect 1 [])] (fun c => !c.wire.isEmpty && c.pc.early)
    (by decide +kernel)
  obtain ⟨hwire, hearly⟩ := Bool.and_eq_true_iff.mp hp
  exact ⟨c, hr, by simpa using hwire, comes_to_rest hr fun _ _ => .inl hearly⟩

/-! ## A disabled ping timer that is due -/

/-- The turn of a loop that spins: nothing to do, but a timer that is due and does nothing. -/
structure Conn.Spins (S : Setup) (c : Conn) : Prop where
  full : S.full = true
  noPings : S.pingEnabled = false
  notIdle : c.now < c.idleAt
  due : c.pingAt ≤ c.now
  wsBuf : c.wsBuf = []
  wire : c.wire = []
  control : c.control.items = []
  data : c.data.items = []
  continues : c.pendingContinues = []
  pc : c.pc = .select ∨ c.pc = .inner ∨ (∃ todo kept dead, c.pc = .phase0 todo kept dead) ∨
    (∃ dead, c.pc = .phase0Dead dead) ∨ c.pc = .phase1

theorem Conn.Spins.not_resting {c : Conn} (h : c.Spins S) : ¬ c.Resting S := by
  rintro (hpc | ⟨⟨site, p, hpc⟩, -⟩ | ⟨-, -, -, -, -, -, htimers⟩)
  · rcases h.pc with h | h | ⟨_, _, _, h⟩ | ⟨_, h⟩ | h <;> rw [hpc] at h <;> cases h
  · rcases h.pc with h | h | ⟨_, _, _, h⟩ | ⟨_, h⟩ | h <;> rw [hpc] at h <;> cases h
  · exact absurd h.due (Nat.not_le.mpr (htimers h.full).2)

/-- A state with the same queues and timers, at another point of the turn. -/
theorem Conn.Spins.goesOn {c c' : Conn} (h : c.Spins S) (hd : c'.desk = { c.desk with
    tracked := c'.streamsWithPending, pc := c'.pc })
    (hc : c'.pendingContinues = [])
    (hpc : c'.pc = .select ∨ c'.pc = .inner ∨ (∃ todo kept dead, c'.pc = .phase0 todo kept dead) ∨
      (∃ dead, c'.pc = .phase0Dead dead) ∨ c'.pc = .phase1) : c'.Spins S := by
  simp only [Conn.desk, Desk.mk.injEq] at hd
  obtain ⟨-, hbuf, hwire, hctl, hdata, -, -, hnow, hidle, hping, -⟩ := hd
  refine ⟨h.full, h.noPings, ?_, ?_, hbuf.trans h.wsBuf, hwire.trans h.wire, hctl.trans h.control,
    hdata.trans h.data, hc, hpc⟩
  · rw [hnow, hidle]
    exact h.notIdle
  · rw [hnow, hping]
    exact h.due

theorem Conn.continues_drainOne (c : Conn) (s : StreamId) (r : WriteResult) :
    (c.drainOne s r).2.2.pendingContinues = c.pendingContinues := by
  unfold Conn.drainOne
  split
  · split <;> rfl
  · rfl

theorem Conn.Spins.step {c : Conn} (h : c.Spins S) (e : Env) :
    ∃ c', c.stepMain S e = some c' ∧ c'.Spins S := by
  have hrecv : c.control.tryRecv = none := Chan.tryRecv_none.mpr h.control
  rcases h.pc with hpc | hpc | ⟨todo, kept, dead, hpc⟩ | ⟨dead, hpc⟩ | hpc
  · refine ⟨{ c with tried := [], pc := .inner }, ?_, h.goesOn rfl h.continues (.inr (.inl rfl))⟩
    have hidle : ¬ c.idleAt ≤ c.now := Nat.not_le.mpr h.notIdle
    simp only [Conn.stepMain, hpc, Conn.stepSelect, h.wsBuf, h.wire, h.data, hrecv,
      Conn.stepTimers, h.full, h.noPings, ne_eq, not_true_eq_false, if_false, Bool.not_true,
      Bool.false_eq_true, hidle, h.due, if_true]
  · refine ⟨c.flushThen c.phase0Head, by simp only [Conn.stepMain, hpc, h.wsBuf], ?_⟩
    have hq : (c.flushThen c.phase0Head).pc = c.phase0Head := by
      simp only [Conn.flushThen, h.continues, List.isEmpty_nil, Bool.true_or, if_true]
    exact h.goesOn rfl rfl (.inr (.inr (.inl ⟨_, _, _, hq⟩)))
  · cases todo with
    | nil =>
      refine ⟨{ c with pc := .phase0Dead dead }, by simp only [Conn.stepMain, hpc], ?_⟩
      exact h.goesOn rfl h.continues (.inr (.inr (.inr (.inl ⟨_, rfl⟩))))
    | cons s todo =>
      have hd := c.desk_drainOne s (e.write 0)
      have hk := c.continues_drainOne s (e.write 0)
      refine ⟨{ (c.drainOne s (e.write 0)).2.2 with
        streamsWithPending := (if (c.drainOne s (e.write 0)).1 then kept ++ [s] else kept) ++ todo
        pc := .phase0 todo (if (c.drainOne s (e.write 0)).1 then kept ++ [s] else kept)
          (if (c.drainOne s (e.write 0)).2.1 then dead ++ [s] else dead) },
        by simp only [Conn.stepMain, hpc], ?_⟩
      refine h.goesOn ?_ (hk.trans h.continues) (.inr (.inr (.inl ⟨_, _, _, rfl⟩)))
      rw [← hd]
      rfl
  · cases dead with
    | nil =>
      refine ⟨{ c with pc := .phase1 }, by simp only [Conn.stepMain, hpc], ?_⟩
      exact h.goesOn rfl h.continues (.inr (.inr (.inr (.inr rfl))))
    | cons s dead =>
      have hd := c.desk_removeStream s
      have hk : (c.removeStream s).pendingContinues = c.pendingContinues :=
        congrArg Loop.continues (c.loop_removeStream s)
      refine ⟨{ (c.removeStream s).write (.close s .networkError none) with pc := .phase0Dead dead },
        by simp only [Conn.stepMain, hpc], ?_⟩
      refine h.goesOn ?_ (hk.trans h.continues) (.inr (.inr (.inr (.inl ⟨_, rfl⟩))))
      rw [← hd]
      rfl
  · refine ⟨c.writeBatch .select, by simp only [Conn.stepMain, hpc, hrecv], ?_⟩
    have hq : (c.writeBatch .select).pc = .select := by
      simp only [Conn.writeBatch, h.data, List.isEmpty_nil, Bool.true_or, if_true]
    refine h.goesOn ?_ h.continues (.inl hq)
    have hdata : (c.writeBatch .select).data.items = c.data.items := h.data.symm
    simp only [Conn.desk, hdata]
    rfl

theorem Conn.Spins.run {c : Conn} (h : c.Spins S) (env : Nat → Env) (n : Nat) {c' : Conn}
    (hr : (sys S).run Sys.Any c (Sys.alone (fun k => .main (env k)) n) = some c') : c'.Spins S := by
  induction n generalizing c env with
  | zero => cases hr; exact h
  | succ n ih =>
    rw [Sys.alone_succ] at hr
    obtain ⟨c₁, hs, hr⟩ := Sys.run_cons.mp hr
    obtain ⟨c₂, hs₂, h₂⟩ := h.step (env 0)
    cases hs.symm.trans hs₂
    exact ih h₂ (fun k => env (k + 1)) hr

/-- A `select!` of a reachable state that has nothing to take: the main task alone comes to rest for
all answers of its environment exactly if the ping timer is not a disabled one that is due, or the
idle timer is due with it. Else the loop spins: the branch of the ping timer does nothing, and the
timer stays due. -/
theorem rests_iff {c : Conn} (h : (sys S).Reach Sys.Any c) (hc : c.desk.Clear) :
    (∀ env : Nat → Env, ∃ n c', (sys S).run Sys.Any c
      (Sys.alone (fun k => .main (env k)) n) = some c' ∧ c'.Resting S) ↔
    (S.full = true → c.now < c.idleAt → c.pingAt ≤ c.now → S.pingEnabled = true) := by
  have hflushed : c.pendingContinues = [] :=
    Reach.continuesFlushed h (by rw [show c.loop.pc = .select from hc.pc]; rfl)
  constructor
  · intro hrest hfull hidle hdue
    by_contra hen
    have hspins : c.Spins S := ⟨hfull, Bool.eq_false_iff.mpr hen, hidle, hdue, hc.wsBuf, hc.wire,
      hc.control, hc.data, hflushed, .inl hc.pc⟩
    obtain ⟨n, c', hr, hrest⟩ := hrest fun _ => {}
    exact (hspins.run _ n hr).not_resting hrest
  · intro hcond env
    by_cases hp : c.desk.Paced S
    · exact exists_resting h hp env
    · -- Only the idle timer is left: it ends the connection at once.
      simp only [Desk.Paced, Desk.Timed, not_or, Bool.not_eq_false, Bool.not_eq_true,
        Nat.not_lt] at hp
      obtain ⟨-, -, hfull, hen, hdue⟩ := hp
      have hidle : c.idleAt ≤ c.now := by
        by_contra hlt
        have := hcond hfull (Nat.lt_of_not_le hlt) hdue
        rw [hen] at this
        cases this
      have hbuf : c.wsBuf = [] := hc.wsBuf
      have hwire : c.wire = [] := hc.wire
      have hdata : c.data.items = [] := hc.data
      have hrecv : c.control.tryRecv = none := Chan.tryRecv_none.mpr hc.control
      have hpc : c.pc = .select := hc.pc
      have hs : (sys S).step c (.main (env 0)) = some { c with tried := [], pc := .ended } := by
        simp only [sys, step, Conn.stepMain, hpc, Conn.stepSelect, hbuf, hwire, hdata, hrecv,
          Conn.stepTimers, hfull, ne_eq, not_true_eq_false, if_false, Bool.not_true,
          Bool.false_eq_true, hidle, if_true]
      refine ⟨1, { c with tried := [], pc := .ended }, ?_, .inl rfl⟩
      rw [Sys.alone_succ]
      exact Sys.run_cons.mpr ⟨_, hs, rfl⟩

/-- What `rests_iff_due` computes: a `select!` with nothing to take, whose ping timer alone is due. -/
def pingDue (c : Conn) : Bool :=
  decide (c.pc = .select ∧ c.wsBuf = [] ∧ c.wire = [] ∧ c.data.items = [] ∧ c.control.items = [] ∧
    c.now < c.idleAt ∧ c.pingAt ≤ c.now)

/-- The ping timer is due: with pings every 30 seconds the main task comes to rest, and without
pings, with an idle timeout of two years, it does not. -/
theorem rests_iff_due :
    (∃ c, (sys { config := { wsPingIntervalSecs := 30 } }).Reach Sys.Any c ∧ c.desk.Clear ∧
      c.pingAt ≤ c.now ∧
      ∀ env : Nat → Env, ∃ n c', (sys { config := { wsPingIntervalSecs := 30 } }).run Sys.Any c
        (Sys.alone (fun k => .main (env k)) n) = some c' ∧
        c'.Resting { config := { wsPingIntervalSecs := 30 } }) ∧
    ∃ c, (sys { config := { idleTimeoutSecs := 63072000 } }).Reach Sys.Any c ∧ c.desk.Clear ∧
      ¬ ∀ env : Nat → Env, ∃ n c', (sys { config := { idleTimeoutSecs := 63072000 } }).run Sys.Any c
        (Sys.alone (fun k => .main (env k)) n) = some c' ∧
        c'.Resting { config := { idleTimeoutSecs := 63072000 } } := by
  constructor
  · obtain ⟨c, hr, hp⟩ := Reach.of_run { config := { wsPingIntervalSecs := 30 } } Sys.Any
      (List.replicate 5 (.main {}) ++ [.tick (secs 30)]) pingDue (by decide +kernel)
    obtain ⟨hpc, hbuf, hwire, hdata, hctl, -, hdue⟩ := of_decide_eq_true hp
    have hc : c.desk.Clear := ⟨hpc, hbuf, hwire, hdata, hctl⟩
    exact ⟨c, hr, hc, hdue, (rests_iff hr hc).mpr fun _ _ _ => rfl⟩
  · obtain ⟨c, hr, hp⟩ := Reach.of_run { config := { idleTimeoutSecs := 63072000 } } Sys.Any
      (List.replicate 5 (.main {}) ++ [.tick (secs 31536000)]) pingDue (by decide +kernel)
    obtain ⟨hpc, hbuf, hwire, hdata, hctl, hidle, hdue⟩ := of_decide_eq_true hp
    have hc : c.desk.Clear := ⟨hpc, hbuf, hwire, hdata, hctl⟩
    refine ⟨c, hr, hc, fun hrest => ?_⟩
    cases (rests_iff hr hc).mp hrest rfl hidle hdue

end ShrimpWisp
