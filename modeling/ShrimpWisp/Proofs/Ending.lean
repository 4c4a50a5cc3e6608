import ShrimpWisp.Proofs.Heartbeat
import ShrimpWisp.Proofs.Opening
import ShrimpWisp.Server.Turn

/-!
# Why and when a connection ends

* `Conn.endCause`: what can end the main task. The client closes the connection or sends what can
  not be read, its socket fails, it is idle for too long, or it does not answer a ping.
* `survives`: without such a cause the main task never ends, whatever the backends, the resolver,
  the other connections and the order of the steps are.
* `idle_deadline`: the idle timer stands at the last frame of the client plus the idle timeout, and
  if the timeout is disabled at the begin of the loop plus a year, in which case the frames of the
  client do not move it.

Both are about the runs in which the clock does not run out (`Conn.Fits`): else the code aborts.
-/

namespace ShrimpWisp

variable {S : Setup}

namespace Conn

variable (S : Setup)

/-- The `select!` has nothing to take, and one of its timers ends the loop. -/
def timesOut (c : Conn) : Bool :=
  c.pc == .select && (c.wsBuf ++ c.wire).isEmpty && c.data.items.isEmpty &&
    c.control.items.isEmpty && S.full &&
    (decide (c.idleAt ≤ c.now) ||
      decide (c.pingAt ≤ c.now) && S.pingEnabled && c.pongTimedOut S)

/-- What can end the main task (module doc). -/
def endCause (c : Conn) : Act → Bool
  | .main _ => !c.clientUp || (c.nextFrame.any fun p => p.1.breaks S p.2) || c.timesOut S
  | _ => false

end Conn

/-! ## The causes -/

theorem Desk.Goes.up {d : Desk} {next : Pc} (h : d.Goes next .ended) (hnext : next ≠ .ended) :
    d.up = false := by
  rcases h with h | ⟨-, hup⟩
  · exact absurd h.symm hnext
  · exact hup

theorem Resumes.up {d d' : Desk} {site : Site} (h : Resumes S d site d') (hend : d'.pc = .ended) :
    d.up = false := by
  cases h with
  | deferred hq =>
    cases hend
    exact hq.up (by rintro ⟨⟩)
  | yield _ hq =>
    cases hend
    exact hq.up (by rintro ⟨⟩)
  | next _ => cases hend
  | select hq =>
    cases hend
    exact hq.up (by rintro ⟨⟩)

/-- The handling of a frame ends the main task if the frame breaks the loop, or a write fails. -/
theorem Handles.ends {d d' : Desk} {site : Site} {b : Bool} (h : Handles S d site b d')
    (hend : d'.pc = .ended) : d.up = false ∨ b = true := by
  cases h with
  | resumes hr => exact .inl (hr.up (d := { d with tracked := _ }) hend)
  | tcp => cases hend
  | udp => cases hend
  | breaks => exact .inr rfl

theorem Desk.up_resetIdle (d : Desk) : (d.resetIdle S).up = d.up := by
  unfold Desk.resetIdle
  split <;> rfl

/-- A `select!` with nothing to take polls its timers. -/
theorem Conn.stepMain_clear {c : Conn} (hc : c.desk.Clear) (e : Env) :
    c.stepMain S e = { c with tried := [] }.stepTimers S := by
  have hpc : c.pc = .select := hc.pc
  have hbuf : c.wsBuf = [] := hc.wsBuf
  have hwire : c.wire = [] := hc.wire
  have hdata : c.data.items = [] := hc.data
  have hrecv : c.control.tryRecv = none := Chan.tryRecv_none.mpr hc.control
  simp only [stepMain, hpc, stepSelect, hbuf, hwire, hdata, ne_eq, not_true_eq_false, if_false,
    hrecv]

/-- The timers end the loop if the idle timer is due, or the ping timer while a pong is overdue. -/
theorem Conn.stepTimers_ended {c : Conn} (hfull : S.full = true) :
    (∃ c', c.stepTimers S = some c' ∧ c'.pc = .ended) ↔
      c.idleAt ≤ c.now ∨
        c.pingAt ≤ c.now ∧ S.pingEnabled = true ∧ c.pongTimedOut S = true := by
  rw [stepTimers, hfull, Bool.not_true, if_neg Bool.false_ne_true]
  by_cases hidle : c.idleAt ≤ c.now
  · rw [if_pos hidle]
    exact ⟨fun _ => .inl hidle, fun _ => ⟨_, rfl, rfl⟩⟩
  rw [if_neg hidle]
  by_cases hping : c.pingAt ≤ c.now
  · rw [if_pos hping]
    cases hen : S.pingEnabled with
    | false =>
      rw [if_neg Bool.false_ne_true]
      constructor
      · rintro ⟨_, ⟨⟩, ⟨⟩⟩
      · rintro (h | ⟨_, ⟨⟩, _⟩)
        exact absurd h hidle
    | true =>
      rw [if_pos rfl]
      by_cases hpong : c.pongTimedOut S = true
      · have hpong' := hpong
        rw [pongTimedOut] at hpong'
        rw [if_pos hpong']
        exact ⟨fun _ => .inr ⟨hping, rfl, hpong⟩, fun _ => ⟨_, rfl, rfl⟩⟩
      · have hpong' := hpong
        rw [pongTimedOut] at hpong'
        rw [if_neg hpong']
        constructor
        · rintro ⟨_, ⟨⟩, ⟨⟩⟩
        · rintro (h | ⟨_, _, h⟩)
          · exact absurd h hidle
          · exact absurd h hpong
  · rw [if_neg hping]
    constructor
    · rintro ⟨_, ⟨⟩, _⟩
    · rintro (h | ⟨h, _⟩)
      · exact absurd h hidle
      · exact absurd h hping

/-- With nothing to take, the main task ends when a timer runs out. -/
theorem Conn.ends_clear {c : Conn} (hc : c.desk.Clear) (hfull : S.full = true) (e : Env) :
    (∃ c', c.stepMain S e = some c' ∧ c'.pc = .ended) ↔
      c.idleAt ≤ c.now ∨
        c.pingAt ≤ c.now ∧ S.pingEnabled = true ∧ c.pongTimedOut S = true := by
  rw [stepMain_clear hc]
  exact stepTimers_ended (c := { c with tried := [] }) hfull

/-- The cause of `Conn.ends_clear`. -/
theorem Conn.timesOut_of_clear {c : Conn} (hc : c.desk.Clear) (hfull : S.full = true)
    (h : c.idleAt ≤ c.now ∨
      c.pingAt ≤ c.now ∧ S.pingEnabled = true ∧ c.pongTimedOut S = true) :
    c.timesOut S = true := by
  have hpc : c.pc = .select := hc.pc
  have hbuf : c.wsBuf = [] := hc.wsBuf
  have hwire : c.wire = [] := hc.wire
  have hdata : c.data.items = [] := hc.data
  have hctl : c.control.items = [] := hc.control
  simp only [timesOut, hpc, hbuf, hwire, hdata, hctl, hfull, beq_self_eq_true, List.append_nil,
    List.isEmpty_nil, Bool.true_and, Bool.or_eq_true, Bool.and_eq_true, decide_eq_true_eq,
    and_assoc]
  exact h

theorem full_of_pingEnabled (h : S.pingEnabled = true) : S.full = true := by
  rw [Setup.full, h, Bool.or_true]

/-- A step of the main task that ends it has a cause. -/
theorem Conn.endCause_of_ended {c c' : Conn} {e : Env} (hs : c.stepMain S e = some c')
    (hend : c'.pc = .ended) : c.endCause S (.main e) = true := by
  have hdown : c.clientUp = false → c.endCause S (.main e) = true := by
    intro h
    simp [endCause, h]
  have hframe : ∀ {site i}, c.nextFrame = some (site, i) → site.breaks S i = true →
      c.endCause S (.main e) = true := by
    intro site i hn hb
    simp [endCause, hn, hb]
  have htaken : ∀ {d₁ : Desk} {site i}, Handles S (d₁.resetIdle S) site (site.breaks S i) c'.desk →
      d₁.up = c.clientUp → c.nextFrame = some (site, i) → c.endCause S (.main e) = true := by
    intro d₁ site i h hup hn
    rcases h.ends hend with hd | hb
    · rw [Desk.up_resetIdle, hup] at hd
      exact hdown hd
    · exact hframe hn hb
  have htime : c.timesOut S = true → c.endCause S (.main e) = true := by
    intro h
    simp [endCause, h]
  have hd : c'.desk.pc = .ended := hend
  generalize hc' : c'.desk = d' at hd
  have hturn := stepMain_turn hs
  rw [hc'] at hturn htaken
  cases hturn with
  | begin _ h =>
    rcases h.ends hd with h | h
    · exact hdown h
    · cases h
  | inbound hpc hbuf h =>
    have hpc : c.pc = .inner := hpc
    have hbuf : c.wsBuf = _ :: _ := hbuf
    refine htaken h rfl ?_
    simp only [nextFrame, hpc, hbuf, List.head?_cons, Option.map_some]
  | buffered hpc hbuf h =>
    have hpc : c.pc = .select := hpc
    have hbuf : c.wsBuf = _ :: _ := hbuf
    refine htaken h rfl ?_
    simp only [nextFrame, hpc, hbuf, List.cons_append, List.head?_cons, Option.map_some]
  | socket hpc hbuf hwire h =>
    have hpc : c.pc = .select := hpc
    have hbuf : c.wsBuf = [] := hbuf
    have hwire : c.wire = _ :: _ := hwire
    refine htaken h rfl ?_
    simp only [nextFrame, hpc, hbuf, hwire, List.nil_append, List.head?_cons, Option.map_some]
  | drained _ _ hq =>
    cases hd
    exact hdown (hq.up (by rintro ⟨⟩))
  | failed _ => cases hd
  | spawned _ h => exact hdown (h.up hd)
  | udp _ h => exact hdown (h.up hd)
  | sent _ h => exact hdown (h.up hd)
  | phase0 _ _ => cases hd
  | phase0End _ => cases hd
  | deadOne _ => cases hd
  | deadEnd _ => cases hd
  | event _ hpc =>
    rcases hpc with ⟨-, rfl⟩ | ⟨-, rfl⟩ | ⟨-, -, -, -, rfl⟩ <;> cases hd
  | phase2 _ _ hq =>
    cases hd
    exact hdown (hq.up (by rintro ⟨⟩))
  | restEnd _ _ => cases hd
  | batch _ _ _ _ hq =>
    cases hd
    exact hdown (hq.up (by rintro ⟨⟩))
  | idle hc hfull _ =>
    exact htime (timesOut_of_clear hc hfull ((ends_clear hc hfull e).mp ⟨_, hs, hend⟩))
  | ping _ _ _ _ => cases hd
  | pongTimeout hc _ _ hen =>
    have hfull := full_of_pingEnabled hen
    exact htime (timesOut_of_clear hc hfull ((ends_clear hc hfull e).mp ⟨_, hs, hend⟩))
  | noPing _ _ _ _ _ => cases hd

/-- In a run in which the client neither closes the connection nor sends what can not be read, its
socket works, no timer runs out and the sums of the clock fit, the main task never ends: not by a
backend, the resolver or a refused stream. -/
theorem survives {c : Conn}
    (h : (sys S).Reach (fun c a _ => c.endCause S a = false ∧ c.Fits S a) c) : c.pc ≠ .ended := by
  refine h.invariant (I := fun c => c.pc ≠ .ended) ?_ ?_
  · rintro _ ⟨frame, rfl⟩
    rintro ⟨⟩
  · rintro c a c' - hi hs ⟨hok, -⟩ hend
    cases a with
    | main e =>
      rw [Conn.endCause_of_ended hs hend] at hok
      cases hok
    | task i x =>
      obtain ⟨_, _, _, _, _, rfl⟩ := Conn.stepTask_changes hs
      exact hi hend
    | clientReads =>
      simp only [sys, step] at hs
      split at hs <;> cases hs
      exact hi hend
    | otherResolve hostname port answer =>
      simp only [sys, step] at hs
      split at hs
      · cases hs
      · split at hs <;> cases hs
        exact hi hend
    | _ => cases hs; exact hi hend

/-- The connection of stream 1 is refused, and the main task waits for more. -/
theorem survives_refused :
    ∃ c, (sys { config := {} }).Reach
        (fun c a _ => c.endCause { config := {} } a = false ∧ c.Fits { config := {} } a) c ∧
      c.out = [.close 1 .refused (some ⟨0, 0⟩)] ∧ c.pc ≠ .ended := by
  obtain ⟨c, hr, hp⟩ := Reach.of_run { config := {} }
    (fun c a _ => c.endCause { config := {} } a = false ∧ c.Fits { config := {} } a)
    (openOne ++ [.task 0 (.connectFailed .refused), .task 0 .go, .main {}, .main {}] ++ toSelect)
    (fun c => decide (c.out = [.close 1 .refused (some ⟨0, 0⟩)])) (by decide +kernel)
  exact ⟨c, hr, of_decide_eq_true hp, survives hr⟩

/-! ## The idle timer -/

/-- A sign of life, with its time: a frame of the client is taken, or the main task works before its
loop begins. -/
inductive Sign where
  | frame (time : Nat)
  | opening (time : Nat)
  deriving DecidableEq, Repr

def Sign.time : Sign → Nat
  | .frame time => time
  | .opening time => time

/-- The sign restarts the idle timer. Frames do so only if there is an idle timeout. -/
def Sign.Restarts (S : Setup) : Sign → Prop
  | .frame _ => S.idleEnabled = true
  | .opening _ => True

/-- The sign of an action. -/
def Conn.sign (c : Conn) : Act → Option Sign
  | .main _ =>
    if c.pc.early then some (.opening c.now)
    else if c.nextFrame.isSome then some (.frame c.now)
    else none
  | _ => none

/-- The connection with the log of its signs. -/
def idleSys (S : Setup) : Sys (Conn × List Sign) Act := (sys S).logged fun c => c.sign

/-- The sums of the step fit. -/
def FitsStep (S : Setup) (p : Conn × List Sign) (a : Act) (_ : Conn × List Sign) : Prop :=
  p.1.Fits S a

instance (p : Conn × List Sign) (a : Act) (p' : Conn × List Sign) :
    Decidable (FitsStep S p a p') :=
  inferInstanceAs (Decidable (p.1.Fits S a))

/-- The main task is in its loop. -/
def Pc.looping (q : Pc) : Bool := !q.early && q != .ended

/-- In the loop, the idle timer stands at the last sign that restarts it plus the idle duration, which
is a time of the clock if there are timers. -/
def IdleOk (S : Setup) (c : Conn) (log : List Sign) : Prop :=
  c.pc.looping = true →
    ∃ s, Latest (Sign.Restarts S) log s ∧ s.Restarts S ∧ s.time ≤ c.now ∧
      c.idleAt = s.time + S.idleDuration ∧ (S.full = true → c.idleAt ≤ S.last)

theorem Resumes.idleAt {d d' : Desk} {site : Site} (h : Resumes S d site d') :
    d'.idleAt = if site = .deferred then d.now + S.idleDuration else d.idleAt := by
  cases h with
  | deferred _ => rw [if_pos rfl]
  | yield _ _ => rw [if_neg (by rintro ⟨⟩)]
  | next _ => rw [if_neg (by rintro ⟨⟩)]
  | select _ => rw [if_neg (by rintro ⟨⟩)]

theorem Handles.idleAt {d d' : Desk} {site : Site} {b : Bool} (h : Handles S d site b d')
    (hsite : site ≠ .deferred) : d'.idleAt = d.idleAt := by
  cases h with
  | resumes hr => rw [hr.idleAt, if_neg hsite]
  | tcp => rfl
  | udp => rfl
  | breaks => rfl

theorem Desk.idleAt_resetIdle (d : Desk) :
    (d.resetIdle S).idleAt = if S.idleEnabled then d.now + S.idleDuration else d.idleAt := by
  unfold Desk.resetIdle
  split <;> rfl

/-- The sign of a step in the loop, by whether it takes a frame. -/
theorem Conn.sign_main {c : Conn} (hearly : c.pc.early = false) (e : Env) :
    c.sign (.main e) = if c.nextFrame.isSome then some (.frame c.now) else none := by
  rw [sign, if_neg (by rw [hearly]; exact Bool.false_ne_true)]

theorem Latest.of_none {ε : Type} {p : ε → Prop} {log : List ε} {e : ε} (h : Latest p log e) :
    Latest p (log ++ (none : Option ε).toList) e := by
  rw [Option.toList_none, List.append_nil]
  exact h

/-- A frame is taken in the loop. -/
theorem IdleOk.taken {c c' : Conn} {log : List Sign} {site : Site} {i : WsInput}
    (h : IdleOk S c log) (hloop : c.pc.looping = true) (hn : c.nextFrame = some (site, i))
    (hnow : c'.now = c.now)
    (hidle : c'.idleAt = if S.idleEnabled then c.now + S.idleDuration else c.idleAt) {e : Env}
    (hfits : c.Fits S (.main e)) : IdleOk S c' (log ++ (c.sign (.main e)).toList) := by
  have hearly : c.pc.early = false := by
    simp only [Pc.looping, Bool.and_eq_true, Bool.not_eq_true'] at hloop
    exact hloop.1
  rw [Conn.sign_main hearly, hn, Option.isSome_some, if_pos rfl, Option.toList_some]
  intro _
  cases hen : S.idleEnabled with
  | true =>
    rw [hen, if_pos rfl] at hidle
    refine ⟨.frame c.now, Latest.last _ _ _, hen, hnow.ge, hidle, ?_⟩
    intro _
    rw [hidle]
    exact hfits.frame (by rw [hn]; rfl) hen
  | false =>
    rw [hen, if_neg Bool.false_ne_true] at hidle
    obtain ⟨s, hs, hr, htime, hat, hlast⟩ := h hloop
    refine ⟨s, hs.append ?_, hr, htime.trans hnow.ge, hidle.trans hat, hidle ▸ hlast⟩
    intro x hx
    rw [List.mem_singleton] at hx
    subst hx
    simp [Sign.Restarts, hen]

/-- A step in the loop that takes no frame and leaves the idle timer alone. -/
theorem IdleOk.kept {c c' : Conn} {log : List Sign} (h : IdleOk S c log)
    (hloop : c.pc.looping = true) (hn : c.nextFrame = none) (hnow : c'.now = c.now)
    (hidle : c'.idleAt = c.idleAt) (e : Env) : IdleOk S c' (log ++ (c.sign (.main e)).toList) := by
  have hearly : c.pc.early = false := by
    simp only [Pc.looping, Bool.and_eq_true, Bool.not_eq_true'] at hloop
    exact hloop.1
  rw [Conn.sign_main hearly, hn, Option.isSome_none, if_neg Bool.false_ne_true]
  intro _
  obtain ⟨s, hs, hr, htime, hat, hlast⟩ := h hloop
  exact ⟨s, hs.of_none, hr, htime.trans hnow.ge, hidle.trans hat, hidle ▸ hlast⟩

/-- A step before the loop. -/
theorem IdleOk.opening {c c' : Conn} {log : List Sign} (hearly : c.pc.early = true)
    (hnow : c'.now = c.now)
    (hidle : c'.pc.looping = true → c'.idleAt = c.now + S.idleDuration) {e : Env}
    (hfits : c.Fits S (.main e)) : IdleOk S c' (log ++ (c.sign (.main e)).toList) := by
  have hsign : c.sign (.main e) = some (.opening c.now) := by
    rw [Conn.sign, if_pos hearly]
  rw [hsign, Option.toList_some]
  intro hloop
  refine ⟨.opening c.now, Latest.last _ _ _, trivial, hnow.ge, hidle hloop, ?_⟩
  intro hfull
  rw [hidle hloop]
  exact (hfits.opening hfull hearly).1

theorem Conn.nextFrame_eq_none {c : Conn} {q : Pc} (hpc : c.pc = q) (hi : q ≠ .inner)
    (hs : q ≠ .select) : c.nextFrame = none := by
  unfold nextFrame
  split
  · next h => exact absurd (hpc.symm.trans h) hi
  · next h => exact absurd (hpc.symm.trans h) hs
  · rfl

theorem Conn.nextFrame_select {c : Conn} (hpc : c.pc = .select) (hbuf : c.wsBuf = [])
    (hwire : c.wire = []) : c.nextFrame = none := by
  simp only [nextFrame, hpc, hbuf, hwire, List.append_nil, List.head?_nil, Option.map_none]

theorem IdleOk.main {c c' : Conn} {log : List Sign} {e : Env} (h : IdleOk S c log)
    (hs : c.stepMain S e = some c') (hfits : c.Fits S (.main e)) :
    IdleOk S c' (log ++ (c.sign (.main e)).toList) := by
  have hturn := Conn.stepMain_turn hs
  have hnow : c'.now = c.now := hturn.leaves.now
  have hid : c'.idleAt = c'.desk.idleAt := rfl
  have hpc' : c'.pc = c'.desk.pc := rfl
  -- A step at `q`, neither at a frame nor before the loop.
  have hkept : ∀ {q}, c.pc = q → q.looping = true → q ≠ .inner → q ≠ .select →
      c'.desk.idleAt = c.idleAt → IdleOk S c' (log ++ (c.sign (.main e)).toList) :=
    fun hpc hloop hi hs hidle =>
      h.kept (by rw [hpc]; exact hloop) (Conn.nextFrame_eq_none hpc hi hs) hnow hidle e
  have hselect : c.pc = .select → c.wsBuf = [] → c.wire = [] → c'.desk.idleAt = c.idleAt →
      IdleOk S c' (log ++ (c.sign (.main e)).toList) :=
    fun hpc hbuf hwire hidle =>
      h.kept (by rw [hpc]; rfl) (Conn.nextFrame_select hpc hbuf hwire) hnow hidle e
  -- A step that follows the await of a frame's handling.
  have hresumes : ∀ {q site d₁}, c.pc = q → q.early = (site == .deferred) → q ≠ .ended →
      q ≠ .inner → q ≠ .select → d₁.now = c.now → d₁.idleAt = c.idleAt →
      Resumes S d₁ site c'.desk → IdleOk S c' (log ++ (c.sign (.main e)).toList) := by
    intro q site d₁ hpc he hend hi hsel hn hat hr
    have hidle := hr.idleAt
    by_cases hsite : site = .deferred
    · rw [if_pos hsite, hn] at hidle
      exact .opening (by rw [hpc, he, hsite]; rfl) hnow (fun _ => hidle) hfits
    · rw [if_neg hsite, hat] at hidle
      refine hkept hpc ?_ hi hsel hidle
      simp only [Pc.looping, he, Bool.and_eq_true, Bool.not_eq_true', bne_iff_ne, ne_eq]
      exact ⟨by simpa using hsite, hend⟩
  generalize hd : c'.desk = d' at hturn hid hpc' hkept hselect hresumes
  cases hturn with
  | begin hpc hh =>
    refine .opening (by rw [show c.pc = _ from hpc]; rfl) hnow ?_ hfits
    intro hloop
    rw [hid]
    cases hh with
    | resumes hr =>
      rw [hr.idleAt, if_pos rfl]
      rfl
    | tcp =>
      rw [hpc'] at hloop
      cases hloop
    | udp =>
      rw [hpc'] at hloop
      cases hloop
  | @inbound i rest _ hpc hbuf hh =>
    have hpc : c.pc = .inner := hpc
    have hbuf : c.wsBuf = i :: rest := hbuf
    have hn : c.nextFrame = some (.inner, i) := by
      simp only [Conn.nextFrame, hpc, hbuf, List.head?_cons, Option.map_some]
    refine h.taken (by rw [hpc]; rfl) hn hnow ?_ hfits
    rw [hid, hh.idleAt (by rintro ⟨⟩), Desk.idleAt_resetIdle]
    rfl
  | @buffered i rest _ hpc hbuf hh =>
    have hpc : c.pc = .select := hpc
    have hbuf : c.wsBuf = i :: rest := hbuf
    have hn : c.nextFrame = some (.select, i) := by
      simp only [Conn.nextFrame, hpc, hbuf, List.cons_append, List.head?_cons, Option.map_some]
    refine h.taken (by rw [hpc]; rfl) hn hnow ?_ hfits
    rw [hid, hh.idleAt (by rintro ⟨⟩), Desk.idleAt_resetIdle]
    rfl
  | @socket i rest _ _ hpc hbuf hwire hh =>
    have hpc : c.pc = .select := hpc
    have hbuf : c.wsBuf = [] := hbuf
    have hwire : c.wire = i :: rest := hwire
    have hn : c.nextFrame = some (.select, i) := by
      simp only [Conn.nextFrame, hpc, hbuf, hwire, List.nil_append, List.head?_cons,
        Option.map_some]
    refine h.taken (by rw [hpc]; rfl) hn hnow ?_ hfits
    rw [hid, hh.idleAt (by rintro ⟨⟩), Desk.idleAt_resetIdle]
    rfl
  | drained hpc hbuf _ =>
    have hpc : c.pc = .inner := hpc
    have hbuf : c.wsBuf = [] := hbuf
    refine h.kept (by rw [hpc]; rfl) ?_ hnow (hid.trans rfl) e
    simp only [Conn.nextFrame, hpc, hbuf, List.head?_nil, Option.map_none]
  | @failed site s connect cancel known p hpc =>
    have hpc : c.pc = .resolvingTcp site s connect cancel known := hpc
    by_cases hsite : site = .deferred
    · subst hsite
      refine .opening (by rw [hpc]; rfl) hnow ?_ hfits
      intro hloop
      rw [hpc'] at hloop
      cases hloop
    · refine hkept hpc ?_ (by rintro ⟨⟩) (by rintro ⟨⟩) rfl
      cases site with
      | deferred => exact absurd rfl hsite
      | inner => rfl
      | select => rfl
  | spawned hpc hr =>
    exact hresumes hpc rfl (by rintro ⟨⟩) (by rintro ⟨⟩) (by rintro ⟨⟩) rfl rfl hr
  | udp hpc hr => exact hresumes hpc rfl (by rintro ⟨⟩) (by rintro ⟨⟩) (by rintro ⟨⟩) rfl rfl hr
  | sent hpc hr => exact hresumes hpc rfl (by rintro ⟨⟩) (by rintro ⟨⟩) (by rintro ⟨⟩) rfl rfl hr
  | phase0 hpc _ => exact hkept hpc rfl (by rintro ⟨⟩) (by rintro ⟨⟩) rfl
  | phase0End hpc => exact hkept hpc rfl (by rintro ⟨⟩) (by rintro ⟨⟩) rfl
  | deadOne hpc => exact hkept hpc rfl (by rintro ⟨⟩) (by rintro ⟨⟩) rfl
  | deadEnd hpc => exact hkept hpc rfl (by rintro ⟨⟩) (by rintro ⟨⟩) rfl
  | event _ hpc =>
    rcases hpc with ⟨hpc, -⟩ | ⟨hpc, -⟩ | ⟨hpc, hbuf, hwire, -⟩
    · exact hkept hpc rfl (by rintro ⟨⟩) (by rintro ⟨⟩) rfl
    · exact hkept hpc rfl (by rintro ⟨⟩) (by rintro ⟨⟩) rfl
    · exact hselect hpc hbuf hwire rfl
  | phase2 hpc _ _ => exact hkept hpc rfl (by rintro ⟨⟩) (by rintro ⟨⟩) rfl
  | restEnd hpc _ => exact hkept hpc rfl (by rintro ⟨⟩) (by rintro ⟨⟩) rfl
  | batch hpc hbuf hwire _ _ => exact hselect hpc hbuf hwire rfl
  | idle hc _ _ => exact hselect hc.pc hc.wsBuf hc.wire rfl
  | ping hc _ _ _ => exact hselect hc.pc hc.wsBuf hc.wire rfl
  | pongTimeout hc _ _ _ => exact hselect hc.pc hc.wsBuf hc.wire rfl
  | noPing hc _ _ _ _ => exact hselect hc.pc hc.wsBuf hc.wire rfl

/-- A step of another task, of the client or of the rest of the worker. -/
theorem IdleOk.other {c c' : Conn} {log : List Sign} (h : IdleOk S c log) (hpc : c'.pc = c.pc)
    (hnow : c.now ≤ c'.now) (hidle : c'.idleAt = c.idleAt) :
    IdleOk S c' (log ++ (none : Option Sign).toList) := by
  intro hloop
  rw [hpc] at hloop
  obtain ⟨s, hs, hr, htime, hat, hlast⟩ := h hloop
  exact ⟨s, hs.of_none, hr, htime.trans hnow, hidle.trans hat, hidle ▸ hlast⟩

theorem Reach.idleOk {c : Conn} {log : List Sign} (h : (idleSys S).Reach (FitsStep S) (c, log)) :
    IdleOk S c log := by
  refine h.invariant (I := fun p => IdleOk S p.1 p.2) ?_ ?_
  · rintro ⟨_, _⟩ ⟨⟨frame, rfl⟩, rfl⟩
    rintro ⟨⟩
  · rintro ⟨c, log⟩ a ⟨c', log'⟩ _ hi hs hfits
    obtain ⟨hs, rfl⟩ := Sys.logged_step hs
    cases a with
    | main e => exact hi.main hs hfits
    | task i x =>
      obtain ⟨_, _, _, _, _, rfl⟩ := Conn.stepTask_changes hs
      exact hi.other rfl le_rfl rfl
    | clientReads =>
      simp only [sys, step] at hs
      split at hs <;> cases hs
      exact hi.other rfl le_rfl rfl
    | otherResolve hostname port answer =>
      simp only [sys, step] at hs
      split at hs
      · cases hs
      · split at hs <;> cases hs
        exact hi.other rfl le_rfl rfl
    | tick n =>
      cases hs
      exact hi.other rfl (Nat.le_add_right _ _) rfl
    | _ => cases hs; exact hi.other rfl le_rfl rfl

/-- While the clock does not run out: in the loop, there is a last sign that restarts the idle timer,
and the timer is due the idle timeout after it. In the full loop this is a time of the clock, and with
nothing to take, the next step of the main task ends it if the timer is due, or the timer of the pings
while a pong is overdue, and else it does not. -/
theorem idle_deadline {c : Conn} {log : List Sign}
    (h : (idleSys S).Reach (FitsStep S) (c, log)) (hloop : c.pc.looping = true) :
    ∃ s, Latest (Sign.Restarts S) log s ∧ s.Restarts S ∧ s.time ≤ c.now ∧
      c.idleAt = s.time + S.idleDuration ∧ (S.full = true → c.idleAt ≤ S.last) ∧
      (S.full = true → c.desk.Clear → ∀ e, c.Fits S (.main e) →
        ((∃ c', c.stepMain S e = some c' ∧ c'.pc = .ended) ↔
          s.time + S.idleDuration ≤ c.now ∨
            c.pingAt ≤ c.now ∧ S.pingEnabled = true ∧ c.pongTimedOut S = true)) := by
  obtain ⟨s, hs, hr, htime, hat, hlast⟩ := Reach.idleOk h hloop
  refine ⟨s, hs, hr, htime, hat, hlast, ?_⟩
  intro hfull hc e _
  rw [← hat]
  exact Conn.ends_clear hc hfull e

/-- An idle timeout of a minute, and no pings. -/
def idleMinute : Setup := { config := { idleTimeoutSecs := 60 } }

/-- What `idle_deadline_minute` computes: a `select!` with nothing to take, whose idle timer is due. -/
def idleDue (c : Conn) : Bool :=
  decide (c.pc = .select ∧ c.wsBuf = [] ∧ c.wire = [] ∧ c.data.items = [] ∧ c.control.items = [] ∧
    c.idleAt ≤ c.now ∧ c.Fits idleMinute (.main {}))

/-- A stream is opened, and nothing comes for a minute: the timer is due, and the next step ends the
main task. -/
theorem idle_deadline_minute :
    ∃ c log, (idleSys idleMinute).Reach (FitsStep idleMinute) (c, log) ∧
      ∃ s, Latest (Sign.Restarts idleMinute) log s ∧ s.time + idleMinute.idleDuration ≤ c.now ∧
        ∃ c', c.stepMain idleMinute {} = some c' ∧ c'.pc = .ended := by
  have h : ((idleSys idleMinute).run (FitsStep idleMinute) (Conn.start idleMinute none, [])
      (openOne ++ [.tick (secs 60)])).any (fun p => idleDue p.1) = true := by
    decide +kernel
  obtain ⟨⟨c, log⟩, hp, hat⟩ := (Option.any_eq_true _ _).mp h
  obtain ⟨hpc, hbuf, hwire, hdata, hctl, hdue, hfits⟩ := of_decide_eq_true hat
  have hr : (idleSys idleMinute).Reach (FitsStep idleMinute) (c, log) :=
    Sys.Reach.of_run (.init (by exact ⟨⟨none, rfl⟩, rfl⟩)) hp
  obtain ⟨s, hs, -, -, hat, -, hends⟩ := idle_deadline hr (by rw [hpc]; rfl)
  rw [hat] at hdue
  have hc : c.desk.Clear := ⟨hpc, hbuf, hwire, hdata, hctl⟩
  exact ⟨c, log, hr, s, hs, hdue, (hends rfl hc {} hfits).mpr (.inl hdue)⟩

end ShrimpWisp
