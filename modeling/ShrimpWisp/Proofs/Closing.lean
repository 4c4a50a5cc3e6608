import ShrimpWisp.Proofs.Upload
import ShrimpWisp.Server.Loop

/-!
# After the WebSocket Close

The main task answers a WebSocket Close, or a Wisp CLOSE of stream 0, with a WebSocket Close and
leaves its loop. Where `select!` read the frame, nothing follows. Where the frame came from the
buffer, the exit of the loop first flushes the CONTINUEs of the same batch, after the Close.

* `close_is_last`: if no closing frame is taken from the buffer while CONTINUEs wait
  (`CleanClose`), the Close is the last frame; and a step that does not meet the condition writes
  CONTINUEs after it.
* `continue_after_close`: a run in which that happens.
-/

namespace ShrimpWisp

variable {S : Setup}

/-- A closing frame is next in the buffer, while CONTINUEs wait and the client can be written to. -/
def Conn.closesBatch (S : Setup) (c : Conn) : Bool :=
  c.clientUp && c.pc == .inner && !c.pendingContinues.isEmpty &&
    (c.handled S (.main {})).any WispFrameResult.closes

theorem Conn.closesBatch_iff {c : Conn} :
    c.closesBatch S = true ↔ c.clientUp = true ∧ c.pc = .inner ∧ c.pendingContinues ≠ [] ∧
      ∃ r, c.handled S (.main {}) = some r ∧ r.closes = true := by
  simp only [closesBatch, Bool.and_eq_true, beq_iff_eq, Bool.not_eq_true', and_assoc,
    List.isEmpty_eq_false_iff, Option.any_eq_true]

/-- Condition on a step: the main task does not take such a frame. -/
def CleanClose (S : Setup) (c : Conn) (a : Act) (_ : Conn) : Prop :=
  (match a with
  | .main _ => !c.closesBatch S
  | _ => true) = true

instance (S : Setup) (c : Conn) (a : Act) (c' : Conn) : Decidable (CleanClose S c a c') :=
  inferInstanceAs (Decidable (_ = _))

/-- No frame follows a WebSocket Close. -/
def ClosesLast (out : List ClientFrame) : Prop :=
  ∀ pre post, out = pre ++ .wsClose :: post → post = []

/-- The Close is the last frame, and the main task has ended. -/
def Sealed (l : Loop) : Prop :=
  .wsClose ∈ l.out → l.pc = .ended ∧ ∃ pre, l.out = pre ++ [.wsClose] ∧ .wsClose ∉ pre

theorem Sealed.closesLast {l : Loop} (h : Sealed l) : ClosesLast l.out := by
  intro pre post hout
  obtain ⟨-, pre', hout', hn⟩ := h (by rw [hout]; simp)
  rcases List.eq_nil_or_concat post with rfl | ⟨init, x, rfl⟩
  · rfl
  · -- The Close would stand before the last frame.
    have heq : (pre ++ .wsClose :: init) ++ [x] = pre' ++ [.wsClose] := by
      rw [← hout', hout]
      simp
    have hpre := (List.append_inj' heq rfl).1
    exact absurd (by rw [← hpre]; simp) hn

/-! ## Steps -/

variable {l l' : Loop} {r : Option WispFrameResult}

theorem Inbound.writes {r : WispFrameResult} (h : Inbound S l r l') :
    Writes (· ≠ .wsClose) l l' := h.writes_of (by simp) (by simp)

theorem Delivers.writes {p : Posted} (h : Delivers S l p l') : Writes (· ≠ .wsClose) l l' :=
  h.writes_of (by simp) (by simp)

/-- A step writes a Close for a closing frame only. After the end it writes nothing. -/
theorem LoopStep.close_cases (h : LoopStep S l r l') :
    (Writes (· ≠ .wsClose) l l' ∧ (l.pc = .ended → l'.pc = .ended ∧ l'.out = l.out)) ∨
    ∃ site i r' l₁, Takes l site i l₁ ∧ r = some r' ∧ r'.closes = true ∧
      l' = (l₁.emit [.wsClose]).breakLoop site := by
  have hcont : ∀ s n, ClientFrame.continue s n ≠ .wsClose := nofun
  have hstep : l.pc ≠ .ended → Writes (· ≠ .wsClose) l l' →
      Writes (· ≠ .wsClose) l l' ∧ (l.pc = .ended → l'.pc = .ended ∧ l'.out = l.out) :=
    fun hne hw => ⟨hw, fun he => absurd he hne⟩
  have hidle : l'.pc = l.pc → l'.out = l.out →
      Writes (· ≠ .wsClose) l l' ∧ (l.pc = .ended → l'.pc = .ended ∧ l'.out = l.out) :=
    fun hpc hout => ⟨.of_eq hout, fun he => ⟨hpc.trans he, hout⟩⟩
  have hfinish : ∀ {l₁ site}, Finishes l₁ site l' → l₁.out = l.out → Writes (· ≠ .wsClose) l l' :=
    fun hf hout => (Writes.of_eq hout).trans (.finishes hcont hf)
  cases h with
  | nop => exact .inl (hidle rfl rfl)
  | down => exact .inl (hidle rfl rfl)
  | task _ _ => exact .inl (hidle rfl rfl)
  | start hpc hf => exact .inl (hstep (by rw [hpc]; nofun) (.finishes hcont hf))
  | deferred hpc hi hf =>
    exact .inl (hstep (by rw [hpc]; nofun) (hi.writes.trans (.finishes hcont hf)))
  | deferredConnect hpc hs => exact .inl (hstep (by rw [hpc]; nofun) (.of_eq hs.out_eq))
  | inbound ht _ _ hi hf =>
    exact .inl (hstep ht.ne_ended
      ((Writes.of_eq ht.pc.2.1).trans (hi.writes.trans (.finishes hcont hf))))
  | connect ht _ hs => exact .inl (hstep ht.ne_ended ((Writes.of_eq ht.pc.2.1).trans (.of_eq hs.out_eq)))
  | closing ht _ hc => exact .inr ⟨_, _, _, _, ht, rfl, hc, rfl⟩
  | readError ht _ =>
    exact .inl (hstep ht.ne_ended ((Writes.of_eq ht.pc.2.1).trans (.breakLoop hcont _)))
  | drained hpc _ => exact .inl (hstep (by rw [hpc]; nofun) (.flushThen hcont _))
  | tcpFailed hpc => exact .inl (hstep (by rw [hpc]; nofun) (.of_eq rfl))
  | spawned hpc hf => exact .inl (hstep (by rw [hpc]; nofun) (hfinish hf rfl))
  | sendFailed hpc hf => exact .inl (hstep (by rw [hpc]; nofun) (hfinish hf rfl))
  | udpRefused hpc hf =>
    exact .inl (hstep (by rw [hpc]; nofun) ((Writes.emit (by simp)).trans (.finishes hcont hf)))
  | udpThrottled hpc hf =>
    have hw : Writes (· ≠ .wsClose) (l.newFlag _) l' :=
      (Writes.emit (by simp)).trans (.finishes hcont hf)
    exact .inl (hstep (by rw [hpc]; nofun) hw)
  | udpAccepted hpc _ hf => exact .inl (hstep (by rw [hpc]; nofun) (hfinish hf rfl))
  | phase0 hpc hd => exact .inl (hstep (by rw [hpc]; nofun) (.of_eq hd.out_eq))
  | phase0End hpc => exact .inl (hstep (by rw [hpc]; nofun) (.of_eq rfl))
  | deadEnd hpc => exact .inl (hstep (by rw [hpc]; nofun) (.of_eq rfl))
  | deadOne hpc =>
    exact .inl (hstep (by rw [hpc]; nofun) (Writes.emit (l := l) (by simp)))
  | event _ hpc hd =>
    refine .inl (hstep ?_ hd.writes)
    rcases hpc with ⟨hpc, -⟩ | ⟨hpc | hpc, -⟩ <;> rw [hpc] <;> nofun
  | batch hpc =>
    refine .inl (hstep ?_ (.emit (l := l) (by simp)))
    rcases hpc with ⟨hpc, -⟩ | ⟨hpc, -⟩ <;> rw [hpc] <;> nofun
  | restEnd hpc => exact .inl (hstep (by rw [hpc]; nofun) (.of_eq rfl))
  | timedOut hpc => exact .inl (hstep (by rw [hpc]; nofun) (.of_eq rfl))
  | noPing hpc => exact .inl (hstep (by rw [hpc]; nofun) (.of_eq rfl))
  | ping hpc => exact .inl (hstep (by rw [hpc]; nofun) (.emit (l := l) (by simp)))

/-- A closing frame at the head of the loop is answered with a Close. -/
theorem LoopStep.of_closes {r : WispFrameResult} (h : LoopStep S l (some r) l')
    (hc : r.closes = true) (hpc : l.pc = .inner) :
    ∃ site i l₁, Takes l site i l₁ ∧ l' = (l₁.emit [.wsClose]).breakLoop site := by
  cases h with
  | deferred h => rw [hpc] at h; cases h
  | deferredConnect h => rw [hpc] at h; cases h
  | inbound _ _ h => rw [hc] at h; cases h
  | connect _ _ hs => cases hs <;> cases hc
  | closing ht _ _ => exact ⟨_, _, _, ht, rfl⟩

/-- The frames of a closing step: CONTINUEs follow the Close if the frame came from the buffer. -/
theorem close_out {site : Site} {i : WsInput} {l₁ : Loop} (ht : Takes l site i l₁)
    (hup : l.up = true) :
    ((l₁.emit [.wsClose]).breakLoop site).out =
      l.out ++ .wsClose :: if l.pc = .inner then l.continueFrames else [] := by
  obtain ⟨hpc, hout, hup₁, hcont⟩ := ht.pc
  rcases hpc with ⟨hpc, rfl⟩ | ⟨hpc, rfl⟩
  · have hframes : (l₁.emit [.wsClose]).continueFrames = l.continueFrames := by
      unfold Loop.continueFrames
      rw [← hcont]
      rfl
    rw [hpc, if_pos rfl, ← hframes]
    refine ((l₁.emit [.wsClose]).emit_out _).trans ?_
    rw [Loop.emit_out, show (l₁.emit [.wsClose]).up = l.up from hup₁, hup₁, hup, hout]
    simp
  · rw [hpc, if_neg nofun]
    refine (l₁.emit_out _).trans ?_
    rw [hup₁, hup, hout]
    rfl

theorem breakLoop_out_down {l₁ : Loop} (hup : l₁.up = false) (site : Site) :
    ((l₁.emit [.wsClose]).breakLoop site).out = l₁.out := by
  have hemit : ∀ fs, (l₁.emit fs).out = l₁.out := fun fs => by rw [Loop.emit_out, hup]; simp
  cases site with
  | inner =>
    refine ((l₁.emit [.wsClose]).emit_out _).trans ?_
    rw [show (l₁.emit [.wsClose]).up = l₁.up from rfl, hup, hemit]
    simp
  | deferred => exact hemit _
  | select => exact hemit _

/-! ## Runs -/

theorem handled_main {c : Conn} {a : Act} {r : WispFrameResult} (h : c.handled S a = some r) :
    ∃ e, a = .main e ∧ c.handled S (.main {}) = some r := by
  cases a with
  | main e => exact ⟨e, rfl, h⟩
  | _ => cases h

/-- The main task has not written a Close yet, or it has ended. -/
theorem Sealed.not_mem (h : Sealed l) (hpc : l.pc ≠ .ended) : .wsClose ∉ l.out :=
  fun hm => hpc (h hm).1

theorem Sealed.step {c c' : Conn} {a : Act} (h : Sealed c.loop)
    (hs : LoopStep S c.loop (c.handled S a) c'.loop) (hok : CleanClose S c a c') :
    Sealed c'.loop := by
  rcases hs.close_cases with ⟨⟨fs, hout, hfs⟩, hend⟩ | ⟨site, i, r, l₁, ht, hr, hc, heq⟩
  · intro hm
    rw [hout] at hm
    rcases List.mem_append.mp hm with hm | hm
    · obtain ⟨hpc, pre, hpre, hn⟩ := h hm
      obtain ⟨hpc', hout'⟩ := hend hpc
      exact ⟨hpc', pre, hout'.trans hpre, hn⟩
    · exact absurd rfl (hfs _ hm)
  · obtain ⟨e, rfl, hr⟩ := handled_main hr
    have hn := h.not_mem ht.ne_ended
    rw [heq]
    intro hm
    refine ⟨Loop.breakLoop_pc _ _, c.loop.out, ?_, hn⟩
    cases hup : c.loop.up with
    | true =>
      -- The condition leaves no CONTINUE to flush.
      have hcont : (if c.loop.pc = .inner then c.loop.continueFrames else []) = [] := by
        split
        · rename_i hpc
          have hnone : c.pendingContinues = [] := by
            by_contra hne
            have := Conn.closesBatch_iff.mpr ⟨hup, hpc, hne, r, hr, hc⟩
            simp [CleanClose, this] at hok
          simp only [Loop.continueFrames, Conn.loop, hnone, List.map_nil]
        · rfl
      rw [close_out ht hup, hcont]
    | false =>
      rw [breakLoop_out_down (ht.pc.2.2.1.trans hup), ht.pc.2.1] at hm
      exact absurd hm hn

theorem Reach.sealed {c : Conn} (h : (sys S).Reach (CleanClose S) c) : Sealed c.loop := by
  refine Reach.loop (I := Sealed) ?_ (fun _ _ _ _ hi => hi) ?_ h
  · intro frame hm
    cases hm
  · intro c a c' _ hi hok hs
    exact hi.step hs hok

/-- In a run in which no closing frame is taken from the buffer while CONTINUEs wait, nothing follows
the WebSocket Close; and a step of the main task keeps it so exactly if it meets the condition. -/
theorem close_is_last {c : Conn} (h : (sys S).Reach (CleanClose S) c) :
    ClosesLast c.out ∧ ∀ e c', step S c (.main e) = some c' →
      (ClosesLast c'.out ↔ CleanClose S c (.main e) c') := by
  have hsealed := Reach.sealed h
  refine ⟨hsealed.closesLast, ?_⟩
  intro e c' hs
  refine ⟨?_, fun hok => (hsealed.step (step_loop rfl hs) hok).closesLast⟩
  intro hlast
  by_contra hbad
  simp only [CleanClose, Bool.not_eq_true', Bool.not_eq_false] at hbad
  obtain ⟨hup, hpc, hne, r, hr, hc⟩ := Conn.closesBatch_iff.mp hbad
  have hstep := step_loop rfl hs
  rw [show c.handled S (.main e) = some r from hr] at hstep
  obtain ⟨site, i, l₁, ht, heq⟩ := hstep.of_closes hc hpc
  have hout := close_out ht hup
  rw [← heq, if_pos (show c.loop.pc = .inner from hpc)] at hout
  refine hne (List.map_eq_nil_iff.mp (hlast c.out _ hout))

/-- The client closes the WebSocket. -/
def closeConnection : Act := .client (.frame { opcode := .close, payload := [] })

/-- The client opens stream 1 and closes the WebSocket while the main task waits in `select!`. -/
def closeAlone : List Act := attachOne ++ [closeConnection, .main {}]

theorem close_is_last_alone :
    ∃ c, (sys tiny).Reach (CleanClose tiny) c ∧ .wsClose ∈ c.out ∧ ClosesLast c.out := by
  obtain ⟨c, hr, hp⟩ := Reach.of_run tiny (CleanClose tiny) closeAlone
    (fun c => decide (.wsClose ∈ c.out)) (by decide +kernel)
  exact ⟨c, hr, of_decide_eq_true hp, (close_is_last hr).1⟩

/-- Two DATA packets of stream 1 and the Close arrive together. -/
def closeInBatch : List Act :=
  attachOne ++ [dataOne 7, dataOne 8, closeConnection,
    .main { more := 2, writes := [.ok 1, .ok 1] }, .main { writes := [.ok 1, .ok 1] }, .main {}]

/-- The CONTINUE of the second packet is written after the WebSocket Close. -/
theorem continue_after_close :
    ∃ c pre, (sys tiny).Reach Sys.Any c ∧ c.out = pre ++ [.wsClose, .continue 1 1] ∧
      ¬ ClosesLast c.out := by
  obtain ⟨c, hr, hp⟩ := Reach.of_run tiny Sys.Any closeInBatch
    (fun c => decide (c.out.drop (c.out.length - 2) = [.wsClose, .continue 1 1])) (by decide +kernel)
  have hout : c.out = c.out.take (c.out.length - 2) ++ [.wsClose, .continue 1 1] := by
    rw [← of_decide_eq_true hp, List.take_append_drop]
  refine ⟨c, _, hr, hout, ?_⟩
  intro hlast
  cases hlast _ _ hout

end ShrimpWisp
