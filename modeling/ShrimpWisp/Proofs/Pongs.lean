import ShrimpWisp.Proofs.Agreement
import ShrimpWisp.Proofs.Wire

/-!
# Pings of the client

The main task answers a WebSocket Ping itself, with a Pong of the first 125 bytes of its payload.
These are the whole payload: both parsers refuse a longer control frame (`handled_ping`).

* `pings_answered`: whatever else happens, each Ping that is handled is answered by one Pong with its
  payload, in order, and no other Pong is written. If the socket fails, the last Pongs are missing.
-/

namespace ShrimpWisp

variable {S : Setup}

/-- The payloads of the Pongs that were written. -/
def pongsOf (l : List ClientFrame) : List (List UInt8) :=
  l.filterMap fun
    | .pong payload => some payload
    | _ => none

/-- The payload of a Ping, which a Pong is to have. -/
def WispFrameResult.pong : WispFrameResult → Option (List UInt8)
  | .control f => if f.opcode = .ping then some f.payload else none
  | .wisp _ _ _ => none

/-- The payloads that the Pings of the log ask for. -/
def pingsOf (log : List WispFrameResult) : List (List UInt8) := log.filterMap (·.pong)

theorem pongsOf_append (l l' : List ClientFrame) : pongsOf (l ++ l') = pongsOf l ++ pongsOf l' :=
  List.filterMap_append ..

theorem pingsOf_append (l l' : List WispFrameResult) :
    pingsOf (l ++ l') = pingsOf l ++ pingsOf l' := List.filterMap_append ..

/-! ## Frames other than control frames -/

/-- The frame is no Pong. -/
def ClientFrame.Other (f : ClientFrame) : Prop := ∀ payload, f ≠ .pong payload

theorem Writes.pongs {l l' : Loop} (h : Writes ClientFrame.Other l l') :
    pongsOf l'.out = pongsOf l.out := by
  obtain ⟨fs, hout, hfs⟩ := h
  have hnone : pongsOf fs = [] := by
    rw [pongsOf, List.filterMap_eq_nil_iff]
    intro f hf
    cases f with
    | pong payload => exact absurd rfl (hfs _ hf payload)
    | _ => rfl
  rw [hout, pongsOf_append, hnone, List.append_nil]

theorem other_continue (s : StreamId) (n : UInt32) : (ClientFrame.continue s n).Other := by
  rintro _ ⟨⟩

theorem other_close (s : StreamId) (reason : CloseReason) (cause : Option CancelFlag) :
    (ClientFrame.close s reason cause).Other := by
  rintro _ ⟨⟩

theorem Writes.other_one {l : Loop} {f : ClientFrame} (h : f.Other) :
    Writes ClientFrame.Other l (l.emit [f]) :=
  .emit fun g hg => by rwa [List.mem_singleton.mp hg]

/-- A Wisp packet is not answered with a Pong. -/
theorem Inbound.other {l l' : Loop} {t : UInt8} {s : StreamId} {payload : List UInt8}
    (h : Inbound S l (.wisp t s payload) l') : Writes ClientFrame.Other l l' := by
  cases h with
  | ignored _ => exact .of_eq rfl
  | early _ => exact .of_eq rfl
  | upload _ _ => exact .of_eq rfl
  | uploadDead _ _ => exact Writes.other_one (l := l) (other_close _ _ _)
  | close => exact .of_eq rfl
  | refused _ => exact .other_one (other_close _ _ _)
  | throttled _ => exact Writes.other_one (l := l) (other_close _ _ _)

/-- A step that handles no control frame writes no Pong. -/
theorem LoopStep.other {l l' : Loop} {r : Option WispFrameResult} (h : LoopStep S l r l')
    (hr : ∀ f, r ≠ some (.control f)) : Writes ClientFrame.Other l l' := by
  have hin : ∀ {l₁ l₂ x}, (∀ f, some x ≠ some (WispFrameResult.control f)) → Inbound S l₁ x l₂ →
      Writes ClientFrame.Other l₁ l₂ := by
    intro l₁ l₂ x hx hi
    cases x with
    | control f => exact absurd rfl (hx f)
    | wisp t s payload => exact hi.other
  have hfinish : ∀ {l₁ site}, Finishes l₁ site l' → Writes ClientFrame.Other l l₁ →
      Writes ClientFrame.Other l l' :=
    fun hf hw => hw.trans (.finishes other_continue hf)
  have hclose : ∀ {l₁ : Loop} s reason cause, Writes ClientFrame.Other l₁
      (l₁.emit [.close s reason cause]) :=
    fun s reason cause => .other_one (other_close s reason cause)
  cases h with
  | start _ hf => exact .finishes other_continue hf
  | deferred _ hi hf => exact hfinish hf (hin hr hi)
  | deferredConnect _ hs => exact .of_eq hs.out_eq
  | inbound ht _ _ hi hf => exact hfinish hf ((Writes.of_eq ht.pc.2.1).trans (hin hr hi))
  | connect ht _ hs => exact (Writes.of_eq ht.pc.2.1).trans (.of_eq hs.out_eq)
  | closing ht _ _ =>
    exact (Writes.of_eq ht.pc.2.1).trans
      ((Writes.other_one (by rintro _ ⟨⟩)).trans (.breakLoop other_continue _))
  | readError ht _ => exact (Writes.of_eq ht.pc.2.1).trans (.breakLoop other_continue _)
  | drained _ _ => exact .flushThen other_continue _
  | spawned _ hf => exact hfinish hf (.of_eq rfl)
  | sendFailed _ hf => exact hfinish hf (.of_eq rfl)
  | udpRefused _ hf => exact hfinish hf (hclose _ _ _)
  | udpThrottled _ hf => exact hfinish hf (@hclose l _ _ _)
  | udpAccepted _ _ hf => exact hfinish hf (.of_eq rfl)
  | phase0 _ hd => exact .of_eq hd.out_eq
  | deadOne _ => exact @hclose l _ _ _
  | event _ _ hd => exact hd.writes_of other_close other_continue
  | batch _ =>
    refine Writes.emit (l := l) ?_
    intro f hf
    obtain ⟨m, -, rfl⟩ := List.mem_map.mp hf
    rintro _ ⟨⟩
  | ping _ => exact Writes.other_one (l := l) (by rintro _ ⟨⟩)
  | _ => exact .of_eq rfl

/-! ## Control frames -/

theorem pongsOf_finish (c : Conn) (site : Site) :
    pongsOf (c.finish S site).out = pongsOf c.out :=
  (Writes.finishes other_continue (Conn.finishes c site) : Writes _ c.loop _).pongs

theorem pongsOf_write (c : Conn) (f : ClientFrame) :
    pongsOf (c.write f).out = pongsOf c.out ++ if c.clientUp then pongsOf [f] else [] := by
  unfold Conn.write Conn.writeAll
  dsimp only
  split
  · exact pongsOf_append _ _
  · exact (List.append_nil _).symm

/-- A Ping that the reader accepted is answered, and the other control frames are not. -/
theorem pongsOf_control (c : Conn) (site : Site) (e : Env) {f : WsFrame}
    (hlen : f.opcode = .ping → f.payload.length ≤ 125) :
    pongsOf (c.handleInbound S site e (some (.control f))).out =
      pongsOf c.out ++ if c.clientUp then (WispFrameResult.control f).pong.toList else [] := by
  have hnone : ∀ fs : List ClientFrame, f.opcode ≠ .ping → pongsOf fs = pongsOf c.out →
      pongsOf fs =
        pongsOf c.out ++ if c.clientUp then (WispFrameResult.control f).pong.toList else [] := by
    intro fs hne h
    rw [WispFrameResult.pong, if_neg hne, Option.toList_none, ite_self, List.append_nil]
    exact h
  unfold Conn.handleInbound
  dsimp only
  split
  · next ho =>
    refine hnone _ (by rw [ho]; rintro ⟨⟩) ?_
    have hbreak : Writes ClientFrame.Other (c.write .wsClose).loop
        ((c.write .wsClose).breakLoop site).loop := by
      rw [Conn.loop_breakLoop]
      exact .breakLoop other_continue site
    refine hbreak.pongs.trans ((pongsOf_write c .wsClose).trans ?_)
    rw [show pongsOf [.wsClose] = [] from rfl, ite_self, List.append_nil]
  · next ho =>
    rw [pongsOf_finish, pongsOf_write, List.take_of_length_le (hlen ho), WispFrameResult.pong,
      if_pos ho]
    rfl
  · next ho => exact hnone _ (by rw [ho]; rintro ⟨⟩) (pongsOf_finish _ site)
  · next ho _ => exact hnone _ ho (pongsOf_finish _ site)

/-! ## The runs -/

theorem deferredResult_ne_control {payload : List UInt8} {f : WsFrame} :
    Conn.deferredResult S payload ≠ some (.control f) := by
  unfold Conn.deferredResult
  split
  · rintro ⟨⟩
  · split <;> rintro ⟨⟩

/-- A Ping that is handled is short. -/
theorem Conn.handled_ping {c : Conn} {a : Act} {f : WsFrame}
    (hh : c.handled S a = some (.control f)) (ho : f.opcode = .ping) : f.payload.length ≤ 125 := by
  have hc : f.opcode.isControl = true := by rw [ho]; rfl
  unfold handled at hh
  split at hh
  · split at hh
    · exact absurd hh deferredResult_ne_control
    · obtain ⟨i, -, hread⟩ := Option.bind_eq_some_iff.mp hh
      exact tryReadWispFrame_control hread hc
    · obtain ⟨i, -, hread⟩ := Option.bind_eq_some_iff.mp hh
      exact readWispFrame_control hread hc
    · cases hh
  · cases hh

/-- A step that handles a control frame does what `handle_inbound!` does with it. -/
theorem Conn.stepMain_control {c c' : Conn} {e : Env} {f : WsFrame}
    (hh : c.handled S (.main e) = some (.control f)) (hs : c.stepMain S e = some c') :
    ∃ (c₁ : Conn) (site : Site), c₁.out = c.out ∧ c₁.clientUp = c.clientUp ∧
      c' = c₁.handleInbound S site e (some (.control f)) := by
  have htaken : ∀ (c₁ : Conn) (site : Site), c₁.out = c.out → c₁.clientUp = c.clientUp →
      (c₁.resetIdle S).handleInbound S site e (some (.control f)) = c' →
      ∃ (c₁ : Conn) (site : Site), c₁.out = c.out ∧ c₁.clientUp = c.clientUp ∧
        c' = c₁.handleInbound S site e (some (.control f)) := by
    intro c₁ site hout hup h
    refine ⟨c₁.resetIdle S, site, ?_, ?_, h.symm⟩
    · unfold resetIdle
      split <;> exact hout
    · unfold resetIdle
      split <;> exact hup
  unfold handled at hh
  dsimp only at hh
  split at hh
  · exact absurd hh deferredResult_ne_control
  · next hpc =>
    cases hbuf : c.wsBuf with
    | nil =>
      rw [hbuf] at hh
      cases hh
    | cons i rest =>
      rw [hbuf] at hh
      have hread : tryReadWispFrame S.frameLimit i = some (.control f) := hh
      simp only [stepMain, hpc, hbuf, hread, Option.some.injEq] at hs
      exact htaken { c with pc := .inner, wsBuf := rest } .inner rfl rfl hs
  · next hpc =>
    simp only [stepMain, hpc] at hs
    cases hbuf : c.wsBuf with
    | cons i rest =>
      rw [hbuf] at hh
      have hread : readWispFrame S.frameLimit i = some (.control f) := hh
      simp only [stepSelect, hbuf, hread, Option.some.injEq] at hs
      exact htaken { c with wsBuf := rest, tried := [] } .select rfl rfl hs
    | nil =>
      cases hwire : c.wire with
      | nil =>
        rw [hbuf, hwire] at hh
        cases hh
      | cons i rest =>
        rw [hbuf, hwire] at hh
        have hread : readWispFrame S.frameLimit i = some (.control f) := hh
        simp only [stepSelect, hbuf, hwire, hread, Option.some.injEq] at hs
        exact htaken
          { c with wsBuf := rest.take e.more, wire := rest.drop e.more, tried := [] } .select rfl rfl
          hs
  · cases hh

/-- A step answers the Ping that it handles, and writes no other Pong. -/
theorem pongsOf_step {c c' : Conn} {a : Act} (hs : step S c a = some c') :
    pongsOf c'.out =
      pongsOf c.out ++ if c.clientUp then pingsOf (c.handled S a).toList else [] := by
  by_cases hr : ∃ f, c.handled S a = some (.control f)
  · obtain ⟨f, hf⟩ := hr
    cases a with
    | main e =>
      obtain ⟨c₁, site, hout, hup, rfl⟩ := Conn.stepMain_control hf hs
      rw [pongsOf_control c₁ site e (Conn.handled_ping hf), hout, hup, hf]
      unfold pingsOf
      cases h : (WispFrameResult.control f).pong <;> simp [h]
    | _ => cases hf
  · have hping : pingsOf (c.handled S a).toList = [] := by
      cases hh : c.handled S a with
      | none => rfl
      | some r =>
        cases r with
        | wisp t s payload => rfl
        | control f => exact absurd ⟨f, hh⟩ hr
    rw [hping, ite_self, List.append_nil]
    cases ha : a.isClient with
    | false => exact ((step_loop ha hs).other fun f hf => hr ⟨f, hf⟩).pongs
    | true =>
      obtain ⟨wire, credit, seen, hc⟩ := step_client ha hs
      have hout : c'.out = c.out := congrArg Loop.out hc
      rw [hout]

/-- Every Ping that is handled is answered with one Pong of its payload, in order, and no other Pong
is written. Only those after a failed write are missing. -/
theorem pings_answered {c : Conn} {log : List WispFrameResult}
    (h : (loggedSys S).Reach Sys.Any (c, log)) :
    pongsOf c.out <+: pingsOf log ∧ (c.clientUp = true → pongsOf c.out = pingsOf log) := by
  refine h.invariant (I := fun p => pongsOf p.1.out <+: pingsOf p.2 ∧
    (p.1.clientUp = true → pongsOf p.1.out = pingsOf p.2)) ?_ ?_
  · rintro ⟨_, _⟩ ⟨⟨frame, rfl⟩, rfl⟩
    exact ⟨List.prefix_refl _, fun _ => rfl⟩
  · rintro ⟨c, log⟩ a ⟨c', log'⟩ _ ⟨hle, heq⟩ hs _
    obtain ⟨hs, rfl⟩ := Sys.logged_step hs
    have hs : step S c a = some c' := hs
    have hout := pongsOf_step hs
    dsimp only at hle heq ⊢
    cases hup : c.clientUp with
    | true =>
      have hpongs : pongsOf c'.out = pingsOf (log ++ (c.handled S a).toList) := by
        rw [hout, hup, if_pos rfl, heq hup, pingsOf_append]
      rw [hpongs]
      exact ⟨List.prefix_refl _, fun _ => rfl⟩
    | false =>
      rw [hup, if_neg Bool.false_ne_true, List.append_nil] at hout
      constructor
      · rw [hout, pingsOf_append]
        exact hle.trans (List.prefix_append _ _)
      · intro hup'
        have hdown := ((step_out hs).2 hup).2
        rw [hup'] at hdown
        cases hdown

/-- A Ping of the client. -/
def pingOne : WsInput := .frame { opcode := .ping, payload := [1, 2] }

/-- A Ping between two packets is answered. -/
theorem pings_answered_one :
    ∃ c log, (loggedSys { config := {} }).Reach Sys.Any (c, log) ∧ pingsOf log = [[1, 2]] ∧
      pongsOf c.out = pingsOf log := by
  obtain ⟨c, log, hr, hp⟩ := Reach.of_logged_run { config := {} } Sys.Any
    (attachOne ++ [dataOne 7, .client pingOne, dataOne 8, .main { more := 2 }, .main {}, .main {}])
    (fun c log => decide (c.clientUp = true ∧ pingsOf log = [[1, 2]])) (by decide +kernel)
  obtain ⟨hup, hpings⟩ := of_decide_eq_true hp
  exact ⟨c, log, hr, hpings, (pings_answered hr).2 hup⟩

end ShrimpWisp
