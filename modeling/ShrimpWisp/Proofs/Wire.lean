import ShrimpWisp.Proofs.Downstream
import ShrimpWisp.Server.Loop
import ShrimpWisp.Ws.Writer

/-!
# The bytes on the wire

The connection with its client socket (`Wired`). The frames that a step writes go through the writers
of `Ws/Writer.lean` (`callsOf`), and the socket takes what it has room for. If a write fails, the
step goes on as one whose writes all fail: the results of the first writes of a step are ignored, and
that of its last one decides whether the connection ends.

* `encode`: a frame's bytes. `Sendable`: what the server promises about a frame.
* `wire_frames`: at all times the bytes that the socket took are a prefix of whole frames. As long
  as no write failed they are the frames `out` of the connection, so that history is what the client
  can read.
-/

namespace ShrimpWisp

variable {S : Setup}

/-! ## Frames and the calls that write them -/

/-- The bytes of a frame: a Binary frame with one Wisp packet, or a control frame. -/
def ClientFrame.encode : ClientFrame → List UInt8
  | .data m => encodeFrame .binary (buildDataHeader m.streamId ++ m.bytes)
  | .continue s n => encodeFrame .binary (buildContinueFrame s n)
  | .close s reason _ => encodeFrame .binary (buildCloseFrame s reason)
  | .ping => encodeFrame .ping []
  | .pong payload => encodeFrame .pong payload
  | .wsClose => encodeFrame .close []

/-- The length of the payload fits its field; a Pong has at most 125 bytes. -/
def ClientFrame.Sendable : ClientFrame → Prop
  | .data m => (buildDataHeader m.streamId ++ m.bytes).length < 2 ^ 63
  | .pong payload => payload.length ≤ 125
  | _ => True

/-- The bytes of frames, one after the other. -/
def wireBytes (fs : List ClientFrame) : List UInt8 := fs.flatMap ClientFrame.encode

/-- A call of a frame writer. -/
inductive Call where
  | binary (payload : List UInt8)
  | batched (frames : List (List UInt8))
  | pong (payload : List UInt8)
  | ping
  | close
  | flush (pending : List (StreamId × UInt32))

def Call.run (writer : Sink UInt8) : Call → Bool × Sink UInt8
  | .binary payload => writeWsBinaryFrame writer payload
  | .batched frames => writeWsFramesBatched writer frames
  | .pong payload => writeWsPongFrame writer payload
  | .ping => writeWsPingFrame writer
  | .close => writeWsCloseFrame writer
  | .flush pending => flushContinuesDirect writer pending

/-- What a call puts on the wire. -/
def Call.bytes : Call → List UInt8
  | .binary payload => encodeFrame .binary payload
  | .batched frames => frames.flatten
  | .pong payload => encodeFrame .pong (payload.take 125)
  | .ping => encodeFrame .ping []
  | .close => encodeFrame .close []
  | .flush pending => continueBytes pending

theorem Call.puts (call : Call) (writer : Sink UInt8) :
    writer.Puts call.bytes (call.run writer) := by
  cases call with
  | binary payload => exact puts_writeWsBinaryFrame writer payload
  | batched frames => exact puts_writeWsFramesBatched writer frames
  | pong payload => exact puts_writeWsPongFrame writer payload
  | ping => exact puts_writeWsPingFrame writer
  | close => exact puts_writeWsCloseFrame writer
  | flush pending => exact puts_flushContinuesDirect writer pending

/-- The calls of one step. Later ones are made whether or not an earlier one failed. -/
def perform (writer : Sink UInt8) : List Call → Bool × Sink UInt8
  | [] => (true, writer)
  | call :: calls =>
    let (ok, writer) := call.run writer
    let (ok', writer) := perform writer calls
    (ok && ok', writer)

theorem puts_perform (calls : List Call) (writer : Sink UInt8) :
    writer.Puts (calls.flatMap Call.bytes) (perform writer calls) := by
  induction calls generalizing writer with
  | nil => exact .nil writer
  | cons call calls ih => exact (call.puts writer).seq (ih _)

/-- A fresh buffer of a TCP reader, with whatever it holds. -/
abbrev FreshBuffer := { buf : List UInt8 // buf.length = bufCapacity }

section Calls

variable (fresh : DataMsg → FreshBuffer)

/-- The frame that the reader of a chunk made of it. A datagram has its sender. -/
def DataMsg.preframed (m : DataMsg) : List UInt8 :=
  match m.source with
  | none => preframeTcp (fresh m).1 m.streamId m.bytes
  | some _ => preframeUdp m.streamId m.bytes

theorem DataMsg.preframed_eq (m : DataMsg) :
    m.preframed fresh = encodeFrame .binary (buildDataHeader m.streamId ++ m.bytes) := by
  unfold DataMsg.preframed
  split
  · exact preframeTcp_eq (fresh m).2 _ _
  · exact preframeUdp_eq _ _

/-- The call for a frame, before the calls for the next ones. The CONTINUEs of a step are one flush,
its DATA frames are one batch, and every other frame has a call of its own. -/
def addCall : ClientFrame → List Call → List Call
  | .data m, .batched frames :: calls => .batched (m.preframed fresh :: frames) :: calls
  | .data m, calls => .batched [m.preframed fresh] :: calls
  | .continue s n, .flush pending :: calls => .flush ((s, n) :: pending) :: calls
  | .continue s n, calls => .flush [(s, n)] :: calls
  | .close s reason _, calls => .binary (buildCloseFrame s reason) :: calls
  | .ping, calls => .ping :: calls
  | .pong payload, calls => .pong payload :: calls
  | .wsClose, calls => .close :: calls

/-- The calls that write the frames of one step. -/
def callsOf (fs : List ClientFrame) : List Call := fs.foldr (addCall fresh) []

theorem bytes_addCall {f : ClientFrame} (hf : f.Sendable) (calls : List Call) :
    (addCall fresh f calls).flatMap Call.bytes = f.encode ++ calls.flatMap Call.bytes := by
  cases f with
  | data m =>
    cases calls with
    | nil => simp [addCall, Call.bytes, ClientFrame.encode, m.preframed_eq]
    | cons call calls =>
      cases call <;> simp [addCall, Call.bytes, ClientFrame.encode, m.preframed_eq]
  | «continue» s n =>
    cases calls with
    | nil => simp [addCall, Call.bytes, ClientFrame.encode, continueBytes]
    | cons call calls =>
      cases call <;> simp [addCall, Call.bytes, ClientFrame.encode, continueBytes]
  | close s reason cause => simp [addCall, Call.bytes, ClientFrame.encode]
  | ping => simp [addCall, Call.bytes, ClientFrame.encode]
  | pong payload =>
    have ht : payload.take 125 = payload := List.take_of_length_le hf
    simp [addCall, Call.bytes, ClientFrame.encode, ht]
  | wsClose => simp [addCall, Call.bytes, ClientFrame.encode]

theorem bytes_callsOf {fs : List ClientFrame} (h : ∀ f ∈ fs, f.Sendable) :
    (callsOf fresh fs).flatMap Call.bytes = wireBytes fs := by
  induction fs with
  | nil => rfl
  | cons f fs ih =>
    have hf := h f (List.mem_cons_self ..)
    rw [callsOf, List.foldr_cons, bytes_addCall fresh hf]
    change f.encode ++ (callsOf fresh fs).flatMap Call.bytes = _
    rw [ih fun g hg => h g (List.mem_cons_of_mem f hg), wireBytes, wireBytes, List.flatMap_cons]

end Calls

/-! ## The frames of a run -/

/-- Every kind of frame that a step can write, Pongs up to 125 bytes. -/
structure Allows (P : ClientFrame → Prop) : Prop where
  data : ∀ m, P (.data m)
  cont : ∀ s n, P (.continue s n)
  close : ∀ s reason cause, P (.close s reason cause)
  ping : P .ping
  pong : ∀ payload, payload.length ≤ 125 → P (.pong payload)
  wsClose : P .wsClose

theorem LoopStep.writes {P : ClientFrame → Prop} (hP : Allows P) {l l' : Loop}
    {r : Option WispFrameResult} (h : LoopStep S l r l') : Writes P l l' := by
  have hin : ∀ {l l' r}, Inbound S l r l' → Writes P l l' :=
    fun hi => hi.writes_of (fun s reason => hP.close s reason none) hP.pong
  have hfinish : ∀ {l₁ site}, Finishes l₁ site l' → l₁.out = l.out → Writes P l l' :=
    fun hf hout => (Writes.of_eq hout).trans (.finishes hP.cont hf)
  have hone : ∀ {f : ClientFrame}, P f → ∀ g ∈ [f], P g := fun hf g hg => by
    rwa [List.mem_singleton.mp hg]
  cases h with
  | start _ hf => exact .finishes hP.cont hf
  | deferred _ hi hf => exact (hin hi).trans (.finishes hP.cont hf)
  | deferredConnect _ hs => exact .of_eq hs.out_eq
  | inbound ht _ _ hi hf =>
    exact (Writes.of_eq ht.pc.2.1).trans ((hin hi).trans (.finishes hP.cont hf))
  | connect ht _ hs => exact (Writes.of_eq ht.pc.2.1).trans (.of_eq hs.out_eq)
  | closing ht _ _ =>
    exact (Writes.of_eq ht.pc.2.1).trans
      ((Writes.emit (hone hP.wsClose)).trans (.breakLoop hP.cont _))
  | readError ht _ => exact (Writes.of_eq ht.pc.2.1).trans (.breakLoop hP.cont _)
  | drained _ _ => exact .flushThen hP.cont _
  | spawned _ hf => exact hfinish hf rfl
  | sendFailed _ hf => exact hfinish hf rfl
  | udpRefused _ hf =>
    exact (Writes.emit (hone (hP.close _ _ _))).trans (.finishes hP.cont hf)
  | @udpThrottled _ _ _ _ k _ _ hf =>
    have hw : Writes P (l.newFlag k) l' :=
      (Writes.emit (hone (hP.close _ _ _))).trans (.finishes hP.cont hf)
    exact hw
  | udpAccepted _ _ hf => exact hfinish hf rfl
  | phase0 _ hd => exact .of_eq hd.out_eq
  | deadOne _ => exact Writes.emit (l := l) (hone (hP.close _ _ _))
  | event _ _ hd => exact hd.writes_of hP.close hP.cont
  | batch _ =>
    refine Writes.emit (l := l) ?_
    intro f hf
    obtain ⟨m, -, rfl⟩ := List.mem_map.mp hf
    exact hP.data m
  | ping _ => exact Writes.emit (l := l) (hone hP.ping)
  | _ => exact .of_eq rfl

/-- A Pong has at most 125 bytes. -/
def ClientFrame.Short : ClientFrame → Prop
  | .pong payload => payload.length ≤ 125
  | _ => True

theorem allows_short : Allows ClientFrame.Short where
  data _ := trivial
  cont _ _ := trivial
  close _ _ _ := trivial
  ping := trivial
  pong _ h := h
  wsClose := trivial

variable {c c' : Conn} {a : Act} {ok : Conn → Act → Conn → Prop}

theorem Reach.short (h : (sys S).Reach ok c) : ∀ f ∈ c.out, f.Short := by
  refine Reach.loop (I := fun l => ∀ f ∈ l.out, f.Short) ?_ ?_ ?_ h
  · intro frame f hf
    cases hf
  · intro l wire credit seen hi
    exact hi
  · intro c a c' _ hi _ hl f hf
    obtain ⟨fs, hout, hfs⟩ := hl.writes allows_short
    rw [hout] at hf
    rcases List.mem_append.mp hf with hf | hf
    · exact hi f hf
    · exact hfs f hf

theorem Effect.chunks {c d : Core} (he : Effect S c d) {m : DataMsg} (hm : m ∈ d.reads) :
    m ∈ c.reads ∨ m.bytes.length ≤ 65536 := by
  have hchunk : ∀ {k : StreamType} {bytes}, chunkOk k bytes = true → bytes.length ≤ 65536 := by
    intro k bytes h
    cases k <;> simp only [chunkOk, decide_eq_true_eq] at h <;> omega
  have happ : ∀ {n : DataMsg}, n.bytes.length ≤ 65536 → m ∈ c.reads ++ [n] →
      m ∈ c.reads ∨ m.bytes.length ≤ 65536 := by
    intro n hn hm
    rcases List.mem_append.mp hm with hm | hm
    · exact .inl hm
    · exact .inr (List.mem_singleton.mp hm ▸ hn)
  cases he with
  | read _ _ _ _ _ _ hok => exact happ (hchunk hok) hm
  | readCancelled _ _ _ _ _ hok => exact happ (hchunk hok) hm
  | _ => exact .inl hm

/-- A chunk is what one read can return. -/
theorem Reach.chunks (h : (sys S).Reach ok c) : ∀ m ∈ c.reads, m.bytes.length ≤ 65536 := by
  refine Reach.core (R := fun _ _ => True) (fun _ _ _ _ => trivial)
    (I := fun c => ∀ m ∈ c.reads, m.bytes.length ≤ 65536) nofun ?_ h
  intro c d fs _ hi he _ _ m hm
  rcases he.chunks hm with hm | hm
  · exact hi m hm
  · exact hm

/-- In every reachable state the frames that were written are sendable. -/
theorem Reach.sendable (h : (sys S).Reach ok c) : ∀ f ∈ c.out, f.Sendable := by
  intro f hf
  cases f with
  | data m =>
    have hpipe : m ∈ c.core.pipe :=
      List.mem_append_left _ (List.mem_filterMap.mpr ⟨.data m, hf, rfl⟩)
    have hlen := Reach.chunks h m ((Reach.flow h).sent hpipe)
    change (buildDataHeader m.streamId ++ m.bytes).length < 2 ^ 63
    rw [List.length_append, length_buildDataHeader]
    omega
  | pong payload => exact Reach.short h _ hf
  | _ => trivial

theorem Core.emit_down {c : Core} (h : c.up = false) (fs : List ClientFrame) :
    (c.emit fs).out = c.out := by
  simp [Core.emit, h]

theorem Effect.out_append {c d : Core} (he : Effect S c d) : ∃ fs, d.out = c.out ++ fs := by
  have hemit : ∀ (e : Core) fs, e.out = c.out → ∃ gs, (e.emit fs).out = c.out ++ gs := by
    intro e fs h
    cases hup : e.up with
    | true => exact ⟨fs, by simp [Core.emit, hup, h]⟩
    | false => exact ⟨[], by simp [Core.emit, hup, h]⟩
  cases he with
  | ended _ _ _ => exact hemit _ _ rfl
  | batch _ => exact hemit _ _ rfl
  | _ => exact ⟨[], (List.append_nil _).symm⟩

theorem Effect.out_down {c d : Core} (he : Effect S c d) (h : c.up = false) :
    d.out = c.out ∧ d.up = false := by
  cases he with
  | ended _ _ _ => exact ⟨Core.emit_down h _, h⟩
  | batch _ => exact ⟨Core.emit_down h _, h⟩
  | down => exact ⟨rfl, rfl⟩
  | _ => exact ⟨rfl, h⟩

/-- A step appends frames, and none once a write has failed. -/
theorem step_out (hs : step S c a = some c') :
    (∃ fs, c'.out = c.out ++ fs) ∧
      (c.clientUp = false → c'.out = c.out ∧ c'.clientUp = false) := by
  obtain ⟨d, fs, he, -, hc⟩ := step_core hs
  have hout : c'.out = (d.emit fs).out := by rw [← hc]; rfl
  have hup : c'.clientUp = (d.emit fs).up := by rw [← hc]; rfl
  constructor
  · obtain ⟨gs, hg⟩ := he.out_append
    rw [hout, Core.emit]
    dsimp only
    split
    · exact ⟨gs ++ fs, by rw [hg, List.append_assoc]; rfl⟩
    · exact ⟨gs, hg⟩
  · intro h
    obtain ⟨ho, hd⟩ := he.out_down h
    exact ⟨hout.trans ((Core.emit_down hd fs).trans ho), hup.trans hd⟩

/-! ## The connection with its socket -/

/-- A connection and the client's socket. -/
structure Wired where
  conn : Conn
  client : Sink UInt8

/-- A step with its writes. If one of them fails, all further ones do: the step is then one of a
connection whose client is gone. -/
def wiredStep (S : Setup) (fresh : DataMsg → FreshBuffer) (w : Wired) (a : Act) : Option Wired :=
  match step S w.conn a with
  | none => none
  | some c =>
    match perform w.client (callsOf fresh (c.out.drop w.conn.out.length)) with
    | (true, client) => some ⟨c, client⟩
    | (false, client) => (step S { w.conn with clientUp := false } a).map (Wired.mk · client)

/-- The connection after the handshake, on a socket with any room. -/
def wired (S : Setup) (fresh : DataMsg → FreshBuffer) : Sys Wired Act where
  init w := (∃ deferredFrame, w.conn = Conn.start S deferredFrame) ∧ w.client.sent = []
  step := wiredStep S fresh

/-- The invariant: the bytes are whole frames and perhaps a part of one more. -/
structure OnWire (S : Setup) (w : Wired) : Prop where
  reach : (sys S).Reach Sys.Any w.conn
  up : w.conn.clientUp = true → w.client.sent = wireBytes w.conn.out
  part : ∃ fs, (∀ f ∈ fs, f.Sendable) ∧ w.client.sent <+: wireBytes fs

theorem wireBytes_append (fs gs : List ClientFrame) :
    wireBytes (fs ++ gs) = wireBytes fs ++ wireBytes gs := List.flatMap_append

theorem OnWire.step {fresh : DataMsg → FreshBuffer} {w w' : Wired} (h : OnWire S w) {a : Act}
    (hs : wiredStep S fresh w a = some w') : OnWire S w' := by
  unfold wiredStep at hs
  split at hs
  · cases hs
  next c hc =>
  have hr : (sys S).Reach Sys.Any c := .step a h.reach hc trivial
  obtain ⟨⟨fs, hout⟩, hdown⟩ := step_out hc
  have hsend : ∀ f ∈ fs, f.Sendable := fun f hf =>
    Reach.sendable hr f (hout ▸ List.mem_append_right _ hf)
  rw [hout, List.drop_left] at hs
  have hputs := puts_perform (callsOf fresh fs) w.client
  rw [bytes_callsOf fresh hsend] at hputs
  -- The bytes that are new with this step belong to the frames `fs`, or there are none.
  have hpart : ∀ sent p, p <+: wireBytes fs → sent = w.client.sent ++ p →
      ∃ gs, (∀ f ∈ gs, f.Sendable) ∧ sent <+: wireBytes gs := by
    rintro _ p hp rfl
    cases hup : w.conn.clientUp with
    | true =>
      refine ⟨c.out, Reach.sendable hr, ?_⟩
      rw [hout, wireBytes_append, h.up hup]
      exact (List.prefix_append_right_inj _).mpr hp
    | false =>
      have hnil : fs = [] := List.append_cancel_left (by rw [← hout, (hdown hup).1, List.append_nil])
      rw [hnil] at hp
      rw [List.prefix_nil.mp hp, List.append_nil]
      exact h.part
  split at hs
  · next client hperf =>
    cases hs
    rw [hperf] at hputs
    have hall := hputs.all rfl
    refine ⟨hr, fun hup => ?_, hpart _ _ (List.prefix_refl _) hall⟩
    have hup' : w.conn.clientUp = true := by
      cases hu : w.conn.clientUp with
      | true => rfl
      | false => exact absurd hup (by rw [(hdown hu).2]; nofun)
    rw [hall, hout, wireBytes_append, h.up hup']
  · next client hperf =>
    rw [hperf] at hputs
    obtain ⟨-, p, hp, hsent⟩ := hputs.part rfl
    obtain ⟨c', hc', rfl⟩ := Option.map_eq_some_iff.mp hs
    have hd : (sys S).Reach Sys.Any { w.conn with clientUp := false } :=
      .step .clientDown h.reach rfl trivial
    have hgone := (step_out hc').2 rfl
    exact ⟨.step a hd hc' trivial, fun hup => absurd hup (by rw [hgone.2]; nofun),
      hpart _ p hp hsent⟩

/-- In every run, whatever the socket takes at each write, the bytes that it took are a prefix of
whole frames, and as long as no write failed they are the frames that the connection wrote. -/
theorem wire_frames {fresh : DataMsg → FreshBuffer} {w : Wired}
    (h : (wired S fresh).Reach Sys.Any w) :
    (∃ fs, (∀ f ∈ fs, f.Sendable) ∧ w.client.sent <+: wireBytes fs) ∧
      (w.conn.clientUp = true → w.client.sent = wireBytes w.conn.out) := by
  have hw : OnWire S w := by
    refine h.invariant ?_ fun w a w' _ hi hs _ => hi.step hs
    rintro w ⟨⟨deferredFrame, hc⟩, hs⟩
    refine ⟨.init ⟨deferredFrame, hc⟩, fun _ => ?_, [], nofun, ?_⟩
    · rw [hs, hc]
      rfl
    · rw [hs]
      exact List.prefix_refl _
  exact ⟨hw.part, hw.up⟩

/-- A Ping that arrives while the loop waits. -/
def pinged : List Act :=
  List.replicate 5 (.main {}) ++ [.client (.frame { opcode := .ping, payload := [7, 8, 9] }), .main {}]

/-- Zeroed buffers. -/
def zeroed (_ : DataMsg) : FreshBuffer := ⟨List.replicate bufCapacity 0, List.length_replicate⟩

/-- A Pong in three writes of which the last one fails: three bytes of five. -/
theorem wire_frames_cut :
    ∃ w, (wired { config := {} } zeroed).Reach Sys.Any w ∧ w.client.sent = [0x8A, 3, 7] ∧
      (∃ fs, (∀ f ∈ fs, f.Sendable) ∧ w.client.sent <+: wireBytes fs) ∧
      (w.conn.clientUp = true → w.client.sent = wireBytes w.conn.out) := by
  have hinit : (wired { config := {} } zeroed).init
      ⟨Conn.start { config := {} } none, ⟨[], [1, 2, 0]⟩⟩ := ⟨⟨none, rfl⟩, rfl⟩
  have hrun : (((wired { config := {} } zeroed).run Sys.Any
      ⟨Conn.start { config := {} } none, ⟨[], [1, 2, 0]⟩⟩ pinged).any
        fun w => w.client.sent == [0x8A, 3, 7]) = true := by
    decide +kernel
  obtain ⟨w, hw, hp⟩ := (Option.any_eq_true _ _).mp hrun
  have hr := Sys.Reach.of_run (.init hinit) hw
  exact ⟨w, hr, by simpa using hp, wire_frames hr⟩

end ShrimpWisp
