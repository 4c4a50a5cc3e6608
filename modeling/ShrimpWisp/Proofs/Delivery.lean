import ShrimpWisp.Lib.Decoder
import ShrimpWisp.Proofs.Preframe
import ShrimpWisp.Proofs.Wire

/-!
# What the client reads

The bytes on the wire (`Wired`) arrive at the client in any pieces. It decodes the frames of RFC 6455
(`decodeFrame`) and parses the packets in them.

* `clientDecoder`: the client's loop, as a decoder. `ClientMessage`: what it makes of a frame.
* `Delivered`: the socket has taken the bytes of all frames of the connection, and perhaps a part of
  those of the step in which a write failed. Every step keeps it.
* `client_reads`: in every run of both, the client reads the frames that the connection wrote, so the
  history `out` that the other results are about is what arrives.
-/

namespace ShrimpWisp

variable {S : Setup}

/-! ## The client -/

/-- What a client makes of a frame: a packet, if it is one, or a control frame. -/
inductive ClientMessage where
  | packet (p : Option WispFrame)
  | control (opcode : OpCode) (payload : List UInt8)
  deriving DecidableEq, Repr

def WsFrame.message (f : WsFrame) : ClientMessage :=
  match f.opcode with
  | .binary => .packet (parseWispFrame f.payload)
  | opcode => .control opcode f.payload

/-- What a frame of the connection says. -/
def ClientFrame.message : ClientFrame → ClientMessage
  | .data m => .packet (some (.data m.streamId m.bytes))
  | .continue s n => .packet (some (.continue s n))
  | .close s reason _ => .packet (some (.close s reason))
  | .ping => .control .ping []
  | .pong payload => .control .pong payload
  | .wsClose => .control .close []

/-- The WebSocket frame. -/
def ClientFrame.frame : ClientFrame → WsFrame
  | .data m => ⟨true, .binary, buildDataHeader m.streamId ++ m.bytes⟩
  | .continue s n => ⟨true, .binary, buildContinueFrame s n⟩
  | .close s reason _ => ⟨true, .binary, buildCloseFrame s reason⟩
  | .ping => ⟨true, .ping, []⟩
  | .pong payload => ⟨true, .pong, payload⟩
  | .wsClose => ⟨true, .close, []⟩

theorem ClientFrame.message_frame (f : ClientFrame) : f.frame.message = f.message := by
  cases f with
  | data m => exact congrArg ClientMessage.packet (parseWispFrame_data m.streamId m.bytes)
  | «continue» s n =>
    show ClientMessage.packet (parseWispFrame (buildContinueFrame s n)) = _
    rw [buildContinueFrame, packet_continue]
    simp only [toLe32, parseContinue, le32_toLe32, ClientFrame.message]
  | close s reason cause =>
    show ClientMessage.packet (parseWispFrame (buildCloseFrame s reason)) = _
    rw [buildCloseFrame, packet_close, parseClose, CloseReason.fromByte_asByte]
    rfl
  | _ => rfl

theorem ClientFrame.decodeFrame_encode {f : ClientFrame} (hf : f.Sendable) (rest : List UInt8) :
    decodeFrame (f.encode ++ rest) = some (f.frame, rest) := by
  cases f with
  | data m => exact decodeFrame_encodeFrame .binary hf rest
  | pong payload =>
    have hle : payload.length ≤ 125 := hf
    exact decodeFrame_encodeFrame .pong (by omega) rest
  | «continue» s n =>
    exact decodeFrame_encodeFrame .binary (by simp [buildContinueFrame, toLe32]) rest
  | close s reason cause =>
    exact decodeFrame_encodeFrame .binary (by simp [buildCloseFrame, toLe32]) rest
  | ping => exact decodeFrame_encodeFrame .ping (by decide) rest
  | wsClose => exact decodeFrame_encodeFrame .close (by decide) rest

theorem decodeLength_append {code n : Nat} {x rest : List UInt8}
    (h : decodeLength code x = some (n, rest)) (y : List UInt8) :
    decodeLength code (x ++ y) = some (n, rest ++ y) ∧ rest.length ≤ x.length := by
  unfold decodeLength at h ⊢
  split at h
  next hcode =>
    cases h
    exact ⟨if_pos hcode, le_rfl⟩
  next hcode =>
  rw [if_neg hcode]
  split at h
  next hcode =>
    rw [if_pos hcode]
    simp only at h ⊢
    split at h
    · cases h
    next hok =>
    cases h
    have hl : 2 ≤ x.length := by omega
    rw [List.take_append_of_le_length hl, List.drop_append_of_le_length hl, if_neg]
    · exact ⟨rfl, by simp⟩
    · rw [List.length_append]
      omega
  next hcode =>
    rw [if_neg hcode]
    simp only at h ⊢
    split at h
    · cases h
    next hok =>
    cases h
    have hl : 8 ≤ x.length := by omega
    rw [List.take_append_of_le_length hl, List.drop_append_of_le_length hl, if_neg]
    · exact ⟨rfl, by simp⟩
    · rw [List.length_append]
      omega

/-- More bytes do not change a frame, and it takes its header at least. -/
theorem decodeFrame_append {x rest : List UInt8} {f : WsFrame} (h : decodeFrame x = some (f, rest))
    (y : List UInt8) :
    decodeFrame (x ++ y) = some (f, rest ++ y) ∧ rest.length < x.length := by
  obtain _ | ⟨byte0, _ | ⟨byte1, x⟩⟩ := x
  · cases h
  · cases h
  simp only [List.cons_append, decodeFrame] at h ⊢
  split at h
  · cases h
  next hbits =>
  rw [if_neg hbits]
  split at h
  next opcode n x' hop hlen =>
    obtain ⟨hlen', hle⟩ := decodeLength_append hlen y
    simp only [hop, hlen']
    split at h
    · cases h
    next hn =>
    cases h
    have hn : n ≤ x'.length := Nat.not_lt.mp hn
    rw [if_neg (by rw [List.length_append]; omega), List.take_append_of_le_length hn,
      List.drop_append_of_le_length hn]
    refine ⟨rfl, ?_⟩
    simp only [List.length_drop, List.length_cons]
    omega
  next => cases h

/-- The client's loop. It goes on until the stream ends. -/
def clientDecoder : Decoder UInt8 WsFrame (Option ClientMessage) where
  decode := decodeFrame
  inner r := r.map WsFrame.message
  outer r := r.map WsFrame.message
  ends := Option.isNone
  stable y h := (decodeFrame_append h y).1
  shrinks h _ := (decodeFrame_append h []).2
  eof_ends := rfl

/-- What the client makes of bytes. -/
def clientMessages (bytes : List UInt8) : List ClientMessage :=
  (clientDecoder.decoded bytes false).reduceOption.map WsFrame.message

/-- The bytes of frames and then some more. -/
theorem clientMessages_wireBytes {fs : List ClientFrame} (h : ∀ f ∈ fs, f.Sendable)
    (rest : List UInt8) :
    clientMessages (wireBytes fs ++ rest) = fs.map ClientFrame.message ++ clientMessages rest := by
  have hdec := clientDecoder.decoded_flatMap (fun f hf => ClientFrame.decodeFrame_encode (h f hf))
    (fun _ _ => rfl) rest false
  have hitems : (fs.map fun f => some f.frame).reduceOption = fs.map ClientFrame.frame := by
    rw [List.reduceOption, List.filterMap_map]
    exact congrFun List.filterMap_eq_map fs
  rw [clientMessages, wireBytes, hdec, clientMessages, List.reduceOption_append, List.map_append,
    hitems, List.map_map]
  exact congrArg (· ++ _) (List.map_congr_left fun f _ => f.message_frame)

theorem clientMessages_nil : clientMessages [] = [] := by
  rw [clientMessages, clientDecoder.decoded_none rfl]
  rfl

/-- Of a part of the bytes it makes the first messages. -/
theorem clientMessages_prefix {xs ys : List UInt8} (h : xs <+: ys) :
    clientMessages xs <+: clientMessages ys := by
  obtain ⟨zs, rfl⟩ := h
  exact ((clientDecoder.decoded_prefix_append xs zs false).filterMap id).map _

/-- Whatever the pieces in which the bytes come, the client has made of them the first messages, and
all of them once it waits for more. -/
theorem messages_handled {pieces : List (List UInt8)}
    {st : Reading UInt8 (Option ClientMessage)}
    (h : (clientDecoder.sys [] pieces).Reach Sys.Any st) :
    st.handled.reduceOption <+: clientMessages (arriving pieces).1 ∧
      (clientDecoder.Quiet st → st.handled.reduceOption = clientMessages (arriving pieces).1) := by
  obtain ⟨hpre, hall⟩ := Decoder.Reach.handled (fun _ _ => rfl) h
  have hmap : ((clientDecoder.decoded (arriving pieces).1 (arriving pieces).2).map
      clientDecoder.inner).reduceOption = clientMessages (arriving pieces).1 := by
    rw [clientMessages, ← clientDecoder.reduceOption_decoded _ (arriving pieces).2]
    exact List.reduceOption_map
  rw [List.nil_append] at hpre hall
  rw [← hmap]
  exact ⟨hpre.filterMap id, fun hq => congrArg List.reduceOption (hall hq)⟩

/-! ## The connection with its socket -/

/-- The socket took the bytes of the frames of the connection, and perhaps some of those of the step
in which a write failed. -/
structure Delivered (S : Setup) (w : Wired) : Prop where
  onWire : OnWire S w
  whole : wireBytes w.conn.out <+: w.client.sent
  part : ∃ fs, w.conn.out <+: fs ∧ (w.conn.clientUp = true → fs = w.conn.out) ∧
    (∀ f ∈ fs, f.Sendable) ∧ w.client.sent <+: wireBytes fs

theorem Delivered.of_up {w : Wired} (h : OnWire S w) (hup : w.conn.clientUp = true) :
    Delivered S w where
  onWire := h
  whole := h.up hup ▸ List.prefix_refl _
  part := ⟨w.conn.out, List.prefix_refl _, fun _ => rfl, Reach.sendable h.reach,
    h.up hup ▸ List.prefix_refl _⟩

/-- What a step does: the connection steps and its frames are taken, or a write of the step failed, a
part of their bytes was taken, and the connection goes on without them. -/
theorem wiredStep_cases {fresh : DataMsg → FreshBuffer} {w w' : Wired} {a : Act}
    (hr : (sys S).Reach Sys.Any w.conn) (hs : wiredStep S fresh w a = some w') :
    ∃ c fs p, step S w.conn a = some c ∧ c.out = w.conn.out ++ fs ∧ p <+: wireBytes fs ∧
      w'.client.sent = w.client.sent ++ p ∧
      (w'.conn = c ∧ p = wireBytes fs ∨ w'.conn.clientUp = false ∧ w'.conn.out = w.conn.out) := by
  unfold wiredStep at hs
  split at hs
  · cases hs
  next c hc =>
  obtain ⟨⟨fs, hout⟩, -⟩ := step_out hc
  have hsend : ∀ f ∈ fs, f.Sendable := fun f hf =>
    Reach.sendable (.step a hr hc trivial) f (hout ▸ List.mem_append_right _ hf)
  have hputs := puts_perform (callsOf fresh fs) w.client
  rw [bytes_callsOf fresh hsend] at hputs
  rw [hout, List.drop_left] at hs
  split at hs
  · next client hperf =>
    cases hs
    rw [hperf] at hputs
    exact ⟨c, fs, _, hc, hout, List.prefix_refl _, hputs.all rfl, .inl ⟨rfl, rfl⟩⟩
  · next client hperf =>
    rw [hperf] at hputs
    obtain ⟨-, p, hp, hbytes⟩ := hputs.part rfl
    obtain ⟨c', hc', rfl⟩ := Option.map_eq_some_iff.mp hs
    obtain ⟨hkeep, hdown⟩ := (step_out hc').2 rfl
    exact ⟨c, fs, p, hc, hout, hp, hbytes, .inr ⟨hdown, hkeep⟩⟩

theorem Delivered.step {fresh : DataMsg → FreshBuffer} {w w' : Wired} (h : Delivered S w) {a : Act}
    (hs : wiredStep S fresh w a = some w') : Delivered S w' := by
  have hw := h.onWire.step hs
  obtain ⟨c, fs, p, hc, hout, hp, hbytes, hcase⟩ := wiredStep_cases h.onWire.reach hs
  cases hup : w.conn.clientUp with
  | true =>
    have hsent := h.onWire.up hup
    rcases hcase with ⟨rfl, rfl⟩ | ⟨hdown, hkeep⟩
    · have hall : w'.client.sent = wireBytes w'.conn.out := by
        rw [hbytes, hout, wireBytes_append, hsent]
      exact ⟨hw, hall ▸ List.prefix_refl _, w'.conn.out, List.prefix_refl _, fun _ => rfl,
        Reach.sendable hw.reach, hall ▸ List.prefix_refl _⟩
    · -- The frames of this step are not in `out`, but a part of their bytes was taken.
      refine ⟨hw, ?_, c.out, ?_, fun hup' => absurd (hdown.symm.trans hup') Bool.false_ne_true,
        Reach.sendable (.step a h.onWire.reach hc trivial), ?_⟩
      · rw [hkeep, hbytes, hsent]
        exact List.prefix_append _ _
      · rw [hkeep, hout]
        exact List.prefix_append _ _
      · rw [hbytes, hout, wireBytes_append, hsent]
        exact (List.prefix_append_right_inj _).mpr hp
  | false =>
    -- Nothing is written any more.
    obtain ⟨hquiet, hgone⟩ := (step_out hc).2 hup
    have hnil : fs = [] := List.append_cancel_left (by rw [← hout, hquiet, List.append_nil])
    rw [hnil] at hp
    rw [List.prefix_nil.mp hp, List.append_nil] at hbytes
    obtain ⟨hkeep, hdown⟩ : w'.conn.out = w.conn.out ∧ w'.conn.clientUp = false := by
      rcases hcase with ⟨rfl, -⟩ | ⟨hdown, hkeep⟩
      · exact ⟨hquiet, hgone⟩
      · exact ⟨hkeep, hdown⟩
    obtain ⟨gs, hle, -, hsend, hpart⟩ := h.part
    exact ⟨hw, by rw [hkeep, hbytes]; exact h.whole, gs, hkeep ▸ hle,
      fun hup' => absurd (hdown.symm.trans hup') Bool.false_ne_true, hsend, hbytes ▸ hpart⟩

theorem Reach.delivered {fresh : DataMsg → FreshBuffer} {w : Wired}
    (h : (wired S fresh).Reach Sys.Any w) : Delivered S w := by
  refine h.invariant ?_ fun w a w' _ hi hs _ => hi.step hs
  rintro w ⟨⟨deferredFrame, hc⟩, hs⟩
  have hbytes : w.client.sent = wireBytes w.conn.out := by
    rw [hs, hc]
    rfl
  have hout : w.conn.out = [] := by rw [hc]; rfl
  exact .of_up ⟨.init ⟨deferredFrame, hc⟩, fun _ => hbytes, [], List.forall_mem_nil _,
    hs ▸ List.nil_prefix⟩
    (by rw [hc]; rfl)

/-- In every run, for any short or failing writes of the socket and any pieces in which the client
reads what it took: the messages that the client has are those of the first frames of the connection,
and all of them once it waits for more, perhaps with some of the step in which a write failed. -/
theorem client_reads {fresh : DataMsg → FreshBuffer} {w : Wired}
    (h : (wired S fresh).Reach Sys.Any w) {pieces : List (List UInt8)}
    (hp : (arriving pieces).1 = w.client.sent) {st : Reading UInt8 (Option ClientMessage)}
    (hst : (clientDecoder.sys [] pieces).Reach Sys.Any st) :
    ∃ fs, w.conn.out <+: fs ∧ (w.conn.clientUp = true → fs = w.conn.out) ∧
      st.handled.reduceOption <+: fs.map ClientFrame.message ∧
      (clientDecoder.Quiet st →
        w.conn.out.map ClientFrame.message <+: st.handled.reduceOption) := by
  obtain ⟨hw, ⟨more, hwhole⟩, fs, hle, hup, hsend, hpart⟩ := Reach.delivered h
  obtain ⟨hfirst, hall⟩ := messages_handled hst
  rw [hp] at hfirst hall
  refine ⟨fs, hle, hup, hfirst.trans ?_, fun hq => ?_⟩
  · have hread := clientMessages_wireBytes hsend []
    rw [List.append_nil, clientMessages_nil, List.append_nil] at hread
    exact hread ▸ clientMessages_prefix hpart
  · rw [hall hq, ← hwhole, clientMessages_wireBytes (Reach.sendable hw.reach)]
    exact List.prefix_append _ _

/-- A Pong in three writes, which the client reads in two pieces. -/
theorem client_reads_pong :
    ∃ w st, (wired { config := {} } zeroed).Reach Sys.Any w ∧
      (clientDecoder.sys [] [[0x8A, 3, 7], [8, 9]]).Reach Sys.Any st ∧
      st.handled = [some (.control .pong [7, 8, 9])] ∧
      ∃ fs, w.conn.out <+: fs ∧ (w.conn.clientUp = true → fs = w.conn.out) ∧
        st.handled.reduceOption <+: fs.map ClientFrame.message ∧
        (clientDecoder.Quiet st →
          w.conn.out.map ClientFrame.message <+: st.handled.reduceOption) := by
  have hrun : (((wired { config := {} } zeroed).run Sys.Any
      ⟨Conn.start { config := {} } none, ⟨[], [1, 2, 2]⟩⟩ pinged).any
        fun w => w.client.sent == [0x8A, 3, 7, 8, 9]) = true := by
    decide +kernel
  obtain ⟨w, hw, hsent⟩ := (Option.any_eq_true _ _).mp hrun
  have hr : (wired { config := {} } zeroed).Reach Sys.Any w :=
    .of_run (.init ⟨⟨none, rfl⟩, rfl⟩) hw
  have hreads : (((clientDecoder.sys [] [[0x8A, 3, 7], [8, 9]]).run Sys.Any
      { buffer := [], stream := [[0x8A, 3, 7], [8, 9]] } [.outer 2]).any
        fun st => st.handled == [some (.control .pong [7, 8, 9])]) = true := by
    decide +kernel
  obtain ⟨st, hst, hhandled⟩ := (Option.any_eq_true _ _).mp hreads
  have hc : (clientDecoder.sys [] [[0x8A, 3, 7], [8, 9]]).Reach Sys.Any st :=
    .of_run (.init rfl) hst
  have hp : (arriving [[0x8A, 3, 7], [8, 9]]).1 = w.client.sent := (beq_iff_eq.mp hsent).symm
  exact ⟨w, st, hr, hc, by simpa using hhandled, client_reads hr hp hc⟩

end ShrimpWisp
