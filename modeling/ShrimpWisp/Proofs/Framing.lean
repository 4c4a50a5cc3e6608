import ShrimpWisp.Ws.Frame
import ShrimpWisp.Proofs.Preframe
import ShrimpWisp.Proofs.Segments

/-!
# Frames from writer to reader

Both ends of the WebSocket library: a client that writes frames with `WriteHalf::write_frame`, and
the buffered parser of the server (`try_parse_frame_buffered`).

* `unmask_agrees`: every way to unmask is the plain one, and unmasking is its own inverse on any two
  machines.
* `tryParseFrameBuffered_wire`: a masked frame is parsed from its bytes, whatever follows.
* `writeFrames`: calls of `write_frame` one after another. `frames_received`: the buffered parser
  reads the client's frames in order, up to the one that ends the connection. The awaited reader
  refuses a final Text frame that is not UTF-8; for other frames it reads the same
  (`handled_in_order`).
-/

namespace ShrimpWisp

/-! ## Masks -/

/-- The payload of a frame that was parsed, with any of the ways to unmask. -/
theorem MaskedFrame.unmask_payload (target : Target) (addr : Nat) (fin : Bool) (opcode : OpCode)
    (mask : Mask) (payload : List UInt8) :
    (MaskedFrame.mk fin opcode mask.toList payload).unmask =
      ⟨fin, opcode, ShrimpWisp.unmask target addr payload mask⟩ := by
  rw [unmask_eq, unmaskEasy, MaskedFrame.unmask]
  congr 2
  funext i v
  have hi : i % 4 < mask.toList.length := by
    rw [Vector.length_toList]
    exact Nat.mod_lt i (by omega)
  rw [List.getD_eq_getElem?_getD, List.getElem?_eq_getElem hi, Vector.getElem_toList]
  rfl

theorem unmaskEasy_unmaskEasy (payload : List UInt8) (mask : Mask) :
    unmaskEasy (unmaskEasy payload mask) mask = payload := by
  unfold unmaskEasy
  rw [List.mapIdx_mapIdx]
  apply List.ext_getElem
  · rw [List.length_mapIdx]
  · intro i _ _
    rw [List.getElem_mapIdx]
    simp only [Function.comp_apply, UInt8.xor_assoc, UInt8.xor_self, UInt8.xor_zero]

/-- All ways to unmask a payload are the plain one, wherever it lies, and it is what the parser's
frames are unmasked with; a payload that was masked on one machine is read on any other. -/
theorem unmask_agrees (target target' : Target) (addr addr' : Nat) (payload : List UInt8)
    (mask : Mask) :
    unmask target addr payload mask = unmaskEasy payload mask ∧
      (∀ fin opcode, ((MaskedFrame.mk fin opcode mask.toList payload).unmask).payload =
        unmask target addr payload mask) ∧
      unmask target' addr' (unmask target addr payload mask) mask = payload := by
  refine ⟨unmask_eq target addr payload mask, fun fin opcode => ?_, ?_⟩
  · rw [MaskedFrame.unmask_payload target addr]
  · rw [unmask_eq, unmask_eq, unmaskEasy_unmaskEasy]

/-! ## One frame -/

namespace Frame

/-- A frame that the parser accepts: the checks on a header. The length of a slice is a `usize`. -/
structure Fits (limit : Nat) (f : Frame) : Prop where
  final : f.opcode.isControl = true → f.fin = true
  short : f.opcode.isControl = true → f.payload.length ≤ 125
  limit : f.payload.length ≤ limit
  usize : f.payload.length < 2 ^ 64

variable {f : Frame} {limit : Nat}

/-- The length code of a masked frame, with the size of the extended length and the length in it. -/
theorem lengthField_code {n : Nat} (h : n < 2 ^ 64) :
    ∃ byte1 ext, lengthField n = byte1 :: ext ∧ (byte1 ||| 0x80) &&& 0x80 ≠ 0 ∧
      ∀ (fin : Bool) (opcode : OpCode),
        (Header.mk fin opcode ((byte1 ||| 0x80) &&& 0x7F).toNat).extra = ext.length ∧
        ∀ b0 b1 rest, (Header.mk fin opcode ((byte1 ||| 0x80) &&& 0x7F).toNat).payloadLen
          (b0 :: b1 :: ext ++ rest) = n := by
  unfold lengthField
  split
  · next hn =>
    have hall : ∀ k : Fin 126, (k.1.toUInt8 ||| 0x80) &&& 0x80 ≠ 0 ∧
        ((k.1.toUInt8 ||| 0x80) &&& 0x7F).toNat = k.1 := by
      decide
    obtain ⟨hbit, hcode⟩ := hall ⟨n, by omega⟩
    refine ⟨_, [], rfl, hbit, fun fin opcode => ?_⟩
    simp only at hcode
    have hextra : (Header.mk fin opcode n).extra = 0 := by
      unfold Header.extra
      split
      · next h126 => simp only at h126; omega
      · next h127 => simp only at h127; omega
      · rfl
    rw [hcode]
    refine ⟨hextra, fun b0 b1 rest => ?_⟩
    rw [Header.payloadLen, hextra]
    rfl
  · next hn =>
    split
    · next hn' =>
      refine ⟨126, _, rfl, by decide, fun fin opcode => ⟨rfl, fun b0 b1 rest => ?_⟩⟩
      exact fromBeBytes_be16 (by omega)
    · next hn' =>
      refine ⟨127, _, rfl, by decide, fun fin opcode => ⟨rfl, fun b0 b1 rest => ?_⟩⟩
      exact fromBeBytes_toBe64 h

theorem check_eq_none (h : f.Fits limit) (code : Nat) :
    (Header.mk f.fin f.opcode code).check limit f.payload.length = none := by
  unfold Header.check
  simp only
  rw [if_neg, if_neg, if_neg (Nat.not_lt.mpr h.limit)]
  · intro hc
    obtain ⟨hop, hlt⟩ := (Bool.and_eq_true _ _).mp hc
    have hlt := of_decide_eq_true hlt
    have := h.short hop
    omega
  · intro hc
    obtain ⟨hop, hfin⟩ := (Bool.and_eq_true _ _).mp hc
    rw [h.final hop] at hfin
    cases hfin

/-- The first two bytes of a masked frame. -/
theorem parse_masked (fin : Bool) (opcode : OpCode) {byte1 : UInt8} (hbit : byte1 &&& 0x80 ≠ 0) :
    Header.parse ((if fin then 0x80 else 0) ||| opcode.byte) byte1 =
      .ok ⟨fin, opcode, (byte1 &&& 0x7F).toNat⟩ := by
  have hop : ∀ (fin : Bool) (opcode : OpCode),
      let byte0 : UInt8 := (if fin then 0x80 else 0) ||| opcode.byte
      ¬ (byte0 &&& 0b01000000 ≠ 0 ∨ byte0 &&& 0b00100000 ≠ 0 ∨ byte0 &&& 0b00010000 ≠ 0) ∧
        OpCode.tryFrom (byte0 &&& 0b00001111) = .ok opcode ∧
        (byte0 &&& 0b10000000 != 0) = fin := by
    intro fin opcode
    cases fin <;> cases opcode <;> decide
  obtain ⟨hrsv, htry, hfin⟩ := hop fin opcode
  rw [Header.parse, if_neg hrsv, htry]
  simp only
  rw [if_neg hbit, hfin]

/-- The parser on a header with its mask, the payload and more. -/
theorem tryParseFrameBuffered_of_header (hd : Header) {pre mask payload : List UInt8}
    (hl : pre.length = 2 + hd.extra) (hm : mask.length = 4)
    (hparse : Header.parse (pre.getD 0 0) (pre.getD 1 0) = .ok hd)
    (hn : ∀ y, hd.payloadLen (pre ++ y) = payload.length)
    (hc : hd.check limit payload.length = none) (rest : List UInt8) :
    ReadHalf.tryParseFrameBuffered limit (pre ++ (mask ++ (payload ++ rest))) =
      some (.ok ⟨hd.fin, hd.opcode, mask, payload⟩, rest) := by
  have hsize : hd.size = pre.length + 4 := by rw [Header.size, hl]
  have hn := hn (mask ++ (payload ++ rest))
  have hlen : (pre ++ (mask ++ (payload ++ rest))).length =
      hd.size + payload.length + rest.length := by
    simp only [hsize, List.length_append, hm]
    omega
  have hpay : (pre ++ (mask ++ (payload ++ rest))).drop hd.size = payload ++ rest := by
    rw [hsize, ← List.drop_drop, List.drop_left, List.drop_left' hm]
  generalize hbytes : pre ++ (mask ++ (payload ++ rest)) = bytes at hn hlen hpay
  have hbuf : ReadHalf.Buffered limit bytes _ := .frame (by omega)
    (by rw [← hbytes, Header.parse_append (by omega), hparse]) (by omega) (by rw [hn, hc])
    (by omega)
  rw [hbuf.eq, hn, ← List.drop_drop, hpay, List.drop_left, Header.frame, hpay, List.take_left, ← hl,
    ← hbytes, List.drop_left, List.take_left' hm]

/-- A masked frame is parsed from its bytes, whatever follows. -/
theorem tryParseFrameBuffered_wire (h : f.Fits limit) {mask : Mask} (hm : f.mask = some mask)
    (rest : List UInt8) :
    ReadHalf.tryParseFrameBuffered limit (f.wire ++ rest) =
      some (.ok ⟨f.fin, f.opcode, mask.toList, f.payload⟩, rest) := by
  obtain ⟨byte1, ext, hf, hbit, hcode⟩ := lengthField_code h.usize
  obtain ⟨hextra, hlen⟩ := hcode f.fin f.opcode
  have hwire : f.wire ++ rest =
      ((if f.fin then 0x80 else 0) ||| f.opcode.byte) :: (byte1 ||| 0x80) :: ext ++
        (mask.toList ++ (f.payload ++ rest)) := by
    simp only [wire, head, hm, hf, List.modifyHead_cons, List.cons_append, List.append_assoc]
  rw [hwire]
  apply tryParseFrameBuffered_of_header ⟨f.fin, f.opcode, ((byte1 ||| 0x80) &&& 0x7F).toNat⟩
  · rw [hextra, List.length_cons, List.length_cons]
    omega
  · exact Vector.length_toList
  · exact parse_masked f.fin f.opcode hbit
  · exact hlen _ _
  · exact check_eq_none h _

end Frame

/-! ## Calls of `write_frame` -/

/-- A call of `write_frame`: the frame, the random mask, and where the payload lies. -/
structure WriteCall where
  target : Target
  addr : Nat
  key : Mask
  frame : Frame
  deriving DecidableEq, Repr

namespace WriteHalf

/-- The calls one after another, with their results. -/
def writeFrames (half : WriteHalf) (stream : Sink UInt8) :
    List WriteCall → Option (List (Except WriteError Unit) × WriteHalf × Sink UInt8)
  | [] => some ([], half, stream)
  | c :: calls => do
    let (result, half, stream) ← writeFrame c.target c.addr c.key half stream c.frame
    let (results, half, stream) ← writeFrames half stream calls
    pure (result :: results, half, stream)

/-- The calls that are not refused. After a Close there is nothing but Close frames. -/
def accepted : Bool → List WriteCall → List WriteCall
  | _, [] => []
  | closed, c :: calls =>
    if closed ∧ c.frame.opcode ≠ .close then accepted closed calls
    else c :: accepted (closed || decide (c.frame.opcode = .close)) calls

theorem mem_of_accepted {closed : Bool} {calls : List WriteCall} {c : WriteCall}
    (h : c ∈ accepted closed calls) : c ∈ calls := by
  induction calls generalizing closed with
  | nil => exact h
  | cons d calls ih =>
    rw [accepted] at h
    split at h
    · exact .tail _ (ih h)
    · rcases List.mem_cons.mp h with rfl | h
      · exact .head _
      · exact .tail _ (ih h)

/-- The frame of a call on the wire. -/
def callWire (client : Bool) (c : WriteCall) : List UInt8 :=
  (if client then c.frame.applyMask c.target c.addr c.key else c.frame).wire

/-- All the calls together are a writer of the frames that are not refused. -/
theorem writeFrames_puts (calls : List WriteCall) (half : WriteHalf) (stream : Sink UInt8) :
    ∃ results half' stream', writeFrames half stream calls = some (results, half', stream') ∧
      stream.Puts
        ((accepted half.closed calls).flatMap (callWire (half.client && half.autoApplyMask)))
        (decide (.error .io ∉ results), stream') := by
  induction calls generalizing half stream with
  | nil => exact ⟨[], half, stream, rfl, .nil stream⟩
  | cons c calls ih =>
    obtain ⟨r, hr, hw⟩ := writeFrame_wrote c.target c.addr c.key half stream c.frame
    cases hw with
    | refused hcl hop =>
      obtain ⟨results, half', stream', hrest, hput⟩ := ih half stream
      refine ⟨.error .connectionClosed :: results, half', stream', ?_, ?_⟩
      · rw [writeFrames, hr]
        simp only [Option.bind_eq_bind, Option.bind_some, hrest, Option.pure_def]
      · rw [accepted, if_pos ⟨hcl, hop⟩]
        simpa using hput
    | @written ok stream₁ buf hcl hw =>
      obtain ⟨results, half', stream', hrest, hput⟩ := ih
        { half with closed := half.closed || decide (c.frame.opcode = .close), writeBuffer := buf }
        stream₁
      refine ⟨(if ok then .ok () else .error .io) :: results, half', stream', ?_, ?_⟩
      · rw [writeFrames, hr]
        simp only [Option.bind_eq_bind, Option.bind_some, hrest, Option.pure_def]
      · have hacc : ¬ (half.closed = true ∧ c.frame.opcode ≠ .close) := fun h => h.2 (hcl h.1)
        rw [accepted, if_neg hacc, List.flatMap_cons]
        have hseq := hw.seq hput
        cases ok <;> simpa [callWire, framed] using hseq

end WriteHalf

/-! ## From the client to the server -/

section Received

variable {limit : Nat}

/-- What the buffered parser reads of these frames: all of them up to the one that ends the
connection, or else the end of the stream if there is one. -/
def receives (eof : Bool) : List WsFrame → List (Except WebSocketError WispFrameResult)
  | [] => if eof then [.error .unexpectedEof] else []
  | f :: frames =>
    .ok (.ofFrame f) :: if (WispFrameResult.ofFrame f).closes then [] else receives eof frames

/-- The frame that a call is to send. -/
def WriteCall.sent (c : WriteCall) : WsFrame := ⟨c.frame.fin, c.frame.opcode, c.frame.payload⟩

/-- The mask bit and the mask of a client's frame. -/
theorem Frame.applyMask_eq (target : Target) (addr : Nat) (key : Mask) (f : Frame) :
    f.applyMask target addr key =
      { f with payload := unmaskEasy f.payload (f.mask.getD key), mask := some (f.mask.getD key) } := by
  obtain ⟨fin, opcode, _ | mask, payload⟩ := f
  · simp only [Frame.applyMask, unmask_eq, Option.getD_none]
  · simp only [Frame.applyMask, unmask_eq, Option.getD_some]

theorem received_wire (c : WriteCall) (h : c.frame.Fits limit) (rest : List UInt8) (eof : Bool) :
    received limit (WriteHalf.callWire true c ++ rest) eof =
      .ok (.ofFrame c.sent) ::
        if (WispFrameResult.ofFrame c.sent).closes then [] else received limit rest eof := by
  have happ := Frame.applyMask_eq c.target c.addr c.key c.frame
  generalize hmk : c.frame.mask.getD c.key = mask at happ
  have hfit : (c.frame.applyMask c.target c.addr c.key).Fits limit := by
    rw [happ]
    exact ⟨h.final, by simpa using h.short, by simpa using h.limit, by simpa using h.usize⟩
  have hsome : (c.frame.applyMask c.target c.addr c.key).mask = some mask := by rw [happ]
  have hparse := Frame.tryParseFrameBuffered_wire hfit hsome rest
  have hback : (MaskedFrame.mk c.frame.fin c.frame.opcode mask.toList
      (unmaskEasy c.frame.payload mask)).unmask = c.sent := by
    rw [MaskedFrame.unmask_payload c.target c.addr, unmask_eq, unmaskEasy_unmaskEasy]
    rfl
  rw [happ] at hparse
  have hdec := (wispDecoder limit).decoded_some hparse eof
  have hinner : (wispDecoder limit).inner (some (.ok ⟨c.frame.fin, c.frame.opcode, mask.toList,
      unmaskEasy c.frame.payload mask⟩)) = .ok (.ofFrame c.sent) := by
    simp only [wispDecoder, Option.map_some, Option.getD_some, WebSocketRead.buffered, hback]
  simp only [received, parsed, WriteHalf.callWire, if_true, happ, hdec, List.map_cons, hinner]
  congr 1
  have hends : (wispDecoder limit).ends (.ok (.ofFrame c.sent)) =
      (WispFrameResult.ofFrame c.sent).closes := rfl
  rw [hends]
  split <;> rfl

theorem received_wires (calls : List WriteCall) (h : ∀ c ∈ calls, c.frame.Fits limit) (eof : Bool) :
    received limit (calls.flatMap (WriteHalf.callWire true)) eof =
      receives eof (calls.map WriteCall.sent) := by
  induction calls with
  | nil =>
    have hnone : (wispDecoder limit).decode [] = none := rfl
    simp only [List.flatMap_nil, received, parsed, (wispDecoder limit).decoded_none hnone,
      List.map_nil, receives]
    cases eof <;> rfl
  | cons c calls ih =>
    rw [List.flatMap_cons, received_wire c (h c (.head _)), ih fun c hc => h c (.tail _ hc),
      List.map_cons, receives]

/-- What is refused would not have been read. -/
theorem receives_accepted (calls : List WriteCall) (eof : Bool) :
    receives eof ((WriteHalf.accepted false calls).map WriteCall.sent) =
      receives eof (calls.map WriteCall.sent) := by
  induction calls with
  | nil => rfl
  | cons c calls ih =>
    rw [WriteHalf.accepted, if_neg (by simp), List.map_cons, List.map_cons, receives, receives,
      Bool.false_or]
    by_cases hop : c.frame.opcode = .close
    · have hcl : (WispFrameResult.ofFrame c.sent).closes = true := by
        simp [WispFrameResult.ofFrame, WriteCall.sent, hop, WispFrameResult.closes]
      rw [if_pos hcl, if_pos hcl]
    · rw [decide_eq_false hop, ih]

/-- A client writes frames, whatever its write half is set to and holds, and however short the
writes of its socket are. Without an error of the socket the buffered parser of the server reads all
of them, up to the one that ends the connection; with one, the first ones. -/
theorem frames_received (half : WriteHalf) (hclient : half.client = true)
    (hmask : half.autoApplyMask = true) (hopen : half.closed = false) (room : List Nat)
    (calls : List WriteCall) (hfit : ∀ c ∈ calls, c.frame.Fits limit) :
    ∃ results half' stream',
      half.writeFrames ⟨[], room⟩ calls = some (results, half', stream') ∧
      (.error .io ∉ results → ∀ eof,
        received limit stream'.sent eof = receives eof (calls.map WriteCall.sent)) ∧
      received limit stream'.sent false <+: receives false (calls.map WriteCall.sent) := by
  obtain ⟨results, half', stream', hrun, hput⟩ := WriteHalf.writeFrames_puts calls half ⟨[], room⟩
  rw [hclient, hmask, hopen, Bool.and_self] at hput
  have hall : ∀ eof, received limit
      ((WriteHalf.accepted false calls).flatMap (WriteHalf.callWire true)) eof =
        receives eof (calls.map WriteCall.sent) := by
    intro eof
    rw [received_wires _ fun c hc => hfit c (WriteHalf.mem_of_accepted hc), receives_accepted]
  refine ⟨results, half', stream', hrun, fun hio eof => ?_, ?_⟩
  · have hsent := hput.all (decide_eq_true hio)
    rw [hsent, List.nil_append, hall]
  · obtain ⟨pre, ⟨post, hpre⟩, hsent⟩ : ∃ p, p <+:
        (WriteHalf.accepted false calls).flatMap (WriteHalf.callWire true) ∧
          stream'.sent = p := by
      by_cases hio : .error .io ∉ results
      · exact ⟨_, List.prefix_rfl, by simpa using hput.all (decide_eq_true hio)⟩
      · obtain ⟨-, p, hp, hs⟩ := hput.part (decide_eq_false hio)
        exact ⟨p, hp, by simpa using hs⟩
    have hmono := (wispDecoder limit).decoded_prefix_append pre post false
    rw [← hall false, hsent, ← hpre]
    exact hmono.map _

/-- A masked Text frame, then a Close. -/
def twoCalls : List WriteCall :=
  [⟨.x86 true, 3, #v[1, 2, 3, 4], ⟨true, .text, none, [104, 105]⟩⟩,
    ⟨.x86 true, 0, #v[9, 9, 9, 9], ⟨true, .close, none, []⟩⟩]

theorem frames_received_twoCalls :
    ∃ results half' stream',
      (WriteHalf.afterHandshake true).writeFrames ⟨[], [1, 3, 9, 9]⟩ twoCalls =
        some (results, half', stream') ∧
      (.error .io ∉ results → ∀ eof,
        received 65536 stream'.sent eof = receives eof (twoCalls.map WriteCall.sent)) ∧
      received 65536 stream'.sent false <+: receives false (twoCalls.map WriteCall.sent) := by
  refine frames_received (WriteHalf.afterHandshake true) rfl rfl rfl [1, 3, 9, 9] twoCalls ?_
  intro c hc
  simp only [twoCalls, List.mem_cons, List.not_mem_nil, or_false] at hc
  rcases hc with rfl | rfl
  · exact ⟨fun _ => rfl, fun _ => by decide, by decide, by decide⟩
  · exact ⟨fun _ => rfl, fun _ => by decide, by decide, by decide⟩

end Received

end ShrimpWisp
