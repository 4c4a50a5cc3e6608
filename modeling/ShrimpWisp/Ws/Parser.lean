import ShrimpWisp.Ws.Reader

/-!
# The client's bytes (`vendor/fastwebsockets`)

The two parsers of the forked WebSocket library over the bytes in the read half's buffer, the
readers on them, and `prepend_bytes`. The role is the server's, so every frame must be masked.

* `ReadHalf.tryParseFrameBuffered` never reads. `ReadHalf.parseFrameHeader` reads the socket
  whenever the buffer is too short: for the first two bytes, for the header and for the payload.
* `ReadHalf.readFrameInner`, with `auto_close` and `auto_pong` off, also checks the text of a final
  Text frame.
* `WebSocketRead.tryReadWispFrame`, `WebSocketRead.readWispFrame`: the readers of the main loop.

What the reads return is a list of pieces, and an empty piece is the end of the stream. A future
that is still waiting when the list is used up was dropped by the `select!`; it leaves the buffer as
it is.

* `parseFrameHeader_eq`: the awaited parser is the buffered one with reads as long as it says that
  it needs more.
* `WebSocketRead.buffered`, `WebSocketRead.awaited`: what the two readers make of a parsed frame.
  Over whole frames they are those of `Ws/Reader` (`buffered_ofParsed`, `awaited_ofParsed`).
-/

namespace ShrimpWisp

/-- `WebSocketError`, as far as the readers return it. -/
inductive WebSocketError where
  | invalidUtf8
  | unexpectedEof
  | reservedBitsNotZero
  | controlFrameFragmented
  | controlFrameTooLarge
  | unmaskedClientFrame
  | frameTooLarge
  | invalidValue
  deriving DecidableEq, Repr

/-- `OpCode::try_from`. -/
def OpCode.tryFrom (v : UInt8) : Except WebSocketError OpCode :=
  if v = 0x0 then .ok .continuation
  else if v = 0x1 then .ok .text
  else if v = 0x2 then .ok .binary
  else if v = 0x8 then .ok .close
  else if v = 0x9 then .ok .ping
  else if v = 0xA then .ok .pong
  else .error .invalidValue

/-- A `Frame` as it is parsed. -/
structure MaskedFrame where
  fin : Bool
  opcode : OpCode
  mask : List UInt8
  payload : List UInt8
  deriving DecidableEq, Repr

/-- `Frame::unmask`. -/
def MaskedFrame.unmask (f : MaskedFrame) : WsFrame where
  fin := f.fin
  opcode := f.opcode
  payload := f.payload.mapIdx fun i v => v ^^^ f.mask.getD (i % 4) 0

/-- The number with these bytes, the highest one first. -/
def fromBeBytes (bytes : List UInt8) : Nat := bytes.foldl (fun n b => 0x100 * n + b.toNat) 0

/-- The fields in the first two bytes of a frame. -/
structure Header where
  fin : Bool
  opcode : OpCode
  lengthCode : Nat
  deriving DecidableEq, Repr

namespace Header

/-- The fields, with the checks on them that both parsers make. -/
def parse (byte0 byte1 : UInt8) : Except WebSocketError Header :=
  if byte0 &&& 0b01000000 ≠ 0 ∨ byte0 &&& 0b00100000 ≠ 0 ∨ byte0 &&& 0b00010000 ≠ 0 then
    .error .reservedBitsNotZero
  else
    match OpCode.tryFrom (byte0 &&& 0b00001111) with
    | .error e => .error e
    | .ok opcode =>
      if byte1 &&& 0b10000000 = 0 then .error .unmaskedClientFrame
      else .ok ⟨byte0 &&& 0b10000000 != 0, opcode, (byte1 &&& 0x7F).toNat⟩

variable (h : Header)

/-- The size of the extended length. -/
def extra : Nat :=
  match h.lengthCode with
  | 126 => 2
  | 127 => 8
  | _ => 0

/-- `header_size`: the two bytes, the extended length and the mask. -/
def size : Nat := 2 + h.extra + 4

def payloadLen (buffer : List UInt8) : Nat :=
  match h.extra with
  | 0 => h.lengthCode
  | n => fromBeBytes ((buffer.drop 2).take n)

/-- The checks on a whole header. -/
def check (limit payloadLen : Nat) : Option WebSocketError :=
  if h.opcode.isControl && !h.fin then some .controlFrameFragmented
  else if h.opcode.isControl && decide (125 < payloadLen) then some .controlFrameTooLarge
  else if limit < payloadLen then some .frameTooLarge
  else none

/-- The frame at the front of the buffer. -/
def frame (payloadLen : Nat) (buffer : List UInt8) : MaskedFrame where
  fin := h.fin
  opcode := h.opcode
  mask := (buffer.drop (2 + h.extra)).take 4
  payload := (buffer.drop h.size).take payloadLen

end Header

/-- A reader that was polled until it was dropped or ready. -/
inductive Poll (α : Type) where
  | pending (buffer : List UInt8)
  | ready (result : Except WebSocketError α) (buffer : List UInt8) (stream : List (List UInt8))
  deriving DecidableEq, Repr

/-- `.await?`, then `k`. -/
def Poll.andThen {α β : Type} (p : Poll α) (k : α → List UInt8 → List (List UInt8) → Poll β) :
    Poll β :=
  match p with
  | .pending buffer => .pending buffer
  | .ready (.error e) buffer stream => .ready (.error e) buffer stream
  | .ready (.ok a) buffer stream => k a buffer stream

namespace ReadHalf

/-- `prepend_bytes` on the buffer. -/
def prependBytes (bytes buffer : List UInt8) : List UInt8 :=
  if bytes.isEmpty then buffer else bytes ++ buffer

/-- `while self.buffer.remaining() < n { eof!(stream.read_buf(&mut self.buffer).await?); }`. -/
def fill (n : Nat) : List UInt8 → List (List UInt8) → Poll Unit
  | buffer, [] => if buffer.length < n then .pending buffer else .ready (.ok ()) buffer []
  | buffer, chunk :: stream =>
    if buffer.length < n then
      if chunk.isEmpty then .ready (.error .unexpectedEof) buffer stream
      else fill n (buffer ++ chunk) stream
    else .ready (.ok ()) buffer (chunk :: stream)

/-- The rest of `parse_frame_header`, with a whole header in the buffer: phases 2 and 3. -/
def parsePayload (limit : Nat) (h : Header) (buffer : List UInt8) (stream : List (List UInt8)) :
    Poll MaskedFrame :=
  let payloadLen := h.payloadLen buffer
  match h.check limit payloadLen with
  | some e => .ready (.error e) buffer stream
  | none =>
    (fill (h.size + payloadLen) buffer stream).andThen fun _ buffer stream =>
      .ready (.ok (h.frame payloadLen buffer)) (buffer.drop (h.size + payloadLen)) stream

/-- `parse_frame_header` (module doc). -/
def parseFrameHeader (limit : Nat) (buffer : List UInt8) (stream : List (List UInt8)) :
    Poll MaskedFrame :=
  (fill 2 buffer stream).andThen fun _ buffer stream =>
    match Header.parse (buffer.getD 0 0) (buffer.getD 1 0) with
    | .error e => .ready (.error e) buffer stream
    | .ok h =>
      (fill h.size buffer stream).andThen fun _ buffer stream => parsePayload limit h buffer stream

/-- `try_parse_frame_buffered`: `none` if more bytes are needed, else the result and the buffer. -/
def tryParseFrameBuffered (limit : Nat) (buffer : List UInt8) :
    Option (Except WebSocketError MaskedFrame × List UInt8) :=
  if buffer.length < 2 then none
  else
    match Header.parse (buffer.getD 0 0) (buffer.getD 1 0) with
    | .error e => some (.error e, buffer)
    | .ok h =>
      if buffer.length < h.size then none
      else
        let payloadLen := h.payloadLen buffer
        match h.check limit payloadLen with
        | some e => some (.error e, buffer)
        | none =>
          if buffer.length < h.size + payloadLen then none
          else some (.ok (h.frame payloadLen buffer), buffer.drop (h.size + payloadLen))

/-- `read_frame_inner` (module doc). -/
def readFrameInner (limit : Nat) (buffer : List UInt8) (stream : List (List UInt8)) :
    Poll WsFrame :=
  (parseFrameHeader limit buffer stream).andThen fun frame buffer stream =>
    let frame := frame.unmask
    match frame.opcode with
    | .text =>
      if frame.fin && !Utf8.valid frame.payload then .ready (.error .invalidUtf8) buffer stream
      else .ready (.ok frame) buffer stream
    | _ => .ready (.ok frame) buffer stream

end ReadHalf

namespace WebSocketRead

/-- `read_wisp_frame`. -/
def readWispFrame (limit : Nat) (buffer : List UInt8) (stream : List (List UInt8)) :
    Poll WispFrameResult :=
  (ReadHalf.readFrameInner limit buffer stream).andThen fun frame buffer stream =>
    .ready (.ok (.ofFrame frame)) buffer stream

/-- `try_read_wisp_frame`. -/
def tryReadWispFrame (limit : Nat) (buffer : List UInt8) :
    Option (Except WebSocketError WispFrameResult × List UInt8) :=
  match ReadHalf.tryParseFrameBuffered limit buffer with
  | some (.ok frame, buffer) => some (.ok (.ofFrame frame.unmask), buffer)
  | some (.error e, buffer) => some (.error e, buffer)
  | none => none

end WebSocketRead

/-! ## More bytes -/

section Append

variable {limit : Nat} {buffer rest : List UInt8} {r : Except WebSocketError MaskedFrame}

namespace Header

variable {h : Header}

theorem payloadLen_append (hl : h.size ≤ buffer.length) (y : List UInt8) :
    h.payloadLen (buffer ++ y) = h.payloadLen buffer := by
  unfold size at hl
  unfold payloadLen
  split
  · rfl
  · rw [List.drop_append_of_le_length (by omega),
      List.take_append_of_le_length (by rw [List.length_drop]; omega)]

theorem frame_append {n : Nat} (hl : h.size + n ≤ buffer.length) (y : List UInt8) :
    h.frame n (buffer ++ y) = h.frame n buffer := by
  unfold size at hl
  unfold frame size
  rw [List.drop_append_of_le_length (by omega), List.drop_append_of_le_length (by omega),
    List.take_append_of_le_length (by rw [List.length_drop]; omega),
    List.take_append_of_le_length (by rw [List.length_drop]; omega)]

theorem parse_append (hl : 2 ≤ buffer.length) (y : List UInt8) :
    parse ((buffer ++ y).getD 0 0) ((buffer ++ y).getD 1 0) =
      parse (buffer.getD 0 0) (buffer.getD 1 0) := by
  simp only [List.getD_eq_getElem?_getD]
  rw [List.getElem?_append_left (by omega), List.getElem?_append_left (by omega)]

end Header

namespace ReadHalf

/-- What `tryParseFrameBuffered` can come to: too short for one of the three waits of the awaited
parser, one of the two groups of checks failed, or a frame. -/
inductive Buffered (limit : Nat) (buffer : List UInt8) :
    Option (Except WebSocketError MaskedFrame × List UInt8) → Prop
  | short : buffer.length < 2 → Buffered limit buffer none
  | broken {e} : 2 ≤ buffer.length →
      Header.parse (buffer.getD 0 0) (buffer.getD 1 0) = .error e →
      Buffered limit buffer (some (.error e, buffer))
  | shortHeader {h : Header} : 2 ≤ buffer.length →
      Header.parse (buffer.getD 0 0) (buffer.getD 1 0) = .ok h → buffer.length < h.size →
      Buffered limit buffer none
  | invalid {h : Header} {e} : 2 ≤ buffer.length →
      Header.parse (buffer.getD 0 0) (buffer.getD 1 0) = .ok h → h.size ≤ buffer.length →
      h.check limit (h.payloadLen buffer) = some e → Buffered limit buffer (some (.error e, buffer))
  | shortPayload {h : Header} : 2 ≤ buffer.length →
      Header.parse (buffer.getD 0 0) (buffer.getD 1 0) = .ok h → h.size ≤ buffer.length →
      h.check limit (h.payloadLen buffer) = none →
      buffer.length < h.size + h.payloadLen buffer → Buffered limit buffer none
  | frame {h : Header} : 2 ≤ buffer.length →
      Header.parse (buffer.getD 0 0) (buffer.getD 1 0) = .ok h → h.size ≤ buffer.length →
      h.check limit (h.payloadLen buffer) = none →
      h.size + h.payloadLen buffer ≤ buffer.length →
      Buffered limit buffer (some (.ok (h.frame (h.payloadLen buffer) buffer),
        buffer.drop (h.size + h.payloadLen buffer)))

theorem tryParseFrameBuffered_buffered (limit : Nat) (buffer : List UInt8) :
    Buffered limit buffer (tryParseFrameBuffered limit buffer) := by
  unfold tryParseFrameBuffered
  split
  · next h2 => exact .short h2
  next h2 =>
  split
  · next he => exact .broken (by omega) he
  next h hh =>
  split
  · next hs => exact .shortHeader (by omega) hh hs
  next hs =>
  simp only
  split
  · next he => exact .invalid (by omega) hh (by omega) he
  next hc =>
  split
  · next ht => exact .shortPayload (by omega) hh (by omega) hc ht
  · next ht => exact .frame (by omega) hh (by omega) hc (by omega)

theorem Buffered.eq {p : Option (Except WebSocketError MaskedFrame × List UInt8)}
    (hb : Buffered limit buffer p) : tryParseFrameBuffered limit buffer = p := by
  unfold tryParseFrameBuffered
  cases hb with
  | short h2 => rw [if_pos h2]
  | broken h2 he => rw [if_neg (by omega), he]
  | shortHeader h2 hh hs =>
    rw [if_neg (by omega), hh]
    exact if_pos hs
  | invalid h2 hh hs he =>
    rw [if_neg (by omega), hh]
    simp only [if_neg (Nat.not_lt.mpr hs), he]
  | shortPayload h2 hh hs hc ht =>
    rw [if_neg (by omega), hh]
    simp only [if_neg (Nat.not_lt.mpr hs), hc, if_pos ht]
  | frame h2 hh hs hc ht =>
    rw [if_neg (by omega), hh]
    simp only [if_neg (Nat.not_lt.mpr hs), hc, if_neg (Nat.not_lt.mpr ht)]

/-- More bytes do not change a frame or an error. -/
theorem tryParseFrameBuffered_append (h : tryParseFrameBuffered limit buffer = some (r, rest))
    (y : List UInt8) : tryParseFrameBuffered limit (buffer ++ y) = some (r, rest ++ y) := by
  have hlen : (buffer ++ y).length = buffer.length + y.length := List.length_append
  have hb := tryParseFrameBuffered_buffered limit buffer
  rw [h] at hb
  cases hb with
  | broken h2 he => exact (Buffered.broken (by omega) (by rw [Header.parse_append h2, he])).eq
  | invalid h2 hh hs he =>
    refine (Buffered.invalid (by omega) (by rw [Header.parse_append h2, hh]) (by omega) ?_).eq
    rw [Header.payloadLen_append hs, he]
  | frame h2 hh hs hc ht =>
    have hp := Header.payloadLen_append hs y
    rw [← List.drop_append_of_le_length ht, ← Header.frame_append ht y, ← hp]
    exact (Buffered.frame (by omega) (by rw [Header.parse_append h2, hh]) (by omega)
      (by rw [hp, hc]) (by omega)).eq

/-- A frame takes its header off the buffer at least. -/
theorem tryParseFrameBuffered_shrinks {f : MaskedFrame}
    (h : tryParseFrameBuffered limit buffer = some (.ok f, rest)) :
    rest.length < buffer.length := by
  have hb := tryParseFrameBuffered_buffered limit buffer
  rw [h] at hb
  cases hb with
  | @frame hd h2 =>
    have : 6 ≤ hd.size := by unfold Header.size; omega
    rw [List.length_drop]
    omega

theorem fill_of_le {n : Nat} (h : n ≤ buffer.length) (stream : List (List UInt8)) :
    fill n buffer stream = .ready (.ok ()) buffer stream := by
  cases stream <;> rw [fill, if_neg (by omega)]

theorem fill_nil {n : Nat} (h : buffer.length < n) : fill n buffer [] = .pending buffer := by
  rw [fill, if_pos h]

theorem fill_cons {n : Nat} (h : buffer.length < n) (chunk : List UInt8)
    (stream : List (List UInt8)) :
    fill n buffer (chunk :: stream) =
      if chunk.isEmpty then .ready (.error .unexpectedEof) buffer stream
      else fill n (buffer ++ chunk) stream := by
  rw [fill, if_pos h]

/-- With a frame or an error in the buffer, the awaited parser does not read. -/
theorem parseFrameHeader_of_some (h : tryParseFrameBuffered limit buffer = some (r, rest))
    (stream : List (List UInt8)) :
    parseFrameHeader limit buffer stream = .ready r rest stream := by
  have hb := tryParseFrameBuffered_buffered limit buffer
  rw [h] at hb
  unfold parseFrameHeader parsePayload
  cases hb with
  | broken h2 he => simp only [fill_of_le h2, Poll.andThen, he]
  | invalid h2 hh hs he => simp only [fill_of_le h2, fill_of_le hs, Poll.andThen, hh, he]
  | frame h2 hh hs hc ht =>
    simp only [fill_of_le h2, fill_of_le hs, fill_of_le ht, Poll.andThen, hh, hc]

/-- Where the buffered parser needs more, the awaited one is at one of its loops, also with more
bytes. -/
theorem parseFrameHeader_of_none (h : tryParseFrameBuffered limit buffer = none) :
    ∃ n k, buffer.length < n ∧ ∀ y stream,
      parseFrameHeader limit (buffer ++ y) stream = (fill n (buffer ++ y) stream).andThen k := by
  have hle : ∀ {n}, n ≤ buffer.length → ∀ y : List UInt8, n ≤ (buffer ++ y).length := by
    intro n hn y
    rw [List.length_append]
    omega
  have hb := tryParseFrameBuffered_buffered limit buffer
  rw [h] at hb
  cases hb with
  | short h2 => exact ⟨2, _, h2, fun _ _ => rfl⟩
  | @shortHeader hd h2 hh hs =>
    refine ⟨hd.size, fun _ => parsePayload limit hd, hs, fun y stream => ?_⟩
    simp only [parseFrameHeader, fill_of_le (hle h2 y), Poll.andThen, Header.parse_append h2, hh]
  | @shortPayload hd h2 hh hs hc ht =>
    refine ⟨_, fun _ b s => .ready (.ok (hd.frame (hd.payloadLen buffer) b))
      (b.drop (hd.size + hd.payloadLen buffer)) s, ht, fun y stream => ?_⟩
    simp only [parseFrameHeader, parsePayload, fill_of_le (hle h2 y), fill_of_le (hle hs y),
      Poll.andThen, Header.parse_append h2, hh, Header.payloadLen_append hs, hc]

/-- The awaited parser is the buffered one, with reads as long as it needs more. -/
theorem parseFrameHeader_eq (limit : Nat) (buffer : List UInt8) (stream : List (List UInt8)) :
    parseFrameHeader limit buffer stream =
      match tryParseFrameBuffered limit buffer, stream with
      | some (r, rest), stream => .ready r rest stream
      | none, [] => .pending buffer
      | none, chunk :: stream =>
        if chunk.isEmpty then .ready (.error .unexpectedEof) buffer stream
        else parseFrameHeader limit (buffer ++ chunk) stream := by
  cases h : tryParseFrameBuffered limit buffer with
  | some p => exact parseFrameHeader_of_some h stream
  | none =>
    obtain ⟨n, k, hn, hk⟩ := parseFrameHeader_of_none h
    have hk₀ := hk [] stream
    rw [List.append_nil] at hk₀
    cases stream with
    | nil => simp only [hk₀, fill_nil hn, Poll.andThen]
    | cons chunk stream =>
      rw [hk₀, fill_cons hn]
      simp only
      split
      · rfl
      · exact (hk chunk stream).symm

end ReadHalf

end Append

/-! ## Whole frames -/

section Frames

variable {limit : Nat} {buffer rest : List UInt8} {r : Except WebSocketError MaskedFrame}

/-- The frame, or the bytes that are none, over which `Ws/Reader` reads. -/
def WsInput.ofParsed : Except WebSocketError MaskedFrame → WsInput
  | .ok f => .frame f.unmask
  | .error _ => .broken

theorem checkFrame_ofParsed
    (h : ReadHalf.tryParseFrameBuffered limit buffer = some (r, rest)) :
    checkFrame limit (.ofParsed r) = (r.map MaskedFrame.unmask).toOption := by
  have hb := ReadHalf.tryParseFrameBuffered_buffered limit buffer
  rw [h] at hb
  cases hb with
  | broken | invalid => rfl
  | @frame hd h2 hh hs hc ht =>
    have hlen : ((hd.frame (hd.payloadLen buffer) buffer).unmask).payload.length =
        hd.payloadLen buffer := by
      simp only [MaskedFrame.unmask, Header.frame, List.length_mapIdx, List.length_take,
        List.length_drop]
      omega
    unfold Header.check at hc
    simp only [WsInput.ofParsed, checkFrame, hlen]
    split at hc
    · cases hc
    next hfin =>
    split at hc
    · cases hc
    next hbig =>
    split at hc
    · cases hc
    next hlim =>
    exact (if_neg hfin).trans ((if_neg hbig).trans (if_neg hlim))

/-- A final Text frame that is no text. -/
def WsFrame.invalidText (f : WsFrame) : Bool :=
  decide (f.opcode = .text) && f.fin && !Utf8.valid f.payload

namespace WebSocketRead

/-- What `tryReadWispFrame` makes of a parsed frame. -/
def buffered : Except WebSocketError MaskedFrame → Except WebSocketError WispFrameResult
  | .error e => .error e
  | .ok f => .ok (.ofFrame f.unmask)

/-- What `readWispFrame` makes of a parsed frame. -/
def awaited : Except WebSocketError MaskedFrame → Except WebSocketError WispFrameResult
  | .error e => .error e
  | .ok f => if f.unmask.invalidText then .error .invalidUtf8 else .ok (.ofFrame f.unmask)

theorem tryReadWispFrame_eq (limit : Nat) (buffer : List UInt8) :
    tryReadWispFrame limit buffer =
      (ReadHalf.tryParseFrameBuffered limit buffer).map fun p => (buffered p.1, p.2) := by
  unfold tryReadWispFrame
  split <;> next h => rw [h]; rfl

theorem readWispFrame_eq (limit : Nat) (buffer : List UInt8) (stream : List (List UInt8)) :
    readWispFrame limit buffer stream =
      match ReadHalf.parseFrameHeader limit buffer stream with
      | .pending buffer => .pending buffer
      | .ready r buffer stream => .ready (awaited r) buffer stream := by
  unfold readWispFrame ReadHalf.readFrameInner
  cases ReadHalf.parseFrameHeader limit buffer stream with
  | pending b => rfl
  | ready r b s =>
    cases r with
    | error e => rfl
    | ok f =>
      simp only [Poll.andThen, awaited, WsFrame.invalidText]
      generalize f.unmask = g
      obtain ⟨fin, opcode, payload⟩ := g
      cases opcode with
      | text =>
        simp only [decide_true, Bool.true_and]
        by_cases hu : (fin && !Utf8.valid payload) = true
        · rw [if_pos hu, if_pos hu]
        · rw [if_neg hu, if_neg hu]
      | _ => rfl

end WebSocketRead

/-- The buffered reader makes of a parsed frame what `Ws/Reader` says. -/
theorem buffered_ofParsed (h : ReadHalf.tryParseFrameBuffered limit buffer = some (r, rest)) :
    (WebSocketRead.buffered r).toOption = tryReadWispFrame limit (.ofParsed r) := by
  rw [tryReadWispFrame, checkFrame_ofParsed h]
  cases r <;> rfl

/-- The same of the awaited reader. -/
theorem awaited_ofParsed (h : ReadHalf.tryParseFrameBuffered limit buffer = some (r, rest)) :
    (WebSocketRead.awaited r).toOption = readWispFrame limit (.ofParsed r) := by
  rw [readWispFrame, readFrameInner, checkFrame_ofParsed h]
  cases r with
  | error e => rfl
  | ok f =>
    simp only [WebSocketRead.awaited, Except.map, Except.toOption]
    by_cases ht : f.unmask.invalidText = true
    · rw [if_pos ht, if_pos (by simpa [WsFrame.invalidText, and_assoc] using ht)]
      rfl
    · rw [if_neg ht, if_neg (by simpa [WsFrame.invalidText, and_assoc] using ht)]
      rfl

end Frames

end ShrimpWisp
