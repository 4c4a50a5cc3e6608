import ShrimpWisp.Lib.Decoder
import ShrimpWisp.Ws.Parser
import ShrimpWisp.Server.Loop

/-!
# How the client's bytes are split over reads

After the handshake some of the client's bytes are in the read half's buffer, some are still in
hyper's, and the socket has the others. The main loop takes a frame with `try_read_wisp_frame` if it
is in the buffer already, and with `read_wisp_frame` after a yield or when it has to wait. So what
the server makes of a byte sequence could depend on how it was split.

* `received`: the frames of a byte sequence, up to the one that ends the connection. It does not
  know of reads.
* `handled_in_order`: if one of the two buffers is empty at the hand-off, and every final Text frame
  that arrives is valid UTF-8, then every run handles the frames of the bytes in arrival order, and
  ends at the same frame.
* `handled_by_segment`: without the conditions it does not. An invalid text ends the connection only
  if it was awaited, and two buffers are handed over in the wrong order.
-/

namespace ShrimpWisp

/-- The hand-off (`handle_connection`, step 3), as far as it concerns reads: the read half's buffer,
`parts.read_buf`, and what the reads of the socket return. -/
structure HandOff where
  buffer : List UInt8
  readBuf : List UInt8
  stream : List (List UInt8)
  deriving DecidableEq, Repr

/-- The client's bytes since the handshake, in the order of their arrival. Hyper's stream returns
its buffered bytes before those of the socket, so what the handshake has read came before what hyper
still has. -/
def HandOff.arrived (h : HandOff) : List UInt8 := h.buffer ++ h.readBuf ++ (arriving h.stream).1

/-- The client's end of the stream was read. -/
def HandOff.eof (h : HandOff) : Bool := (arriving h.stream).2

/-- `ws_read_half`, with the bytes that hyper still had. -/
def HandOff.readHalf (h : HandOff) : List UInt8 :=
  if h.readBuf.isEmpty then h.buffer else ReadHalf.prependBytes h.readBuf h.buffer

/-- `handle_inbound!` breaks the loop. -/
def breaks : Except WebSocketError WispFrameResult → Bool
  | .ok r => r.closes
  | .error _ => true

/-- The main loop, as far as it concerns reads. -/
structure MainLoop where
  reading : Reading UInt8 (Except WebSocketError WispFrameResult)
  framesSinceYield : Nat := 0
  /-- At the `select!`, otherwise in the inner loop. -/
  selecting : Bool := false
  deriving DecidableEq, Repr

namespace MainLoop

/-- One turn of the inner loop, or a `select!` in which another branch wins unless a frame is
complete after `reads` reads. -/
def step (S : Setup) (l : MainLoop) (reads : Nat) : Option MainLoop :=
  let st := l.reading
  if st.ended then none
  else if l.selecting then
    match WebSocketRead.readWispFrame S.frameLimit st.buffer (st.stream.take reads) with
    | .pending buffer =>
      some { l with
        reading := { st with buffer, stream := st.stream.drop reads }
        selecting := false }
    | .ready result buffer stream =>
      some
        { reading :=
            { st with buffer, stream := stream ++ st.stream.drop reads }.handle breaks result
          framesSinceYield := l.framesSinceYield + 1
          selecting := false }
  else
    match WebSocketRead.tryReadWispFrame S.frameLimit st.buffer with
    | none => some { l with selecting := true }
    | some (result, buffer) =>
      let reading := { st with buffer }.handle breaks result
      if S.yieldLimit ≤ l.framesSinceYield + 1 then
        some { reading, framesSinceYield := 0, selecting := true }
      else some { l with reading, framesSinceYield := l.framesSinceYield + 1 }

/-- The main loop at a hand-off. -/
def start (h : HandOff) : MainLoop := { reading := { buffer := h.readHalf, stream := h.stream } }

def sys (S : Setup) (h : HandOff) : Sys MainLoop Nat where
  init l := l = start h
  step := step S

end MainLoop

/-! ## The two readers as the two ways of a decoder -/

/-- The buffered parser, with what the two readers make of a frame. -/
def wispDecoder (limit : Nat) :
    Decoder UInt8 (Except WebSocketError MaskedFrame) (Except WebSocketError WispFrameResult) where
  decode := ReadHalf.tryParseFrameBuffered limit
  inner r := (r.map WebSocketRead.buffered).getD (.error .unexpectedEof)
  outer r := (r.map WebSocketRead.awaited).getD (.error .unexpectedEof)
  ends := breaks
  stable y h := ReadHalf.tryParseFrameBuffered_append h y
  shrinks {_ r _} h he := by
    cases r with
    | ok f => exact ReadHalf.tryParseFrameBuffered_shrinks h
    | error e => cases he
  eof_ends := rfl

/-- The frames of a byte sequence, as they are parsed, up to the one that ends the connection. -/
def parsed (limit : Nat) (bytes : List UInt8) (eof : Bool) :
    List (Option (Except WebSocketError MaskedFrame)) :=
  (wispDecoder limit).decoded bytes eof

/-- The frames of a byte sequence, up to the one that ends the connection: Wisp packets, control
frames and the error at the end. -/
def received (limit : Nat) (bytes : List UInt8) (eof : Bool) :
    List (Except WebSocketError WispFrameResult) :=
  (parsed limit bytes eof).map (wispDecoder limit).inner

theorem parseFrameHeader_await (limit : Nat) (buffer : List UInt8) (stream : List (List UInt8)) :
    ReadHalf.parseFrameHeader limit buffer stream =
      match (wispDecoder limit).await stream buffer with
      | .pending buffer => .pending buffer
      | .eof buffer stream => .ready (.error .unexpectedEof) buffer stream
      | .item r buffer stream => .ready r buffer stream := by
  induction stream generalizing buffer with
  | nil =>
    rw [ReadHalf.parseFrameHeader_eq, Decoder.await]
    simp only [wispDecoder]
    cases ReadHalf.tryParseFrameBuffered limit buffer <;> rfl
  | cons chunk stream ih =>
    rw [ReadHalf.parseFrameHeader_eq, Decoder.await]
    cases hd : ReadHalf.tryParseFrameBuffered limit buffer with
    | some p => simp only [wispDecoder, hd]
    | none =>
      simp only [show (wispDecoder limit).decode buffer = none from hd]
      split
      · rfl
      · exact ih (buffer ++ chunk)

theorem readWispFrame_await (limit : Nat) (buffer : List UInt8) (stream : List (List UInt8)) :
    WebSocketRead.readWispFrame limit buffer stream =
      match (wispDecoder limit).await stream buffer with
      | .pending buffer => .pending buffer
      | .eof buffer stream => .ready ((wispDecoder limit).outer none) buffer stream
      | .item r buffer stream => .ready ((wispDecoder limit).outer (some r)) buffer stream := by
  rw [WebSocketRead.readWispFrame_eq, parseFrameHeader_await]
  cases (wispDecoder limit).await stream buffer <;> rfl

/-! ## The hand-off -/

/-- The read half on hyper's upgraded stream, in the handshake: what hyper has buffered is returned
in pieces, before what the socket returns. -/
structure Upgraded where
  buffer : List UInt8
  readBuf : List (List UInt8)
  stream : List (List UInt8)
  deriving DecidableEq, Repr

namespace Upgraded

/-- A frame of the handshake is read. -/
def readFrame (limit : Nat) (u : Upgraded) : Option (MaskedFrame × Upgraded) :=
  match ReadHalf.parseFrameHeader limit u.buffer (u.readBuf ++ u.stream) with
  | .ready (.ok f) buffer rest =>
    let left := rest.length - u.stream.length
    some (f, ⟨buffer, rest.take left, rest.drop left⟩)
  | _ => none

/-- `into_parts` and `downcast`. -/
def handOff (u : Upgraded) : HandOff := ⟨u.buffer, u.readBuf.flatten, u.stream⟩

variable {limit : Nat} {u u' : Upgraded} {f : MaskedFrame}

/-- What hyper has left after some reads is among what it had. -/
theorem mem_of_left {readBuf stream rest : List (List UInt8)} (hsuf : rest <:+ readBuf ++ stream)
    {piece : List UInt8} (hp : piece ∈ rest.take (rest.length - stream.length)) :
    piece ∈ readBuf := by
  obtain ⟨pre, hpre⟩ := hsuf
  by_cases hle : stream.length ≤ rest.length
  · rw [← List.take_append_drop (rest.length - stream.length) rest, ← List.append_assoc] at hpre
    have hdrop : (rest.drop (rest.length - stream.length)).length = stream.length := by
      rw [List.length_drop]
      omega
    rw [← (List.append_inj' hpre hdrop).1]
    exact List.mem_append_right pre hp
  · rw [Nat.sub_eq_zero_of_le (by omega), List.take_zero] at hp
    cases hp

/-- The bytes of a hand-off are in arrival order: a frame of the handshake is taken off the front of
them, whatever the pieces. -/
theorem readFrame_arrived (hne : ∀ piece ∈ u.readBuf, piece ≠ [])
    (h : u.readFrame limit = some (f, u')) :
    (∀ piece ∈ u'.readBuf, piece ≠ []) ∧ u'.handOff.eof = u.handOff.eof ∧
      ReadHalf.tryParseFrameBuffered limit u.handOff.arrived =
        some (.ok f, u'.handOff.arrived) := by
  have harr : ∀ v : Upgraded, (∀ piece ∈ v.readBuf, piece ≠ []) →
      v.buffer ++ (arriving (v.readBuf ++ v.stream)).1 = v.handOff.arrived ∧
        (arriving (v.readBuf ++ v.stream)).2 = v.handOff.eof := by
    intro v hv
    rw [arriving_append hv]
    exact ⟨by simp [handOff, HandOff.arrived], rfl⟩
  unfold readFrame at h
  rw [parseFrameHeader_await] at h
  cases ha : (wispDecoder limit).await (u.readBuf ++ u.stream) u.buffer with
  | pending | eof => rw [ha] at h; cases h
  | item r buffer rest =>
    rw [ha] at h
    cases r with
    | error e => cases h
    | ok f' =>
      cases h
      obtain ⟨hd, he⟩ := Decoder.await_item ha []
      simp only [List.append_nil] at hd he
      have hleft : ∀ piece ∈ rest.take (rest.length - u.stream.length), piece ≠ [] :=
        fun piece hp => hne piece (mem_of_left (Decoder.await_suffix ha) hp)
      obtain ⟨hb, heof⟩ := harr u hne
      obtain ⟨hb', heof'⟩ := harr ⟨buffer, _, rest.drop (rest.length - u.stream.length)⟩ hleft
      rw [List.take_append_drop] at hb' heof'
      exact ⟨hleft, by rw [← heof', he, heof], by rw [← hb, ← hb']; exact hd⟩

end Upgraded

namespace MainLoop

variable {S : Setup} {h : HandOff} {l l' : MainLoop} {reads : Nat}

/-- A step of the main loop is a move of the decoder's loop, or none. -/
theorem step_reading (hs : step S l reads = some l') :
    l'.reading = l.reading ∨
      ∃ m, (wispDecoder S.frameLimit).step l.reading m = some l'.reading := by
  unfold step at hs
  simp only at hs
  split at hs
  · cases hs
  next hend =>
  split at hs
  · right
    refine ⟨.outer reads, ?_⟩
    rw [readWispFrame_await] at hs
    rw [Decoder.step, if_neg hend]
    cases ha : (wispDecoder S.frameLimit).await (l.reading.stream.take reads) l.reading.buffer with
    | _ =>
      rw [ha] at hs
      cases hs
      rfl
  · split at hs
    · cases hs
      exact .inl rfl
    · next result buffer hr =>
      right
      refine ⟨.inner, ?_⟩
      rw [WebSocketRead.tryReadWispFrame_eq] at hr
      obtain ⟨⟨r, b⟩, hd, hp⟩ := Option.map_eq_some_iff.mp hr
      cases hp
      rw [Decoder.step, if_neg hend]
      simp only [show (wispDecoder S.frameLimit).decode l.reading.buffer = some (r, b) from hd]
      split at hs <;> cases hs <;> rfl

theorem Reach.reading (hr : (sys S h).Reach Sys.Any l) :
    ((wispDecoder S.frameLimit).sys h.readHalf h.stream).Reach Sys.Any l.reading := by
  induction hr with
  | init hi => exact .init (by rw [hi]; rfl)
  | step reads _ hs _ ih =>
    obtain he | ⟨m, hm⟩ := step_reading hs
    · rw [he]
      exact ih
    · exact .step m ih hm trivial

/-- The loop has ended, or it has read everything and no frame is complete. -/
def Quiet (S : Setup) (l : MainLoop) : Prop :=
  l.reading.ended = true ∨ l.reading.stream = [] ∧
    WebSocketRead.tryReadWispFrame S.frameLimit l.reading.buffer = none

instance : Decidable (Quiet S l) := inferInstanceAs (Decidable (_ ∨ _ ∧ _))

theorem quiet_iff : Quiet S l ↔ (wispDecoder S.frameLimit).Quiet l.reading := by
  unfold Quiet Decoder.Quiet
  rw [WebSocketRead.tryReadWispFrame_eq, Option.map_eq_none_iff]
  rfl

/-- More frames were handled, or more was read. -/
def Ahead (l l' : MainLoop) : Prop :=
  l.reading.handled.length < l'.reading.handled.length ∨
    l'.reading.stream.length < l.reading.stream.length

/-- A `select!` that waits for one read gets ahead. -/
theorem select_ahead (hq : ¬ Quiet S l) (hsel : l.selecting = true) :
    ∃ l', step S l 1 = some l' ∧ Ahead l l' := by
  rw [quiet_iff] at hq
  have hend : ¬ l.reading.ended = true := fun he => hq (.inl he)
  obtain ⟨st, hst, hahead⟩ := Decoder.exists_step hq
  rw [Decoder.step, if_neg hend] at hst
  simp only [step, if_neg hend, hsel, if_true, readWispFrame_await]
  cases ha : (wispDecoder S.frameLimit).await (l.reading.stream.take 1) l.reading.buffer with
  | _ =>
    rw [ha] at hst
    cases hst
    exact ⟨_, rfl, hahead⟩

/-- A loop that has something to do gets ahead in at most two steps. -/
theorem exists_ahead (hq : ¬ Quiet S l) :
    ∃ moves l', (sys S h).run Sys.Any l moves = some l' ∧ Ahead l l' := by
  cases hsel : l.selecting with
  | true =>
    obtain ⟨l', hs, hahead⟩ := select_ahead hq hsel
    exact ⟨[1], l', by simp [Sys.run, sys, hs, Sys.Any], hahead⟩
  | false =>
    have hend : ¬ l.reading.ended = true := fun he => hq (.inl he)
    cases hr : WebSocketRead.tryReadWispFrame S.frameLimit l.reading.buffer with
    | some p =>
      obtain ⟨l', hs, hh⟩ : ∃ l', step S l 0 = some l' ∧
          l'.reading.handled = l.reading.handled ++ [p.1] := by
        simp only [step, if_neg hend, hsel, hr, Bool.false_eq_true, if_false]
        split
        · exact ⟨_, rfl, rfl⟩
        · exact ⟨_, rfl, rfl⟩
      exact ⟨[0], l', by simp [Sys.run, sys, hs, Sys.Any], .inl (by simp [hh])⟩
    | none =>
      have hs : step S l 0 = some { l with selecting := true } := by
        simp only [step, if_neg hend, hsel, hr]
        rfl
      obtain ⟨l', hs', hahead⟩ := select_ahead (l := { l with selecting := true }) hq rfl
      exact ⟨[0, 1], l', by simp [Sys.run, sys, hs, hs', Sys.Any], hahead⟩

end MainLoop

/-! ## Arrival order -/

section Order

variable {S : Setup} {h : HandOff} {l : MainLoop}

theorem HandOff.readHalf_eq (hbuf : h.buffer = [] ∨ h.readBuf = []) :
    h.readHalf = h.buffer ++ h.readBuf := by
  unfold readHalf ReadHalf.prependBytes
  obtain he | he := hbuf
  · rw [he]
    split
    · next hr => simp [List.isEmpty_iff.mp hr]
    · simp
  · simp [he]

/-- The two readers make the same of a frame, unless it is an invalid text. -/
theorem inner_eq_outer {limit : Nat} {r : Option (Except WebSocketError MaskedFrame)}
    (hr : ∀ f, r = some (.ok f) → f.unmask.invalidText = false) :
    (wispDecoder limit).inner r = (wispDecoder limit).outer r := by
  cases r with
  | none => rfl
  | some r =>
    cases r with
    | error e => rfl
    | ok f => simp [wispDecoder, WebSocketRead.buffered, WebSocketRead.awaited, hr f rfl]

/-- In every run the frames that were handled are the first ones of the client's bytes; all of
them, once there is nothing to do; and until then the loop can get ahead. Hyper's bytes and those
that the handshake has read must not both be left, and a final Text frame must be valid UTF-8. -/
theorem handled_in_order (S : Setup) (h : HandOff) (hbuf : h.buffer = [] ∨ h.readBuf = [])
    (htext : ∀ f, some (.ok f) ∈ parsed S.frameLimit h.arrived h.eof →
      f.unmask.invalidText = false)
    {l : MainLoop} (hr : (MainLoop.sys S h).Reach Sys.Any l) :
    l.reading.handled <+: received S.frameLimit h.arrived h.eof ∧
      (MainLoop.Quiet S l → l.reading.handled = received S.frameLimit h.arrived h.eof) ∧
      (¬ MainLoop.Quiet S l → ∃ moves l', (MainLoop.sys S h).run Sys.Any l moves = some l' ∧
        MainLoop.Ahead l l') := by
  have hreach := MainLoop.Reach.reading hr
  rw [HandOff.readHalf_eq hbuf] at hreach
  have hag : ∀ r ∈ parsed S.frameLimit h.arrived h.eof,
      (wispDecoder S.frameLimit).inner r = (wispDecoder S.frameLimit).outer r :=
    fun r hr => inner_eq_outer fun f hf => htext f (hf ▸ hr)
  obtain ⟨hpre, hall⟩ := Decoder.Reach.handled hag hreach
  exact ⟨hpre, fun hq => hall (MainLoop.quiet_iff.mp hq), MainLoop.exists_ahead⟩

end Order

/-! ## Two runs on the same bytes -/

namespace MainLoop

/-- What a run has handled, if there is nothing to do after it. -/
def outcome (S : Setup) (h : HandOff) (moves : List Nat) :
    Option (List (Except WebSocketError WispFrameResult)) :=
  match (sys S h).run Sys.Any (start h) moves with
  | some l => if Quiet S l then some l.reading.handled else none
  | none => none

theorem exists_of_outcome {S : Setup} {h : HandOff} {moves : List Nat}
    {handled : List (Except WebSocketError WispFrameResult)}
    (ho : outcome S h moves = some handled) :
    ∃ l, (sys S h).Reach Sys.Any l ∧ Quiet S l ∧ l.reading.handled = handled := by
  unfold outcome at ho
  split at ho
  · next l hl =>
    split at ho
    · next hq =>
      cases ho
      exact ⟨l, .of_run (.init rfl) hl, hq, rfl⟩
    · cases ho
  · cases ho

end MainLoop

/-- The frames that the client sends: a Ping, a Text frame and a Close, with a zero mask. -/
def pingBytes (b : UInt8) : List UInt8 := [0x89, 0x81, 0, 0, 0, 0, b]
def textBytes (b : UInt8) : List UInt8 := [0x81, 0x81, 0, 0, 0, 0, b]
def closeBytes : List UInt8 := [0x88, 0x80, 0, 0, 0, 0]

/-- The bytes of a text and a Close, split over hyper's buffer and two reads. -/
def inPieces : HandOff :=
  ⟨[], (textBytes 0x68).take 2, [(textBytes 0x68).drop 2 ++ closeBytes.take 1, closeBytes.drop 1]⟩

theorem parsed_inPieces :
    parsed ({ config := {} } : Setup).frameLimit inPieces.arrived inPieces.eof =
      [some (.ok ⟨true, .text, [0, 0, 0, 0], [0x68]⟩),
        some (.ok ⟨true, .close, [0, 0, 0, 0], []⟩)] := by
  have htext : (wispDecoder ({ config := {} } : Setup).frameLimit).decode inPieces.arrived =
      some (.ok ⟨true, .text, [0, 0, 0, 0], [0x68]⟩, closeBytes) := by decide +kernel
  have hclose : (wispDecoder ({ config := {} } : Setup).frameLimit).decode closeBytes =
      some (.ok ⟨true, .close, [0, 0, 0, 0], []⟩, []) := by decide +kernel
  rw [parsed, Decoder.decoded_some _ htext, Decoder.decoded_some _ hclose]
  rfl

/-- The text and the Close are handled, after a `select!` that was given up. -/
theorem handled_in_order_pieces :
    ∃ l, (MainLoop.sys { config := {} } inPieces).Reach Sys.Any l ∧
      l.reading.handled = received ({ config := {} } : Setup).frameLimit inPieces.arrived
        inPieces.eof ∧
      l.reading.handled =
        [.ok (.control ⟨true, .text, [0x68]⟩), .ok (.control ⟨true, .close, []⟩)] := by
  have ho : MainLoop.outcome { config := {} } inPieces [0, 0, 0, 1, 0, 1] =
      some [.ok (.control ⟨true, .text, [0x68]⟩), .ok (.control ⟨true, .close, []⟩)] := by
    decide +kernel
  obtain ⟨l, hr, hq, hh⟩ := MainLoop.exists_of_outcome ho
  refine ⟨l, hr, (handled_in_order { config := {} } inPieces (.inl rfl) ?_ hr).2.1 hq, hh⟩
  intro f hf
  rw [parsed_inPieces] at hf
  simp only [List.mem_cons, List.not_mem_nil, or_false, Option.some.injEq, Except.ok.injEq] at hf
  obtain rfl | rfl := hf <;> decide +kernel

/-- Two hand-offs of the same bytes, after which the loop handles different frames. -/
def Differ (S : Setup) (h h' : HandOff) : Prop :=
  h.arrived = h'.arrived ∧ h.eof = h'.eof ∧
    ∃ l l', (MainLoop.sys S h).Reach Sys.Any l ∧ MainLoop.Quiet S l ∧
      (MainLoop.sys S h').Reach Sys.Any l' ∧ MainLoop.Quiet S l' ∧
      l.reading.handled ≠ l'.reading.handled

theorem Differ.of_outcome {S : Setup} {h h' : HandOff} {moves moves' : List Nat}
    {xs ys : List (Except WebSocketError WispFrameResult)}
    (harr : h.arrived = h'.arrived ∧ h.eof = h'.eof) (ho : MainLoop.outcome S h moves = some xs)
    (ho' : MainLoop.outcome S h' moves' = some ys) (hne : xs ≠ ys) : Differ S h h' := by
  obtain ⟨l, hr, hq, hh⟩ := MainLoop.exists_of_outcome ho
  obtain ⟨l', hr', hq', hh'⟩ := MainLoop.exists_of_outcome ho'
  exact ⟨harr.1, harr.2, l, l', hr, hq, hr', hq', by rw [hh, hh']; exact hne⟩

/-- An empty Binary frame of the handshake and two Pings, which hyper has buffered: returned by one
read, and by two. -/
def inOne : Upgraded := ⟨[], [[0x82, 0x80, 0, 0, 0, 0] ++ pingBytes 1 ++ pingBytes 2], []⟩
def inTwo : Upgraded := ⟨[], [[0x82, 0x80, 0, 0, 0, 0] ++ pingBytes 1, pingBytes 2], []⟩

/-- What is handled depends on the split. An invalid text ends the connection if it comes from the
socket, but it is ignored, and the Ping after it answered, if it was in the buffer. And the bytes
that hyper still has are handled before those that the handshake has read. -/
theorem handled_by_segment :
    Differ { config := {} } ⟨[], [], [textBytes 0xC0 ++ pingBytes 1]⟩
        ⟨[], textBytes 0xC0 ++ pingBytes 1, []⟩ ∧
      ∃ f u u', inOne.readFrame maxMessageSize = some (f, u) ∧
        inTwo.readFrame maxMessageSize = some (f, u') ∧
        Differ { config := {} } u.handOff u'.handOff := by
  refine ⟨?_, ⟨true, .binary, [0, 0, 0, 0], []⟩, ⟨pingBytes 1 ++ pingBytes 2, [], []⟩,
    ⟨pingBytes 1, [pingBytes 2], []⟩, by decide +kernel, by decide +kernel, ?_⟩
  · have h : MainLoop.outcome { config := {} } ⟨[], [], [textBytes 0xC0 ++ pingBytes 1]⟩ [0, 1] =
        some [.error .invalidUtf8] := by decide +kernel
    have h' : MainLoop.outcome { config := {} } ⟨[], textBytes 0xC0 ++ pingBytes 1, []⟩ [0, 0] =
        some [.ok (.control ⟨true, .text, [0xC0]⟩), .ok (.control ⟨true, .ping, [1]⟩)] := by
      decide +kernel
    exact .of_outcome (by decide +kernel) h h' (by decide)
  · have h : MainLoop.outcome { config := {} } ⟨pingBytes 1 ++ pingBytes 2, [], []⟩ [0, 0] =
        some [.ok (.control ⟨true, .ping, [1]⟩), .ok (.control ⟨true, .ping, [2]⟩)] := by
      decide +kernel
    have h' : MainLoop.outcome { config := {} } ⟨pingBytes 1, pingBytes 2, []⟩ [0, 0] =
        some [.ok (.control ⟨true, .ping, [2]⟩), .ok (.control ⟨true, .ping, [1]⟩)] := by
      decide +kernel
    exact .of_outcome (by decide +kernel) h h' (by decide)

end ShrimpWisp
