import ShrimpWisp.Lib.Sink
import ShrimpWisp.Protocol.Frame
import ShrimpWisp.Ws.Reader

/-!
# WebSocket frames to the client (`src/server/connection.rs`)

The frame writers of the connection handler, down to the bytes that the client's socket takes, and
the pre-framing of the backend readers. A writer returns whether it succeeded, and the socket
(`Sink`).

* `encodeFrame`: a final, unmasked frame, its length in the shortest form. This is what the wire has
  to carry.
* `puts_writeWsBinaryFrame` and the like: each writer puts whole frames on the wire, or a part of
  them and then nothing any more.
* `preframeTcp_eq`, `preframeUdp_eq`: the readers' buffers are whole frames, whatever a fresh buffer
  holds.
-/

namespace ShrimpWisp

/-! ## Frames on the wire -/

/-- The opcode's number (RFC 6455). -/
def OpCode.byte : OpCode → UInt8
  | .continuation => 0x0
  | .text => 0x1
  | .binary => 0x2
  | .close => 0x8
  | .ping => 0x9
  | .pong => 0xA

/-- `u64::to_be_bytes`. -/
def toBe64 (n : Nat) : List UInt8 :=
  [(n / 2 ^ 56).toUInt8, (n / 2 ^ 48).toUInt8, (n / 2 ^ 40).toUInt8, (n / 2 ^ 32).toUInt8,
    (n / 2 ^ 24).toUInt8, (n / 2 ^ 16).toUInt8, (n / 2 ^ 8).toUInt8, n.toUInt8]

/-- The length of a payload without a mask bit, in the shortest form. -/
def lengthField (n : Nat) : List UInt8 :=
  if n ≤ 125 then [n.toUInt8]
  else if n ≤ 65535 then [126, (n / 2 ^ 8).toUInt8, n.toUInt8]
  else 127 :: toBe64 n

/-- A frame with FIN set and without a mask. -/
def encodeFrame (opcode : OpCode) (payload : List UInt8) : List UInt8 :=
  (0x80 ||| opcode.byte) :: lengthField payload.length ++ payload

/-! ## The writers -/

/-- The header of a large Binary frame. -/
def largeHeader (len : Nat) : List UInt8 :=
  if len ≤ 65535 then [0x82, 126, (len / 2 ^ 8).toUInt8, len.toUInt8] else 0x82 :: 127 :: toBe64 len

/-- The rest of a header of which `n` bytes were taken, each time with the payload. A write takes at
least one byte, so the header's length is enough fuel. -/
def writeHeaderRest (hdr payload : List UInt8) : Nat → Nat → Sink UInt8 → Option Nat × Sink UInt8
  | 0, n, writer => (some n, writer)
  | fuel + 1, n, writer =>
    if n < hdr.length then
      match writer.write (hdr.drop n ++ payload) with
      | (0, writer) => (none, writer)
      | (wrote + 1, writer) => writeHeaderRest hdr payload fuel (n + (wrote + 1)) writer
    else (some n, writer)

/-- The rest of the payload, once the header is out. -/
def writePayloadRest (hdr payload : List UInt8) : Option Nat × Sink UInt8 → Bool × Sink UInt8
  | (none, writer) => (false, writer)
  | (some n, writer) =>
    if n < hdr.length + payload.length then writer.writeAll (payload.drop (n - hdr.length))
    else (true, writer)

/-- `write_ws_binary_frame`. -/
def writeWsBinaryFrame (writer : Sink UInt8) (payload : List UInt8) : Bool × Sink UInt8 :=
  let len := payload.length
  if len ≤ 125 then writer.writeAll (0x82 :: len.toUInt8 :: payload)
  else
    let hdr := largeHeader len
    let total := hdr.length + len
    match writer.write (hdr ++ payload) with
    | (n, writer) =>
      if n = total then (true, writer)
      else if n = 0 then (false, writer)
      else writePayloadRest hdr payload (writeHeaderRest hdr payload hdr.length n writer)

/-- The frames that a vectored write of `n` bytes took whole: how many, and their bytes. -/
def countWhole (n : Nat) : Nat → Nat → List (List UInt8) → Nat × Nat
  | startFrame, consumed, [] => (startFrame, consumed)
  | startFrame, consumed, frame :: frames =>
    if consumed + frame.length ≤ n then
      countWhole n (startFrame + 1) (consumed + frame.length) frames
    else (startFrame, consumed)

/-- The frames one by one, up to the first error. -/
def writeEach (writer : Sink UInt8) : List (List UInt8) → Bool × Sink UInt8
  | [] => (true, writer)
  | frame :: frames =>
    match writer.writeAll frame with
    | (true, writer) => writeEach writer frames
    | (false, writer) => (false, writer)

/-- `write_ws_frames_preframed_inner`. The source has the same code twice, for up to 64 slices on the
stack and for more on the heap. -/
def writeWsFramesPreframedInner (writer : Sink UInt8) (frames : List (List UInt8)) :
    Bool × Sink UInt8 :=
  let total := frames.flatten.length
  match writer.write frames.flatten with
  | (n, writer) =>
    if n = total then (true, writer)
    else if n = 0 then (false, writer)
    else
      let (startFrame, consumed) := countWhole n 0 0 frames
      if startFrame < frames.length ∧ consumed < n then
        match writer.writeAll ((frames.getD startFrame []).drop (n - consumed)) with
        | (true, writer) => writeEach writer (frames.drop (startFrame + 1))
        | (false, writer) => (false, writer)
      else writeEach writer (frames.drop startFrame)

/-- Linux UIO_MAXIOV. -/
def maxBatchFrames : Nat := 1024

/-- `frames.chunks(MAX_BATCH_FRAMES)`, each in one vectored write. A chunk is not empty, so the
number of frames is enough fuel. -/
def writeChunks : Nat → Sink UInt8 → List (List UInt8) → Bool × Sink UInt8
  | 0, writer, _ => (true, writer)
  | fuel + 1, writer, frames =>
    if frames.isEmpty then (true, writer)
    else
      match writeWsFramesPreframedInner writer (frames.take maxBatchFrames) with
      | (true, writer) => writeChunks fuel writer (frames.drop maxBatchFrames)
      | (false, writer) => (false, writer)

/-- `write_ws_frames_batched`. -/
def writeWsFramesBatched (writer : Sink UInt8) (frames : List (List UInt8)) : Bool × Sink UInt8 :=
  if frames.isEmpty then (true, writer)
  else if frames.length = 1 then writer.writeAll (frames.getD 0 [])
  else if maxBatchFrames < frames.length then writeChunks frames.length writer frames
  else writeWsFramesPreframedInner writer frames

/-- `write_ws_pong_frame`. -/
def writeWsPongFrame (writer : Sink UInt8) (payload : List UInt8) : Bool × Sink UInt8 :=
  let payload := payload.take (min payload.length 125)
  writer.writeAll (0x8A :: payload.length.toUInt8 :: payload)

/-- `write_ws_ping_frame`. -/
def writeWsPingFrame (writer : Sink UInt8) : Bool × Sink UInt8 := writer.writeAll [0x89, 0x00]

/-- `write_ws_close_frame`. -/
def writeWsCloseFrame (writer : Sink UInt8) : Bool × Sink UInt8 := writer.writeAll [0x88, 0x00]

/-- `buf[i..i + bs.len()].copy_from_slice(bs)`. -/
def copyAt (buf : List UInt8) (i : Nat) (bs : List UInt8) : List UInt8 :=
  buf.take i ++ bs ++ buf.drop (i + bs.length)

/-- The CONTINUEs in a buffer on the stack, from `pos` on: the buffer, and the end. -/
def fillContinues (buf : List UInt8) (pos : Nat) : List (StreamId × UInt32) → List UInt8 × Nat
  | [] => (buf, pos)
  | (streamId, remaining) :: pending =>
    let buf := copyAt buf pos [0x82, 9]
    let buf := copyAt buf (pos + 2) (buildContinueFrame streamId remaining)
    fillContinues buf (pos + 11) pending

/-- `flush_continues_direct`, for the queue `pending`. -/
def flushContinuesDirect (writer : Sink UInt8) (pending : List (StreamId × UInt32)) :
    Bool × Sink UInt8 :=
  match pending with
  | [(streamId, remaining)] => writeWsBinaryFrame writer (buildContinueFrame streamId remaining)
  | _ =>
    if pending.length ≤ 16 then
      let (buf, pos) := fillContinues (List.replicate 176 0) 0 pending
      writer.writeAll (buf.take pos)
    else
      writer.writeAll (pending.flatMap fun p => 0x82 :: 9 :: buildContinueFrame p.1 p.2)

/-! ## Pre-framing -/

def wsMaxHeaderSize : Nat := 10

def preframeReserve : Nat := wsMaxHeaderSize + wispHeaderSize

/-- The capacity of a TCP reader's buffer. -/
def bufCapacity : Nat := preframeReserve + 65536

/-- `backend_tcp_reader`, from a read of `payload` into the fresh buffer `buf` to the frame. -/
def preframeTcp (buf : List UInt8) (streamId : StreamId) (payload : List UInt8) : List UInt8 :=
  let buf := copyAt buf wsMaxHeaderSize (buildDataHeader streamId)
  -- The read, then `truncate`.
  let buf := (copyAt buf preframeReserve payload).take (preframeReserve + payload.length)
  let wsPayloadLen := wispHeaderSize + payload.length
  if wsPayloadLen ≤ 125 then
    let start := preframeReserve - wispHeaderSize - 2
    (copyAt buf start [0x82, wsPayloadLen.toUInt8]).drop start
  else if wsPayloadLen ≤ 65535 then
    let start := preframeReserve - wispHeaderSize - 4
    (copyAt buf start [0x82, 126, (wsPayloadLen / 2 ^ 8).toUInt8, wsPayloadLen.toUInt8]).drop start
  else (copyAt buf 0 (0x82 :: 127 :: toBe64 wsPayloadLen)).drop 0

/-- The reader task of `handle_udp_connect`, from a datagram to the frame. -/
def preframeUdp (streamId : StreamId) (payload : List UInt8) : List UInt8 :=
  let wsPayloadLen := wispHeaderSize + payload.length
  let (wsHdrLen, frameStart) :=
    if wsPayloadLen ≤ 125 then (2, preframeReserve - wispHeaderSize - 2)
    else if wsPayloadLen ≤ 65535 then (4, preframeReserve - wispHeaderSize - 4)
    else (10, 0)
  let buf := List.replicate (frameStart + (wsHdrLen + wispHeaderSize + payload.length)) 0
  let buf := copyAt buf frameStart <|
    if wsPayloadLen ≤ 125 then [0x82, wsPayloadLen.toUInt8]
    else if wsPayloadLen ≤ 65535 then
      [0x82, 126, (wsPayloadLen / 2 ^ 8).toUInt8, wsPayloadLen.toUInt8]
    else 0x82 :: 127 :: toBe64 wsPayloadLen
  let buf := copyAt buf (frameStart + wsHdrLen) (buildDataHeader streamId)
  let buf := copyAt buf (frameStart + wsHdrLen + wispHeaderSize) payload
  buf.drop frameStart

/-! ## What the writers put on the wire -/

open Sink

theorem encodeFrame_small (opcode : OpCode) {payload : List UInt8} (h : payload.length ≤ 125) :
    encodeFrame opcode payload =
      (0x80 ||| opcode.byte) :: payload.length.toUInt8 :: payload := by
  simp [encodeFrame, lengthField, h]

theorem encodeFrame_large {payload : List UInt8} (h : ¬ payload.length ≤ 125) :
    encodeFrame .binary payload = largeHeader payload.length ++ payload := by
  unfold encodeFrame lengthField largeHeader
  rw [if_neg h]
  split <;> rfl

/-- A header that was taken in part, and the payload after it. -/
theorem puts_headerRest (hdr payload : List UInt8) (fuel n : Nat) (writer : Sink UInt8)
    (hf : hdr.length ≤ n + fuel) (hn : n ≤ (hdr ++ payload).length) :
    writer.Puts ((hdr ++ payload).drop n)
      (writePayloadRest hdr payload (writeHeaderRest hdr payload fuel n writer)) := by
  have hdone : ∀ n (writer : Sink UInt8), hdr.length ≤ n → n ≤ (hdr ++ payload).length →
      writer.Puts ((hdr ++ payload).drop n) (writePayloadRest hdr payload (some n, writer)) := by
    intro n writer hl hn
    rw [writePayloadRest, List.drop_append, List.drop_eq_nil_of_le hl, List.nil_append]
    split
    · exact writer.puts_writeAll _
    · next hge =>
      rw [List.length_append] at hn
      rw [List.drop_eq_nil_of_le (by omega)]
      exact .nil writer
  induction fuel generalizing n writer with
  | zero => exact hdone n writer hf hn
  | succ fuel ih =>
    rw [writeHeaderRest]
    split
    · next hlt =>
      have hd : (hdr ++ payload).drop n = hdr.drop n ++ payload := by
        rw [List.drop_append_of_le_length (Nat.le_of_lt hlt)]
      rw [hd]
      rcases hw : writer.write (hdr.drop n ++ payload) with ⟨_ | wrote, writer'⟩
      · exact .zero hw
      · obtain ⟨h0, -⟩ | ⟨-, hle, -⟩ := write_cases hw
        · cases h0
        · refine .resume hw (Nat.succ_ne_zero wrote) ?_
          rw [← hd, List.drop_drop]
          rw [← hd, List.length_drop] at hle
          exact ih _ writer' (by omega) (by omega)
    · next hge => exact hdone n writer (by omega) hn

theorem puts_writeWsBinaryFrame (writer : Sink UInt8) (payload : List UInt8) :
    writer.Puts (encodeFrame .binary payload) (writeWsBinaryFrame writer payload) := by
  unfold writeWsBinaryFrame
  dsimp only
  split
  · next h =>
    rw [encodeFrame_small _ h]
    exact writer.puts_writeAll _
  · next h =>
    rw [encodeFrame_large h]
    rcases hw : writer.write (largeHeader payload.length ++ payload) with ⟨n, writer'⟩
    dsimp only
    split
    · next ht =>
      refine .whole hw ?_ (by rw [List.length_append]; exact ht)
      omega
    · split
      · next h0 =>
        subst h0
        exact .zero hw
      · next h0 =>
        obtain ⟨h, -⟩ | ⟨-, hle, -⟩ := write_cases hw
        · exact absurd h h0
        · exact .resume hw h0 (puts_headerRest _ _ _ _ _ (by omega) hle)

theorem puts_writeEach (writer : Sink UInt8) (frames : List (List UInt8)) :
    writer.Puts frames.flatten (writeEach writer frames) := by
  induction frames generalizing writer with
  | nil => exact .nil writer
  | cons frame frames ih =>
    have h := writer.puts_writeAll frame
    rw [writeEach, List.flatten_cons]
    rcases hw : writer.writeAll frame with ⟨_ | _, writer'⟩
    · rw [hw] at h
      exact h.stop _
    · rw [hw] at h
      have := h.seq (ih writer')
      simpa using this

/-- The frames that were taken whole are those up to the one in which the write ended. -/
theorem countWhole_spec (n startFrame consumed : Nat) (frames : List (List UInt8))
    (h : consumed ≤ n) :
    ∃ whole rest, frames = whole ++ rest ∧
      countWhole n startFrame consumed frames =
        (startFrame + whole.length, consumed + whole.flatten.length) ∧
      consumed + whole.flatten.length ≤ n ∧
      ∀ frame ∈ rest.head?, n < consumed + whole.flatten.length + frame.length := by
  induction frames generalizing startFrame consumed with
  | nil => exact ⟨[], [], rfl, rfl, h, by simp⟩
  | cons frame frames ih =>
    rw [countWhole]
    split
    · next hle =>
      obtain ⟨whole, rest, rfl, he, hn, hr⟩ := ih (startFrame + 1) (consumed + frame.length) hle
      refine ⟨frame :: whole, rest, rfl, ?_, ?_, ?_⟩
      · rw [he]
        simp only [List.length_cons, List.flatten_cons, List.length_append, Prod.mk.injEq]
        omega
      · simp only [List.flatten_cons, List.length_append]
        omega
      · intro f hf
        have := hr f hf
        simp only [List.flatten_cons, List.length_append]
        omega
    · next hgt =>
      refine ⟨[], frame :: frames, rfl, rfl, h, ?_⟩
      intro f hf
      simp only [List.head?_cons, Option.mem_some_iff] at hf
      subst hf
      simpa using Nat.lt_of_not_le hgt

/-- After a short vectored write: the rest of the frame in which it ended, then the others. -/
theorem puts_preframedRest (writer : Sink UInt8) {n : Nat} {frames : List (List UInt8)}
    (hn : n < frames.flatten.length) :
    writer.Puts (frames.flatten.drop n)
      (if (countWhole n 0 0 frames).1 < frames.length ∧ (countWhole n 0 0 frames).2 < n then
        match writer.writeAll ((frames.getD (countWhole n 0 0 frames).1 []).drop
          (n - (countWhole n 0 0 frames).2)) with
        | (true, writer) => writeEach writer (frames.drop ((countWhole n 0 0 frames).1 + 1))
        | (false, writer) => (false, writer)
      else writeEach writer (frames.drop (countWhole n 0 0 frames).1)) := by
  obtain ⟨whole, rest, rfl, he, hle, hr⟩ := countWhole_spec n 0 0 frames (Nat.zero_le n)
  simp only [Nat.zero_add] at he hle hr
  rw [he]
  dsimp only
  rw [List.flatten_append, List.drop_append, List.drop_eq_nil_of_le hle, List.nil_append]
  cases rest with
  | nil =>
    rw [List.append_nil] at hn
    omega
  | cons frame rest =>
    have hlt := hr frame rfl
    have hlen : whole.length < (whole ++ frame :: rest).length := by simp
    split
    · next hc =>
      have hget : (whole ++ frame :: rest).getD whole.length [] = frame := by simp
      have hdrop : (whole ++ frame :: rest).drop (whole.length + 1) = rest := by simp
      have h := writer.puts_writeAll (frame.drop (n - whole.flatten.length))
      rw [hget, hdrop, List.flatten_cons, List.drop_append_of_le_length (by omega)]
      rcases hw : writer.writeAll (frame.drop (n - whole.flatten.length)) with ⟨_ | _, writer'⟩
      · rw [hw] at h
        exact h.stop _
      · rw [hw] at h
        have := h.seq (puts_writeEach writer' rest)
        simpa using this
    · next hc =>
      have h0 : n - whole.flatten.length = 0 := by
        by_contra hne
        exact hc ⟨hlen, by omega⟩
      rw [h0, List.drop_zero, List.drop_left]
      exact puts_writeEach writer _

theorem puts_preframedInner (writer : Sink UInt8) (frames : List (List UInt8)) :
    writer.Puts frames.flatten (writeWsFramesPreframedInner writer frames) := by
  unfold writeWsFramesPreframedInner
  rcases hw : writer.write frames.flatten with ⟨n, writer'⟩
  dsimp only
  split
  · next ht =>
    by_cases h0 : n = 0
    · -- Nothing to write.
      obtain ⟨-, hr, hs⟩ | ⟨hpos, -⟩ := write_cases hw
      · rw [List.eq_nil_of_length_eq_zero (ht.symm.trans h0)]
        exact ⟨fun _ => by simp [hs], nofun, fun _ => ⟨hr, hs⟩⟩
      · omega
    · exact .whole hw h0 ht
  · next ht =>
    split
    · next h0 =>
      subst h0
      exact .zero hw
    · next h0 =>
      obtain ⟨h, -⟩ | ⟨-, hle, -⟩ := write_cases hw
      · exact absurd h h0
      · exact .resume hw h0 (puts_preframedRest writer' (by omega))

theorem puts_writeChunks (fuel : Nat) (writer : Sink UInt8) (frames : List (List UInt8))
    (hf : frames.length ≤ fuel) : writer.Puts frames.flatten (writeChunks fuel writer frames) := by
  induction fuel generalizing writer frames with
  | zero =>
    rw [List.eq_nil_of_length_eq_zero (Nat.le_zero.mp hf)]
    exact .nil writer
  | succ fuel ih =>
    rw [writeChunks]
    split
    · next he =>
      rw [List.isEmpty_iff.mp he]
      exact .nil writer
    · next he =>
      have hpos : 0 < frames.length := List.length_pos_iff.mpr (by simpa using he)
      have h := puts_preframedInner writer (frames.take maxBatchFrames)
      have hsplit : frames.flatten =
          (frames.take maxBatchFrames).flatten ++ (frames.drop maxBatchFrames).flatten := by
        rw [← List.flatten_append, List.take_append_drop]
      rw [hsplit]
      rcases hw : writeWsFramesPreframedInner writer (frames.take maxBatchFrames) with
        ⟨_ | _, writer'⟩
      · rw [hw] at h
        exact h.stop _
      · rw [hw] at h
        have hlen : (frames.drop maxBatchFrames).length ≤ fuel := by
          rw [List.length_drop, maxBatchFrames]
          omega
        have := h.seq (ih writer' _ hlen)
        simpa using this

theorem puts_writeWsFramesBatched (writer : Sink UInt8) (frames : List (List UInt8)) :
    writer.Puts frames.flatten (writeWsFramesBatched writer frames) := by
  unfold writeWsFramesBatched
  split
  · next he =>
    rw [List.isEmpty_iff.mp he]
    exact .nil writer
  · split
    · next h1 =>
      obtain ⟨frame, rfl⟩ := List.length_eq_one_iff.mp h1
      simpa using writer.puts_writeAll frame
    · split
      · exact puts_writeChunks _ writer frames (Nat.le_refl _)
      · exact puts_preframedInner writer frames

theorem puts_writeWsPongFrame (writer : Sink UInt8) (payload : List UInt8) :
    writer.Puts (encodeFrame .pong (payload.take 125)) (writeWsPongFrame writer payload) := by
  rw [encodeFrame_small _ (List.length_take_le 125 payload), List.take_eq_take_min, Nat.min_comm]
  exact writer.puts_writeAll _

theorem puts_writeWsPingFrame (writer : Sink UInt8) :
    writer.Puts (encodeFrame .ping []) (writeWsPingFrame writer) := writer.puts_writeAll _

theorem puts_writeWsCloseFrame (writer : Sink UInt8) :
    writer.Puts (encodeFrame .close []) (writeWsCloseFrame writer) := writer.puts_writeAll _

/-! ## Buffers -/

section Buffer

variable {buf bs : List UInt8} {i : Nat}

theorem length_copyAt (h : i + bs.length ≤ buf.length) : (copyAt buf i bs).length = buf.length := by
  simp only [copyAt, List.length_append, List.length_take, List.length_drop]
  omega

theorem take_copyAt (h : i ≤ buf.length) :
    (copyAt buf i bs).take (i + bs.length) = buf.take i ++ bs := by
  have hl : (buf.take i ++ bs).length = i + bs.length := by
    rw [List.length_append, List.length_take]
    omega
  rw [copyAt, ← hl, List.take_left]

theorem drop_copyAt (h : i ≤ buf.length) :
    (copyAt buf i bs).drop i = bs ++ buf.drop (i + bs.length) := by
  have hl : (buf.take i).length = i := by
    rw [List.length_take]
    omega
  rw [copyAt, List.append_assoc, List.drop_left' hl]

end Buffer

theorem length_buildContinueFrame (streamId : StreamId) (n : UInt32) :
    (buildContinueFrame streamId n).length = 9 := rfl

theorem encodeFrame_continue (streamId : StreamId) (n : UInt32) :
    encodeFrame .binary (buildContinueFrame streamId n) =
      0x82 :: 9 :: buildContinueFrame streamId n := rfl

/-- The frames of a batch of CONTINUEs. -/
def continueBytes (pending : List (StreamId × UInt32)) : List UInt8 :=
  pending.flatMap fun p => encodeFrame .binary (buildContinueFrame p.1 p.2)

/-- One CONTINUE in the buffer does not change its size. -/
theorem length_copyContinue {buf : List UInt8} {pos : Nat} (h : pos + 11 ≤ buf.length)
    (streamId : StreamId) (n : UInt32) :
    (copyAt (copyAt buf pos [0x82, 9]) (pos + 2) (buildContinueFrame streamId n)).length =
      buf.length := by
  have h₁ : (copyAt buf pos [0x82, 9]).length = buf.length := length_copyAt (by simp; omega)
  rw [length_copyAt, h₁]
  rw [length_buildContinueFrame, h₁]
  omega

/-- The buffer keeps its size, and each CONTINUE takes eleven bytes of it. -/
theorem fillContinues_bounds (buf : List UInt8) (pos : Nat) (pending : List (StreamId × UInt32))
    (h : pos + 11 * pending.length ≤ buf.length) :
    (fillContinues buf pos pending).1.length = buf.length ∧
      (fillContinues buf pos pending).2 = pos + 11 * pending.length := by
  induction pending generalizing buf pos with
  | nil => exact ⟨rfl, rfl⟩
  | cons p pending ih =>
    rw [List.length_cons] at h
    have hl := length_copyContinue (show pos + 11 ≤ buf.length by omega) p.1 p.2
    obtain ⟨hbuf, hpos⟩ := ih _ (pos + 11) (by rw [hl]; omega)
    rw [fillContinues, hbuf, hpos, hl, List.length_cons]
    exact ⟨rfl, by omega⟩

theorem fillContinues_spec (buf : List UInt8) (pos : Nat) (pending : List (StreamId × UInt32))
    (h : pos + 11 * pending.length ≤ buf.length) :
    ((fillContinues buf pos pending).1.take (fillContinues buf pos pending).2) =
      buf.take pos ++ continueBytes pending := by
  induction pending generalizing buf pos with
  | nil => simp [fillContinues, continueBytes]
  | cons p pending ih =>
    obtain ⟨streamId, remaining⟩ := p
    rw [List.length_cons] at h
    have h₁ : (copyAt buf pos [0x82, 9]).length = buf.length :=
      length_copyAt (by simp; omega)
    have h₂ := length_copyContinue (show pos + 11 ≤ buf.length by omega) streamId remaining
    have hhead : (copyAt (copyAt buf pos [0x82, 9]) (pos + 2)
        (buildContinueFrame streamId remaining)).take (pos + 11) =
        buf.take pos ++ encodeFrame .binary (buildContinueFrame streamId remaining) := by
      have ht := @take_copyAt (copyAt buf pos [0x82, 9]) (buildContinueFrame streamId remaining)
        (pos + 2) (by rw [h₁]; omega)
      have hh := @take_copyAt buf [0x82, 9] pos (by omega)
      rw [length_buildContinueFrame] at ht
      simp only [List.length_cons, List.length_nil] at hh
      rw [ht, hh, encodeFrame_continue]
      simp
    rw [fillContinues, ih _ _ (by rw [h₂]; omega), hhead, continueBytes, continueBytes,
      List.flatMap_cons, List.append_assoc]

/-- The three ways to write a batch write the same bytes. -/
theorem flushContinuesDirect_eq (writer : Sink UInt8) (pending : List (StreamId × UInt32)) :
    flushContinuesDirect writer pending = writer.writeAll (continueBytes pending) := by
  unfold flushContinuesDirect
  split
  · rfl
  · split
    · next hl =>
      have h := fillContinues_spec (List.replicate 176 0) 0 pending
        (by rw [List.length_replicate]; omega)
      rw [List.take_zero, List.nil_append] at h
      dsimp only
      rw [h]
    · rfl

theorem puts_flushContinuesDirect (writer : Sink UInt8) (pending : List (StreamId × UInt32)) :
    writer.Puts (continueBytes pending) (flushContinuesDirect writer pending) := by
  rw [flushContinuesDirect_eq]
  exact writer.puts_writeAll _

/-! ## Pre-framed buffers -/

theorem length_buildDataHeader (streamId : StreamId) : (buildDataHeader streamId).length = 5 := rfl

/-- The header of a Binary frame, by the length of its payload. -/
def binaryHeader (n : Nat) : List UInt8 := 0x82 :: lengthField n

theorem encodeFrame_binary (payload : List UInt8) :
    encodeFrame .binary payload = binaryHeader payload.length ++ payload := rfl

theorem preframeTcp_eq {buf : List UInt8} (hb : buf.length = bufCapacity) (streamId : StreamId)
    (payload : List UInt8) :
    preframeTcp buf streamId payload =
      encodeFrame .binary (buildDataHeader streamId ++ payload) := by
  have hcap : buf.length = 65551 := hb
  -- The buffer after the read: ten bytes that nobody wrote, the Wisp header, the payload.
  have hread : (copyAt (copyAt buf 10 (buildDataHeader streamId)) 15 payload).take
      (15 + payload.length) = buf.take 10 ++ (buildDataHeader streamId ++ payload) := by
    have h : (copyAt buf 10 (buildDataHeader streamId)).take 15 =
        buf.take 10 ++ buildDataHeader streamId :=
      @take_copyAt buf (buildDataHeader streamId) 10 (by omega)
    have hl : (copyAt buf 10 (buildDataHeader streamId)).length = buf.length :=
      length_copyAt (by rw [length_buildDataHeader]; omega)
    rw [take_copyAt (by omega), h, List.append_assoc]
  have hlen : (buf.take 10).length = 10 := by
    rw [List.length_take]
    omega
  have hframe : ∀ (start : Nat) (hdr : List UInt8), start + hdr.length = 10 →
      (copyAt (buf.take 10 ++ (buildDataHeader streamId ++ payload)) start hdr).drop start =
        hdr ++ (buildDataHeader streamId ++ payload) := by
    intro start hdr hs
    rw [drop_copyAt, hs, List.drop_left' hlen]
    rw [List.length_append, hlen]
    omega
  rw [encodeFrame_binary, List.length_append, length_buildDataHeader]
  simp only [preframeTcp, preframeReserve, wsMaxHeaderSize, wispHeaderSize, Nat.reduceAdd,
    Nat.reduceSub, hread, binaryHeader, lengthField]
  split
  · exact hframe 8 _ rfl
  · split
    · exact hframe 6 _ rfl
    · exact hframe 0 _ rfl

/-- A header, the Wisp header and the payload, one after the other from `start` on, fill a buffer up
to its end. -/
theorem fill_eq (start n : Nat) {hdr : List UInt8} (hn : hdr.length = n) (streamId : StreamId)
    (payload : List UInt8) :
    (copyAt (copyAt (copyAt (List.replicate (start + (n + 5 + payload.length)) 0) start hdr)
      (start + n) (buildDataHeader streamId)) (start + n + 5) payload).drop start =
      hdr ++ (buildDataHeader streamId ++ payload) := by
  generalize hb : List.replicate (start + (n + 5 + payload.length)) (0 : UInt8) = buf
  have hl : buf.length = start + (n + 5 + payload.length) := by rw [← hb, List.length_replicate]
  subst hn
  have hl₁ : (copyAt buf start hdr).length = buf.length := length_copyAt (by omega)
  have hl₂ : (copyAt (copyAt buf start hdr) (start + hdr.length)
      (buildDataHeader streamId)).length = buf.length := by
    rw [length_copyAt (by rw [length_buildDataHeader]; omega), hl₁]
  have ht : (copyAt (copyAt buf start hdr) (start + hdr.length) (buildDataHeader streamId)).take
      (start + hdr.length + 5) = buf.take start ++ hdr ++ buildDataHeader streamId := by
    have h₁ := @take_copyAt buf hdr start (by omega)
    have h₂ := @take_copyAt (copyAt buf start hdr) (buildDataHeader streamId)
      (start + hdr.length) (by omega)
    rw [h₁] at h₂
    exact h₂
  have hs : (buf.take start).length = start := by
    rw [List.length_take]
    omega
  have hend : (copyAt (copyAt buf start hdr) (start + hdr.length)
      (buildDataHeader streamId)).drop (start + hdr.length + 5 + payload.length) = [] :=
    List.drop_eq_nil_of_le (by omega)
  rw [copyAt, ht, hend, List.append_nil, List.append_assoc, List.append_assoc, List.drop_left' hs]

theorem preframeUdp_eq (streamId : StreamId) (payload : List UInt8) :
    preframeUdp streamId payload = encodeFrame .binary (buildDataHeader streamId ++ payload) := by
  rw [encodeFrame_binary, List.length_append, length_buildDataHeader]
  unfold preframeUdp preframeReserve wsMaxHeaderSize wispHeaderSize binaryHeader lengthField
  by_cases h₁ : 5 + payload.length ≤ 125
  · simp only [h₁, if_true, Nat.reduceAdd, Nat.reduceSub]
    exact fill_eq 8 2 rfl streamId payload
  · by_cases h₂ : 5 + payload.length ≤ 65535
    · simp only [h₁, h₂, if_true, if_false, Nat.reduceAdd, Nat.reduceSub]
      exact fill_eq 6 4 rfl streamId payload
    · simp only [h₁, h₂, if_false]
      exact fill_eq 0 10 rfl streamId payload

end ShrimpWisp
