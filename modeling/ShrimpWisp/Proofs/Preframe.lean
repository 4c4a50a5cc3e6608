import ShrimpWisp.Rust.Slice
import ShrimpWisp.Ws.Parser
import ShrimpWisp.Ws.Writer
import ShrimpWisp.Proofs.Codec

/-!
# Pre-framed buffers

The backend readers build whole WebSocket frames, and batches of them are written as they are.

* `decodeFrame`: RFC 6455 for a frame that the server sends. `decodeFrame_encodeFrame`.
* `preframeTcpChecked`, `preframeUdpChecked`, `writeWsBinaryFrameChecked`: the three encoders of DATA
  frames, with the bounds check of each index and slice. None of the checks fails.
* `preframed_data`: the readers' frames are what `write_ws_binary_frame` sends, and a client reads
  the DATA packet back from them.
* `writeWsFramesBatched_exact`: a batch is on the wire whole and in order, or up to the error.
* `flushContinues_exact`: the CONTINUEs, built in one of three ways, are on the wire in the order of
  their queue.
-/

namespace ShrimpWisp

/-! ## Decoding -/

/-- The payload length after the first two bytes, in its shortest form, and the bytes after it. -/
def decodeLength (code : Nat) (rest : List UInt8) : Option (Nat × List UInt8) :=
  if code ≤ 125 then some (code, rest)
  else if code = 126 then
    let n := fromBeBytes (rest.take 2)
    if rest.length < 2 ∨ n ≤ 125 then none else some (n, rest.drop 2)
  else
    let n := fromBeBytes (rest.take 8)
    if rest.length < 8 ∨ n ≤ 65535 ∨ 2 ^ 63 ≤ n then none else some (n, rest.drop 8)

/-- The frame at the front of the bytes from a server, and the bytes after it (RFC 6455, 5.2): no
reserved bit, a known opcode, no mask. -/
def decodeFrame : List UInt8 → Option (WsFrame × List UInt8)
  | byte0 :: byte1 :: rest =>
    if byte0 &&& 0x70 ≠ 0 ∨ byte1 &&& 0x80 ≠ 0 then none
    else
      match OpCode.tryFrom (byte0 &&& 0x0F), decodeLength (byte1 &&& 0x7F).toNat rest with
      | .ok opcode, some (n, rest) =>
        if rest.length < n then none
        else some (⟨byte0 &&& 0x80 != 0, opcode, rest.take n⟩, rest.drop n)
      | _, _ => none
  | _ => none

/-- One more byte of a number, from the front. -/
theorem shiftIn_byte (n k : Nat) :
    0x100 * (n / 2 ^ (k + 8)) + (n / 2 ^ k).toUInt8.toNat = n / 2 ^ k := by
  rw [Nat.toUInt8_eq, UInt8.toNat_ofNat', Nat.pow_add, ← Nat.div_div_eq_div_mul]
  exact Nat.div_add_mod (n / 2 ^ k) 0x100

theorem fromBeBytes_toBe64 {n : Nat} (h : n < 2 ^ 64) : fromBeBytes (toBe64 n) = n := by
  have htop : (0 : Nat) = n / 2 ^ (56 + 8) := (Nat.div_eq_of_lt h).symm
  simp only [fromBeBytes, toBe64, List.foldl_cons, List.foldl_nil]
  rw [htop, shiftIn_byte n 56, shiftIn_byte n 48, shiftIn_byte n 40, shiftIn_byte n 32,
    shiftIn_byte n 24, shiftIn_byte n 16, shiftIn_byte n 8]
  simpa only [Nat.pow_zero, Nat.div_one] using shiftIn_byte n 0

theorem fromBeBytes_be16 {n : Nat} (h : n < 2 ^ 16) :
    fromBeBytes [(n / 2 ^ 8).toUInt8, n.toUInt8] = n := by
  have htop : (0 : Nat) = n / 2 ^ (8 + 8) := (Nat.div_eq_of_lt h).symm
  simp only [fromBeBytes, List.foldl_cons, List.foldl_nil]
  rw [htop, shiftIn_byte n 8]
  simpa only [Nat.pow_zero, Nat.div_one] using shiftIn_byte n 0

/-- A short length is its own byte. -/
theorem lengthByte {n : Nat} (h : n ≤ 125) :
    n.toUInt8 &&& 0x80 = 0 ∧ (n.toUInt8 &&& 0x7F).toNat = n := by
  have hall : ∀ k : Fin 126, k.1.toUInt8 &&& 0x80 = 0 ∧ (k.1.toUInt8 &&& 0x7F).toNat = k.1 := by
    decide
  exact hall ⟨n, by omega⟩

/-- The byte after the first one, and the bytes of the extended length. -/
theorem lengthField_split {n : Nat} (h : n < 2 ^ 63) :
    ∃ byte1 ext, lengthField n = byte1 :: ext ∧ byte1 &&& 0x80 = 0 ∧
      ∀ rest, decodeLength (byte1 &&& 0x7F).toNat (ext ++ rest) = some (n, rest) := by
  unfold lengthField
  split
  · next hn =>
    obtain ⟨hmask, hlen⟩ := lengthByte hn
    refine ⟨_, [], rfl, hmask, fun rest => ?_⟩
    rw [hlen, decodeLength, if_pos hn, List.nil_append]
  · next hn =>
    split
    · next hn' =>
      refine ⟨126, _, rfl, by decide, fun rest => ?_⟩
      have hbytes := fromBeBytes_be16 (show n < 2 ^ 16 by omega)
      rw [show ((126 : UInt8) &&& 0x7F).toNat = 126 by decide, decodeLength, if_neg (by omega),
        if_pos rfl]
      simp only [List.cons_append, List.nil_append, List.take_succ_cons, List.take_zero, hbytes,
        List.length_cons, List.drop_succ_cons, List.drop_zero]
      exact if_neg (by omega)
    · next hn' =>
      refine ⟨127, _, rfl, by decide, fun rest => ?_⟩
      have hbytes := fromBeBytes_toBe64 (show n < 2 ^ 64 by omega)
      have hl : (toBe64 n).length = 8 := rfl
      rw [show ((127 : UInt8) &&& 0x7F).toNat = 127 by decide, decodeLength, if_neg (by omega),
        if_neg (by omega)]
      simp only [List.take_left' hl, List.drop_left' hl, hbytes, List.length_append, hl]
      exact if_neg (by omega)

theorem decodeFrame_encodeFrame (opcode : OpCode) {payload : List UInt8}
    (h : payload.length < 2 ^ 63) (rest : List UInt8) :
    decodeFrame (encodeFrame opcode payload ++ rest) = some (⟨true, opcode, payload⟩, rest) := by
  obtain ⟨byte1, ext, hf, hmask, hlen⟩ := lengthField_split h
  have hop : (0x80 ||| opcode.byte) &&& 0x70 = 0 ∧ ((0x80 ||| opcode.byte) &&& 0x80 != 0) = true ∧
      OpCode.tryFrom ((0x80 ||| opcode.byte) &&& 0x0F) = .ok opcode := by
    cases opcode <;> decide
  obtain ⟨hrsv, hfin, hop⟩ := hop
  simp only [encodeFrame, hf, List.cons_append, List.append_assoc, decodeFrame, hrsv, hmask, hop,
    hlen, hfin]
  simp

/-! ## The encoders with their bounds checks -/

/-- `backend_tcp_reader`, from a read of `payload` into the fresh buffer `buf` to the frame. -/
def preframeTcpChecked (buf : List UInt8) (streamId : StreamId) (payload : List UInt8) :
    Option (List UInt8) := do
  let buf ← Slice.copyFromSlice buf wsMaxHeaderSize preframeReserve (buildDataHeader streamId)
  -- The read fills `buf[PREFRAME_RESERVE..]` from the front.
  let n := payload.length
  let buf ← Slice.copyFromSlice buf preframeReserve (preframeReserve + n) payload
  let buf := buf.take (preframeReserve + n)
  let wsPayloadLen := wispHeaderSize + n
  if wsPayloadLen ≤ 125 then
    let start := preframeReserve - wispHeaderSize - 2
    let buf ← Slice.set buf start 0x82
    let buf ← Slice.set buf (start + 1) wsPayloadLen.toUInt8
    Slice.rangeFrom buf start
  else if wsPayloadLen ≤ 65535 then
    let start := preframeReserve - wispHeaderSize - 4
    let buf ← Slice.set buf start 0x82
    let buf ← Slice.set buf (start + 1) 126
    let buf ← Slice.set buf (start + 2) (wsPayloadLen / 2 ^ 8).toUInt8
    let buf ← Slice.set buf (start + 3) wsPayloadLen.toUInt8
    Slice.rangeFrom buf start
  else
    let start := 0
    let buf ← Slice.set buf start 0x82
    let buf ← Slice.set buf (start + 1) 127
    let buf ← Slice.copyFromSlice buf (start + 2) (start + 10) (toBe64 wsPayloadLen)
    Slice.rangeFrom buf start

/-- The reader task of `handle_udp_connect`, from a datagram in `recvBuf` to the frame. -/
def preframeUdpChecked (recvBuf : List UInt8) (streamId : StreamId) (payload : List UInt8) :
    Option (List UInt8) := do
  -- The datagram fills `recv_buf` from the front.
  let n := payload.length
  let recvBuf ← Slice.copyFromSlice recvBuf 0 n payload
  let wsPayloadLen := wispHeaderSize + n
  let (wsHdrLen, frameStart) :=
    if wsPayloadLen ≤ 125 then (2, preframeReserve - wispHeaderSize - 2)
    else if wsPayloadLen ≤ 65535 then (4, preframeReserve - wispHeaderSize - 4)
    else (10, 0)
  let frameLen := wsHdrLen + wispHeaderSize + n
  let buf := List.replicate (frameStart + frameLen) 0
  let buf ← Slice.set buf frameStart 0x82
  let buf ←
    if wsPayloadLen ≤ 125 then Slice.set buf (frameStart + 1) wsPayloadLen.toUInt8
    else if wsPayloadLen ≤ 65535 then do
      let buf ← Slice.set buf (frameStart + 1) 126
      let buf ← Slice.set buf (frameStart + 2) (wsPayloadLen / 2 ^ 8).toUInt8
      Slice.set buf (frameStart + 3) wsPayloadLen.toUInt8
    else do
      let buf ← Slice.set buf (frameStart + 1) 127
      Slice.copyFromSlice buf (frameStart + 2) (frameStart + 10) (toBe64 wsPayloadLen)
  let buf ← Slice.copyFromSlice buf (frameStart + wsHdrLen) (frameStart + wsHdrLen + wispHeaderSize)
    (buildDataHeader streamId)
  let datagram ← Slice.range recvBuf 0 n
  let buf ← Slice.copyFromSlice buf (frameStart + wsHdrLen + wispHeaderSize) buf.length datagram
  Slice.rangeFrom buf frameStart

/-- The rest of a header (`writeHeaderRest`), in the first `hdrLen` bytes of `hdr`. -/
def writeHeaderRestChecked (hdr : List UInt8) (hdrLen : Nat) (payload : List UInt8) :
    Nat → Nat → Sink UInt8 → Option (Option Nat × Sink UInt8)
  | 0, n, writer => some (some n, writer)
  | fuel + 1, n, writer =>
    if n < hdrLen then
      (Slice.range hdr n hdrLen).bind fun rest =>
        match writer.write (rest ++ payload) with
        | (0, writer) => some (none, writer)
        | (wrote + 1, writer) =>
          writeHeaderRestChecked hdr hdrLen payload fuel (n + (wrote + 1)) writer
    else some (some n, writer)

/-- The rest of the payload (`writePayloadRest`). The subtraction of two `usize`s must not be
negative. -/
def writePayloadRestChecked (hdrLen : Nat) (payload : List UInt8) :
    Option Nat × Sink UInt8 → Option (Bool × Sink UInt8)
  | (none, writer) => some (false, writer)
  | (some n, writer) =>
    if n < hdrLen + payload.length then
      if n < hdrLen then none
      else (Slice.rangeFrom payload (n - hdrLen)).bind fun rest => some (writer.writeAll rest)
    else some (true, writer)

/-- `write_ws_binary_frame`. -/
def writeWsBinaryFrameChecked (writer : Sink UInt8) (payload : List UInt8) :
    Option (Bool × Sink UInt8) := do
  let len := payload.length
  if len ≤ 125 then
    let buf ← Slice.set (List.replicate 127 0) 0 0x82
    let buf ← Slice.set buf 1 len.toUInt8
    let buf ← Slice.copyFromSlice buf 2 (2 + len) payload
    let frame ← Slice.range buf 0 (2 + len)
    some (writer.writeAll frame)
  else
    let hdr ← Slice.set (List.replicate 10 0) 0 0x82
    let (hdr, hdrLen) ←
      if len ≤ 65535 then do
        let hdr ← Slice.set hdr 1 126
        let hdr ← Slice.set hdr 2 (len / 2 ^ 8).toUInt8
        let hdr ← Slice.set hdr 3 len.toUInt8
        some (hdr, 4)
      else do
        let hdr ← Slice.set hdr 1 127
        let hdr ← Slice.copyFromSlice hdr 2 10 (toBe64 len)
        some (hdr, 10)
    let head ← Slice.range hdr 0 hdrLen
    let total := hdrLen + len
    match writer.write (head ++ payload) with
    | (n, writer) =>
      if n = total then some (true, writer)
      else if n = 0 then some (false, writer)
      else
        (writeHeaderRestChecked hdr hdrLen payload hdrLen n writer).bind
          (writePayloadRestChecked hdrLen payload)

section Checks

variable {buf xs ys : List UInt8} {i : Nat}

theorem set_eq_copyAt (h : i < buf.length) (v : UInt8) :
    Slice.set buf i v = some (copyAt buf i [v]) := Slice.set_eq h v

theorem copyFromSlice_eq_copyAt {hi : Nat} (h : hi ≤ buf.length) (hl : i + xs.length = hi) :
    Slice.copyFromSlice buf i hi xs = some (copyAt buf i xs) := by
  rw [Slice.copyFromSlice_eq h hl, copyAt, hl]

/-- Two writes, the second right after the first. -/
theorem copyAt_copyAt {j : Nat} (hj : i + xs.length = j) (h : j + ys.length ≤ buf.length) :
    copyAt (copyAt buf i xs) j ys = copyAt buf i (xs ++ ys) := by
  subst hj
  have ht := @take_copyAt buf xs i (by omega)
  have hd : (copyAt buf i xs).drop (i + xs.length + ys.length) =
      buf.drop (i + (xs.length + ys.length)) := by
    rw [Nat.add_assoc, ← List.drop_drop, drop_copyAt (by omega), ← List.drop_drop, List.drop_left,
      List.drop_drop, Nat.add_assoc]
  rw [copyAt, ht, hd, copyAt, List.length_append]
  simp

/-- One more byte after `xs`. -/
theorem set_after {j : Nat} (hj : i + xs.length = j) (h : j < buf.length) (v : UInt8) :
    Slice.set (copyAt buf i xs) j v = some (copyAt buf i (xs ++ [v])) := by
  rw [set_eq_copyAt (by rw [length_copyAt (by omega)]; exact h),
    copyAt_copyAt hj (by rw [List.length_singleton]; omega)]

/-- More bytes after `xs`. -/
theorem copyFromSlice_after {j k : Nat} (hj : i + xs.length = j) (hk : j + ys.length = k)
    (h : k ≤ buf.length) :
    Slice.copyFromSlice (copyAt buf i xs) j k ys = some (copyAt buf i (xs ++ ys)) := by
  rw [copyFromSlice_eq_copyAt (by rw [length_copyAt (by omega)]; exact h) hk,
    copyAt_copyAt hj (by omega)]

theorem rangeFrom_copyAt (h : i + xs.length ≤ buf.length) :
    Slice.rangeFrom (copyAt buf i xs) i = some ((copyAt buf i xs).drop i) :=
  Slice.rangeFrom_eq (by rw [length_copyAt h]; omega)

variable {γ : Type} (k : List UInt8 → Option γ)

/-- A header of two bytes. -/
theorem header_two (h : i + 2 ≤ buf.length) (a b : UInt8) :
    (Slice.set buf i a).bind (fun buf => (Slice.set buf (i + 1) b).bind k) =
      k (copyAt buf i [a, b]) := by
  have hb : Slice.set (copyAt buf i [a]) (i + 1) b = some (copyAt buf i [a, b]) :=
    set_after rfl (show i + 1 < buf.length by omega) b
  rw [set_eq_copyAt (by omega), Option.bind_some, hb, Option.bind_some]

/-- A header of four bytes. -/
theorem header_four (h : i + 4 ≤ buf.length) (a b c d : UInt8) :
    (Slice.set buf i a).bind (fun buf => (Slice.set buf (i + 1) b).bind fun buf =>
      (Slice.set buf (i + 2) c).bind fun buf => (Slice.set buf (i + 3) d).bind k) =
      k (copyAt buf i [a, b, c, d]) := by
  have hc : Slice.set (copyAt buf i [a, b]) (i + 2) c = some (copyAt buf i [a, b, c]) :=
    set_after rfl (show i + 2 < buf.length by omega) c
  have hd : Slice.set (copyAt buf i [a, b, c]) (i + 3) d = some (copyAt buf i [a, b, c, d]) :=
    set_after rfl (show i + 3 < buf.length by omega) d
  rw [header_two _ (by omega), hc, Option.bind_some, hd, Option.bind_some]

/-- A header of ten bytes. -/
theorem header_ten (h : i + 10 ≤ buf.length) (a b : UInt8) (n : Nat) :
    (Slice.set buf i a).bind (fun buf => (Slice.set buf (i + 1) b).bind fun buf =>
      (Slice.copyFromSlice buf (i + 2) (i + 10) (toBe64 n)).bind k) =
      k (copyAt buf i (a :: b :: toBe64 n)) := by
  have hn : Slice.copyFromSlice (copyAt buf i [a, b]) (i + 2) (i + 10) (toBe64 n) =
      some (copyAt buf i (a :: b :: toBe64 n)) := copyFromSlice_after rfl rfl h
  rw [header_two _ (by omega), hn, Option.bind_some]

end Checks

theorem preframeTcpChecked_eq {buf : List UInt8} (hb : buf.length = bufCapacity)
    (streamId : StreamId) {payload : List UInt8} (hp : payload.length ≤ 65536) :
    preframeTcpChecked buf streamId payload = some (preframeTcp buf streamId payload) := by
  have hcap : buf.length = 65551 := hb
  have h₁ : (copyAt buf 10 (buildDataHeader streamId)).length = buf.length :=
    length_copyAt (by rw [length_buildDataHeader]; omega)
  have h₂ : (copyAt (copyAt buf 10 (buildDataHeader streamId)) 15 payload).length = buf.length := by
    rw [length_copyAt (by omega), h₁]
  unfold preframeTcpChecked preframeTcp preframeReserve wsMaxHeaderSize wispHeaderSize
  simp only [Nat.reduceAdd, Nat.reduceSub]
  rw [copyFromSlice_eq_copyAt (by omega) (by rw [length_buildDataHeader])]
  simp only [Option.bind_eq_bind, Option.bind_some]
  rw [copyFromSlice_eq_copyAt (by omega) rfl]
  simp only [Option.bind_some]
  generalize hbuf : (copyAt (copyAt buf 10 (buildDataHeader streamId)) 15 payload).take
    (15 + payload.length) = buf'
  have hlen : buf'.length = 15 + payload.length := by
    rw [← hbuf, List.length_take]
    omega
  by_cases h125 : 5 + payload.length ≤ 125
  · rw [if_pos h125, if_pos h125]
    refine (header_two _ (by omega) _ _).trans ?_
    exact rangeFrom_copyAt (by simp; omega)
  · by_cases h65535 : 5 + payload.length ≤ 65535
    · rw [if_neg h125, if_neg h125, if_pos h65535, if_pos h65535]
      refine (header_four _ (by omega) _ _ _ _).trans ?_
      exact rangeFrom_copyAt (by simp; omega)
    · rw [if_neg h125, if_neg h125, if_neg h65535, if_neg h65535]
      refine (header_ten _ (by omega) _ _ _).trans ?_
      exact rangeFrom_copyAt (by simp [toBe64]; omega)

/-- After a header of `n` bytes: the Wisp header and the datagram, to the end of the buffer. -/
theorem fill_checked {start n : Nat} {hdr buf : List UInt8} (hn : hdr.length = n)
    (streamId : StreamId) (payload : List UInt8)
    (hb : buf.length = start + (n + 5 + payload.length)) :
    ((Slice.copyFromSlice (copyAt buf start hdr) (start + n) (start + n + 5)
        (buildDataHeader streamId)).bind fun buf =>
      (Slice.copyFromSlice buf (start + n + 5) buf.length payload).bind fun buf =>
        Slice.rangeFrom buf start) =
      some ((copyAt (copyAt (copyAt buf start hdr) (start + n) (buildDataHeader streamId))
        (start + n + 5) payload).drop start) := by
  have h₁ : (copyAt buf start hdr).length = buf.length := length_copyAt (by omega)
  have h₂ : (copyAt (copyAt buf start hdr) (start + n) (buildDataHeader streamId)).length =
      buf.length := by
    rw [length_copyAt (by rw [length_buildDataHeader]; omega), h₁]
  rw [copyFromSlice_eq_copyAt (by omega) (by rw [length_buildDataHeader]), Option.bind_some,
    copyFromSlice_eq_copyAt (Nat.le_refl _) (by omega), Option.bind_some,
    Slice.rangeFrom_eq (by rw [length_copyAt (by omega)]; omega)]

theorem preframeUdpChecked_eq {recvBuf : List UInt8} (hb : recvBuf.length = 65535)
    (streamId : StreamId) {payload : List UInt8} (hp : payload.length ≤ 65535) :
    preframeUdpChecked recvBuf streamId payload = some (preframeUdp streamId payload) := by
  have hrecv : Slice.range (copyAt recvBuf 0 payload) 0 payload.length = some payload := by
    have h := @take_copyAt recvBuf payload 0 (Nat.zero_le _)
    rw [Nat.zero_add, List.take_zero, List.nil_append] at h
    rw [Slice.range_eq (Nat.zero_le _) (by rw [length_copyAt (by omega)]; omega), h, List.drop_zero]
  unfold preframeUdpChecked preframeUdp preframeReserve wsMaxHeaderSize wispHeaderSize
  dsimp only
  rw [copyFromSlice_eq_copyAt (by omega) (by omega)]
  simp only [Option.bind_eq_bind, Option.bind_some, hrecv, Nat.reduceAdd, Nat.reduceSub]
  by_cases h125 : 5 + payload.length ≤ 125
  · simp only [h125, if_true]
    refine (header_two _ (by rw [List.length_replicate]; omega) _ _).trans ?_
    exact fill_checked rfl streamId payload List.length_replicate
  · by_cases h65535 : 5 + payload.length ≤ 65535
    · simp only [h125, h65535, if_true, if_false]
      refine (header_four _ (by rw [List.length_replicate]; omega) _ _ _ _).trans ?_
      exact fill_checked rfl streamId payload List.length_replicate
    · simp only [h125, h65535, if_false]
      refine (header_ten _ (by rw [List.length_replicate]; omega) _ _ _).trans ?_
      exact fill_checked rfl streamId payload List.length_replicate

theorem writeHeaderRestChecked_eq {hdr : List UInt8} {hdrLen : Nat} (hl : hdrLen ≤ hdr.length)
    (payload : List UInt8) (fuel n : Nat) (writer : Sink UInt8) :
    writeHeaderRestChecked hdr hdrLen payload fuel n writer =
      some (writeHeaderRest (hdr.take hdrLen) payload fuel n writer) := by
  have hlen : (hdr.take hdrLen).length = hdrLen := by
    rw [List.length_take]
    omega
  induction fuel generalizing n writer with
  | zero => rfl
  | succ fuel ih =>
    rw [writeHeaderRestChecked, writeHeaderRest, hlen]
    by_cases hn : n < hdrLen
    · rw [if_pos hn, if_pos hn, Slice.range_eq (Nat.le_of_lt hn) hl, Option.bind_some]
      rcases writer.write ((hdr.take hdrLen).drop n ++ payload) with ⟨_ | wrote, writer'⟩
      · rfl
      · exact ih _ writer'
    · rw [if_neg hn, if_neg hn]

/-- The header is out when its rest was written. -/
theorem writeHeaderRest_done {hdr payload : List UInt8} {fuel n m : Nat} {writer writer' : Sink UInt8}
    (hf : hdr.length ≤ n + fuel)
    (h : writeHeaderRest hdr payload fuel n writer = (some m, writer')) : hdr.length ≤ m := by
  induction fuel generalizing n writer with
  | zero =>
    cases h
    exact hf
  | succ fuel ih =>
    rw [writeHeaderRest] at h
    split at h
    · rcases hw : writer.write (hdr.drop n ++ payload) with ⟨_ | wrote, writer''⟩
      · rw [hw] at h
        cases h
      · rw [hw] at h
        exact ih (by omega) h
    · cases h
      omega

/-- The slices of the two rests are in range. -/
theorem writeRests_eq {hdr : List UInt8} {hdrLen : Nat} (hl : hdrLen ≤ hdr.length)
    (payload : List UInt8) (n : Nat) (writer : Sink UInt8) :
    (writeHeaderRestChecked hdr hdrLen payload hdrLen n writer).bind
        (writePayloadRestChecked hdrLen payload) =
      some (writePayloadRest (hdr.take hdrLen) payload
        (writeHeaderRest (hdr.take hdrLen) payload hdrLen n writer)) := by
  have hlen : (hdr.take hdrLen).length = hdrLen := by
    rw [List.length_take]
    omega
  rw [writeHeaderRestChecked_eq hl, Option.bind_some]
  rcases hr : writeHeaderRest (hdr.take hdrLen) payload hdrLen n writer with ⟨_ | m, writer'⟩
  · rfl
  · have hm := writeHeaderRest_done (by omega) hr
    rw [writePayloadRestChecked, writePayloadRest, hlen]
    split
    · rw [if_neg (by omega), Slice.rangeFrom_eq (by omega), Option.bind_some]
    · rfl

/-- A vectored write of a header and the payload, and what is left after a short one. -/
theorem writeLarge_eq {hdr : List UInt8} {hdrLen : Nat} (hl : hdrLen ≤ hdr.length)
    {payload : List UInt8} (hh : hdr.take hdrLen = largeHeader payload.length)
    (writer : Sink UInt8) :
    ((Slice.range hdr 0 hdrLen).bind fun head =>
      match writer.write (head ++ payload) with
      | (n, writer) =>
        if n = hdrLen + payload.length then some (true, writer)
        else if n = 0 then some (false, writer)
        else (writeHeaderRestChecked hdr hdrLen payload hdrLen n writer).bind
          (writePayloadRestChecked hdrLen payload)) =
      some (match writer.write (largeHeader payload.length ++ payload) with
        | (n, writer) =>
          if n = (largeHeader payload.length).length + payload.length then (true, writer)
          else if n = 0 then (false, writer)
          else writePayloadRest (largeHeader payload.length) payload
            (writeHeaderRest (largeHeader payload.length) payload
              (largeHeader payload.length).length n writer)) := by
  have hlen : (largeHeader payload.length).length = hdrLen := by
    rw [← hh, List.length_take]
    omega
  rw [Slice.range_eq (Nat.zero_le _) hl, Option.bind_some, List.drop_zero, hh, hlen]
  rcases writer.write (largeHeader payload.length ++ payload) with ⟨n, writer'⟩
  dsimp only
  split
  · rfl
  · split
    · rfl
    · rw [writeRests_eq hl, hh]

theorem writeWsBinaryFrameChecked_eq (writer : Sink UInt8) (payload : List UInt8) :
    writeWsBinaryFrameChecked writer payload = some (writeWsBinaryFrame writer payload) := by
  unfold writeWsBinaryFrameChecked writeWsBinaryFrame
  simp only [Option.bind_eq_bind]
  by_cases h125 : payload.length ≤ 125
  · rw [if_pos h125, if_pos h125]
    refine (header_two _ (by simp) _ _).trans ?_
    have hcopy := @copyFromSlice_after (List.replicate 127 0) [0x82, payload.length.toUInt8] payload
      0 2 (2 + payload.length) rfl rfl (by rw [List.length_replicate]; omega)
    have htake := @take_copyAt (List.replicate 127 0)
      ([0x82, payload.length.toUInt8] ++ payload) 0 (Nat.zero_le _)
    have hl : 0 + ([0x82, payload.length.toUInt8] ++ payload).length = 2 + payload.length := by
      simp
      omega
    rw [hl] at htake
    rw [hcopy, Option.bind_some, Slice.range_eq (Nat.zero_le _), Option.bind_some, htake]
    · rfl
    · rw [length_copyAt (by rw [hl, List.length_replicate]; omega), List.length_replicate]
      omega
  · rw [if_neg h125, if_neg h125]
    by_cases h65535 : payload.length ≤ 65535
    · simp only [h65535, if_true, Option.bind_some]
      refine (header_four _ (by simp) _ _ _ _).trans ?_
      refine writeLarge_eq (by rw [length_copyAt (by simp)]; simp) ?_ writer
      rw [largeHeader, if_pos h65535]
      rfl
    · simp only [h65535, if_false, Option.bind_some]
      refine (header_ten _ (by simp) _ _ _).trans ?_
      refine writeLarge_eq (by rw [length_copyAt (by simp [toBe64])]; simp) ?_ writer
      rw [largeHeader, if_neg h65535]
      rfl

/-! ## The frames of the readers -/

/-- `frame` is what `write_ws_binary_frame` sends for the DATA packet, whatever the socket takes at a
time, and a client reads that packet from it. -/
structure DataFrame (streamId : StreamId) (payload frame : List UInt8) : Prop where
  written : ∀ writer : Sink UInt8, ∃ ok writer',
    writeWsBinaryFrameChecked writer (buildDataHeader streamId ++ payload) = some (ok, writer') ∧
      (ok = true → writer'.sent = writer.sent ++ frame) ∧
      (ok = false → ∃ part, part <+: frame ∧ writer'.sent = writer.sent ++ part)
  accepted : ∀ (sent : List UInt8) (room : List Nat),
    writeWsBinaryFrameChecked ⟨sent, frame.length :: room⟩ (buildDataHeader streamId ++ payload) =
      some (true, ⟨sent ++ frame, room⟩)
  decoded : ∃ message, decodeFrame frame = some (⟨true, .binary, message⟩, []) ∧
    parseWispFrame message = some (.data streamId payload)

/-- A socket with room for the whole frame takes it at once. -/
theorem writeWsBinaryFrame_accepted (sent : List UInt8) (room : List Nat) (payload : List UInt8) :
    writeWsBinaryFrame ⟨sent, (encodeFrame .binary payload).length :: room⟩ payload =
      (true, ⟨sent ++ encodeFrame .binary payload, room⟩) := by
  unfold writeWsBinaryFrame
  by_cases h : payload.length ≤ 125
  · rw [if_pos h, encodeFrame_small _ h]
    exact Sink.writeAll_room (List.cons_ne_nil _ _) sent room
  · have hpos : 0 < (largeHeader payload.length ++ payload).length := by
      rw [List.length_append]
      omega
    simp only [h, if_false]
    rw [encodeFrame_large h, Sink.write_room hpos, List.length_append]
    exact if_pos rfl

theorem dataFrame_encodeFrame (streamId : StreamId) {payload : List UInt8}
    (h : payload.length ≤ 65536) :
    DataFrame streamId payload (encodeFrame .binary (buildDataHeader streamId ++ payload)) where
  written writer := by
    have hputs := puts_writeWsBinaryFrame writer (buildDataHeader streamId ++ payload)
    refine ⟨_, _, writeWsBinaryFrameChecked_eq _ _, hputs.all, fun hf => ?_⟩
    exact (hputs.part hf).2
  accepted sent room := by
    rw [writeWsBinaryFrameChecked_eq, writeWsBinaryFrame_accepted]
  decoded := by
    refine ⟨_, ?_, parseWispFrame_data streamId payload⟩
    have hl : (buildDataHeader streamId ++ payload).length < 2 ^ 63 := by
      rw [List.length_append, length_buildDataHeader]
      omega
    simpa using decodeFrame_encodeFrame .binary hl []

/-- The frames that the backend readers build: no index is out of range, and they are the frames of
`write_ws_binary_frame` for a DATA packet that reads back. -/
theorem preframed_data (streamId : StreamId) (payload : List UInt8) :
    (∀ buf : List UInt8, buf.length = bufCapacity → payload.length ≤ 65536 →
      ∃ frame, preframeTcpChecked buf streamId payload = some frame ∧
        frame = preframeTcp buf streamId payload ∧ DataFrame streamId payload frame) ∧
    (∀ recvBuf : List UInt8, recvBuf.length = 65535 → payload.length ≤ 65535 →
      ∃ frame, preframeUdpChecked recvBuf streamId payload = some frame ∧
        frame = preframeUdp streamId payload ∧ DataFrame streamId payload frame) := by
  constructor
  · intro buf hb hp
    refine ⟨_, preframeTcpChecked_eq hb streamId hp, rfl, ?_⟩
    rw [preframeTcp_eq hb]
    exact dataFrame_encodeFrame streamId hp
  · intro recvBuf hb hp
    refine ⟨_, preframeUdpChecked_eq hb streamId hp, rfl, ?_⟩
    rw [preframeUdp_eq]
    exact dataFrame_encodeFrame streamId (by omega)

/-- A chunk of 121 bytes is the first one with an extended length: with the packet's header it has
126 bytes. -/
theorem preframed_data_extended :
    (∃ frame, preframeTcpChecked (List.replicate bufCapacity 0) 1 (List.replicate 121 7) =
      some frame ∧ frame.take 4 = [0x82, 126, 0, 126] ∧ DataFrame 1 (List.replicate 121 7) frame) ∧
    ∃ frame, preframeUdpChecked (List.replicate 65535 0) 1 (List.replicate 121 7) = some frame ∧
      frame.take 4 = [0x82, 126, 0, 126] ∧ DataFrame 1 (List.replicate 121 7) frame := by
  obtain ⟨htcp, hudp⟩ := preframed_data 1 (List.replicate 121 7)
  obtain ⟨frame, hf, heq, hd⟩ :=
    htcp (List.replicate bufCapacity 0) List.length_replicate (by rw [List.length_replicate]; omega)
  obtain ⟨frame', hf', heq', hd'⟩ :=
    hudp (List.replicate 65535 0) List.length_replicate (by rw [List.length_replicate]; omega)
  refine ⟨⟨frame, hf, ?_, hd⟩, frame', hf', ?_, hd'⟩
  · rw [heq, preframeTcp_eq List.length_replicate]
    decide +kernel
  · rw [heq', preframeUdp_eq]
    decide +kernel

/-! ## Batches -/

/-- A batch is exact: after `Ok` the socket has taken the frames, one after the other, and after an
error a part of them from the front. -/
theorem writeWsFramesBatched_exact (writer : Sink UInt8) (frames : List (List UInt8)) :
    ((writeWsFramesBatched writer frames).1 = true →
      (writeWsFramesBatched writer frames).2.sent = writer.sent ++ frames.flatten) ∧
    ((writeWsFramesBatched writer frames).1 = false →
      ∃ part, part <+: frames.flatten ∧
        (writeWsFramesBatched writer frames).2.sent = writer.sent ++ part) := by
  have hputs := puts_writeWsFramesBatched writer frames
  exact ⟨hputs.all, fun hf => (hputs.part hf).2⟩

/-! ## CONTINUEs -/

/-- The CONTINUEs in a buffer on the stack (`fillContinues`). -/
def fillContinuesChecked (buf : List UInt8) (pos : Nat) :
    List (StreamId × UInt32) → Option (List UInt8 × Nat)
  | [] => some (buf, pos)
  | (streamId, remaining) :: pending => do
    let frame := buildContinueFrame streamId remaining
    let buf ← Slice.set buf pos 0x82
    let buf ← Slice.set buf (pos + 1) 9
    let buf ← Slice.copyFromSlice buf (pos + 2) (pos + 11) frame
    fillContinuesChecked buf (pos + 11) pending

/-- The bytes of a batch that is built on the stack. -/
def stackContinues (pending : List (StreamId × UInt32)) : Option (List UInt8) := do
  let (buf, pos) ← fillContinuesChecked (List.replicate 176 0) 0 pending
  Slice.range buf 0 pos

/-- The bytes of a batch that is built on the heap. -/
def heapContinues (pending : List (StreamId × UInt32)) : List UInt8 :=
  pending.foldl (fun buf p => buf ++ [0x82] ++ [9] ++ buildContinueFrame p.1 p.2) []

/-- `flush_continues_direct`, with the queue after it. -/
def flushContinuesDirectChecked (writer : Sink UInt8) (pending : List (StreamId × UInt32)) :
    Option ((Bool × Sink UInt8) × List (StreamId × UInt32)) := do
  if pending.length = 1 then
    let (streamId, remaining) ← pending[0]?
    let r ← writeWsBinaryFrameChecked writer (buildContinueFrame streamId remaining)
    some (r, [])
  else if pending.length ≤ 16 then
    let frames ← stackContinues pending
    some (writer.writeAll frames, [])
  else some (writer.writeAll (heapContinues pending), [])

theorem fillContinuesChecked_eq (buf : List UInt8) (pos : Nat)
    (pending : List (StreamId × UInt32)) (h : pos + 11 * pending.length ≤ buf.length) :
    fillContinuesChecked buf pos pending = some (fillContinues buf pos pending) := by
  induction pending generalizing buf pos with
  | nil => rfl
  | cons p pending ih =>
    obtain ⟨streamId, remaining⟩ := p
    rw [List.length_cons] at h
    have h₁ : (copyAt buf pos [0x82, 9]).length = buf.length := length_copyAt (by simp; omega)
    have hcopy : Slice.copyFromSlice (copyAt buf pos [0x82, 9]) (pos + 2) (pos + 11)
        (buildContinueFrame streamId remaining) =
        some (copyAt (copyAt buf pos [0x82, 9]) (pos + 2) (buildContinueFrame streamId remaining)) :=
      copyFromSlice_eq_copyAt (by omega) (by rw [length_buildContinueFrame])
    have h₂ := length_copyContinue (show pos + 11 ≤ buf.length by omega) streamId remaining
    rw [fillContinuesChecked, fillContinues]
    refine (header_two _ (by omega) _ _).trans ?_
    rw [hcopy]
    exact ih _ _ (by rw [h₂]; omega)

theorem stackContinues_eq {pending : List (StreamId × UInt32)} (h : pending.length ≤ 16) :
    stackContinues pending = some (continueBytes pending) := by
  have hlen : 0 + 11 * pending.length ≤ (List.replicate 176 (0 : UInt8)).length := by
    rw [List.length_replicate]
    omega
  have hspec := fillContinues_spec (List.replicate 176 0) 0 pending hlen
  obtain ⟨hbuf, hpos⟩ := fillContinues_bounds (List.replicate 176 0) 0 pending hlen
  rw [List.take_zero, List.nil_append] at hspec
  rw [stackContinues, fillContinuesChecked_eq _ _ _ hlen, ← hspec]
  refine Slice.range_eq (Nat.zero_le _) ?_
  rw [hbuf, hpos]
  exact hlen

theorem heapContinues_eq (pending : List (StreamId × UInt32)) :
    heapContinues pending = continueBytes pending := by
  have hfold : ∀ (pending : List (StreamId × UInt32)) (buf : List UInt8),
      pending.foldl (fun buf p => buf ++ [0x82] ++ [9] ++ buildContinueFrame p.1 p.2) buf =
        buf ++ continueBytes pending := by
    intro pending
    induction pending with
    | nil =>
      intro buf
      exact (List.append_nil buf).symm
    | cons p pending ih =>
      intro buf
      rw [List.foldl_cons, ih, continueBytes, continueBytes, List.flatMap_cons,
        encodeFrame_continue]
      simp
  exact hfold pending []

/-- One CONTINUE is written in the same way as a batch. -/
theorem writeContinueChecked_eq (writer : Sink UInt8) (streamId : StreamId) (n : UInt32) :
    writeWsBinaryFrameChecked writer (buildContinueFrame streamId n) =
      some (writer.writeAll (continueBytes [(streamId, n)])) :=
  writeWsBinaryFrameChecked_eq writer (buildContinueFrame streamId n)

theorem flushContinuesDirectChecked_eq (writer : Sink UInt8)
    (pending : List (StreamId × UInt32)) :
    flushContinuesDirectChecked writer pending =
      some (writer.writeAll (continueBytes pending), []) := by
  unfold flushContinuesDirectChecked
  split
  · next hone =>
    obtain ⟨p, rfl⟩ := List.length_eq_one_iff.mp hone
    simp only [List.getElem?_cons_zero, Option.bind_eq_bind, Option.bind_some,
      writeContinueChecked_eq]
  · split
    · next hl =>
      rw [stackContinues_eq hl]
      rfl
    · rw [heapContinues_eq]

/-- `flush_continues_direct` writes the frames of the CONTINUEs in the order of the queue and leaves
the queue empty. No index is out of range, and the three ways to build the bytes give the same ones
wherever they apply. -/
theorem flushContinues_exact (writer : Sink UInt8) (pending : List (StreamId × UInt32)) :
    ∃ ok writer', flushContinuesDirectChecked writer pending = some ((ok, writer'), []) ∧
      flushContinuesDirect writer pending = (ok, writer') ∧
      (ok = true → writer'.sent = writer.sent ++ continueBytes pending) ∧
      (ok = false → ∃ part, part <+: continueBytes pending ∧ writer'.sent = writer.sent ++ part) ∧
      (∀ streamId n, pending = [(streamId, n)] →
        writeWsBinaryFrameChecked writer (buildContinueFrame streamId n) = some (ok, writer')) ∧
      (pending.length ≤ 16 → stackContinues pending = some (continueBytes pending)) ∧
      heapContinues pending = continueBytes pending := by
  have hputs := writer.puts_writeAll (continueBytes pending)
  refine ⟨_, _, flushContinuesDirectChecked_eq writer pending, flushContinuesDirect_eq writer pending,
    hputs.all, fun hf => (hputs.part hf).2, ?_, stackContinues_eq, heapContinues_eq pending⟩
  rintro streamId n rfl
  exact writeContinueChecked_eq writer streamId n

end ShrimpWisp
