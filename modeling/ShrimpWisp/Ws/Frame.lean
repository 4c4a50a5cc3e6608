import ShrimpWisp.Rust.Slice
import ShrimpWisp.Ws.Mask
import ShrimpWisp.Ws.Writer

/-!
# Frames out of the library (`vendor/fastwebsockets`)

The library's own writer: `Frame::fmt_head`, `Frame::write`, `Frame::writev` and
`WriteHalf::write_frame`. The server sends its handshake with it, and a client all its frames.

An index or a slice out of range is `none`. The write buffer is kept from frame to frame, with what
the last one left in it.

* `Frame.wire`: a frame on the wire, its length in the shortest form.
* `Frame.write_eq`, `Frame.puts_writev`: the bytes of both ways, whatever the write buffer holds and
  however short the writes of the socket are. No index is out of range.
* `WriteHalf.Wrote`, `WriteHalf.writeFrame_wrote`: what a call of `write_frame` does.
-/

namespace ShrimpWisp

/-- `Frame`. -/
structure Frame where
  fin : Bool
  opcode : OpCode
  mask : Option Mask
  payload : List UInt8
  deriving DecidableEq, Repr

def maxHeadSize : Nat := 16

namespace Frame

/-- `fmt_head`, the length: the size so far, and the buffer. -/
def fmtLength (len : Nat) (head : List UInt8) : Option (Nat × List UInt8) :=
  if len < 126 then do
    let head ← Slice.set head 1 len.toUInt8
    pure (2, head)
  else if len < 65536 then do
    let head ← Slice.set head 1 126
    let head ← Slice.copyFromSlice head 2 4 [(len / 2 ^ 8).toUInt8, len.toUInt8]
    pure (4, head)
  else do
    let head ← Slice.set head 1 127
    let head ← Slice.copyFromSlice head 2 10 (toBe64 len)
    pure (10, head)

/-- `fmt_head`: the size of the head, and the buffer with the head in it. -/
def fmtHead (f : Frame) (head : List UInt8) : Option (Nat × List UInt8) := do
  let head ← Slice.set head 0 ((if f.fin then 0x80 else 0) ||| f.opcode.byte)
  let (size, head) ← fmtLength f.payload.length head
  match f.mask with
  | some mask =>
    let byte1 ← head[1]?
    let head ← Slice.set head 1 (byte1 ||| 0x80)
    let head ← Slice.copyFromSlice head size (size + 4) mask.toList
    pure (size + 4, head)
  | none => pure (size, head)

/-- `write`: the frame's bytes, and the buffer. -/
def write (f : Frame) (buf : List UInt8) : Option (List UInt8 × List UInt8) := do
  let len := f.payload.length
  let buf :=
    if buf.length < len + maxHeadSize then
      buf ++ List.replicate (len + maxHeadSize - buf.length) 0
    else buf
  let (size, buf) ← f.fmtHead buf
  let buf ← Slice.copyFromSlice buf size (size + len) f.payload
  let text ← Slice.range buf 0 (size + len)
  pure (text, buf)

/-- `while n <= size`, from a write that took `n` bytes on: the header again from there, each time
with the payload. A write takes at least one byte, so `size + 1` is enough fuel. -/
def writevHead (head payload : List UInt8) (size : Nat) :
    Nat → Nat → Sink UInt8 → Option (Option Nat × Sink UInt8)
  | 0, n, stream => some (some n, stream)
  | fuel + 1, n, stream =>
    if n ≤ size then do
      let b0 ← Slice.range head n size
      match stream.write (b0 ++ payload) with
      | (0, stream) => pure (none, stream)
      | (wrote + 1, stream) => writevHead head payload size fuel (n + (wrote + 1)) stream
    else some (some n, stream)

/-- The rest of `writev`, with the header out of the way. -/
def writevPayload (payload : List UInt8) (size : Nat) :
    Option Nat × Sink UInt8 → Option (Bool × Sink UInt8)
  | (none, stream) => some (false, stream)
  | (some n, stream) =>
    if n < size + payload.length ∧ size < n then do
      let rest ← Slice.rangeFrom payload (n - size)
      pure (stream.writeAll rest)
    else some (true, stream)

/-- `writev`, for a payload that is not empty. A socket that takes nothing of a write has failed
(`Sink`). -/
def writev (f : Frame) (stream : Sink UInt8) : Option (Bool × Sink UInt8) := do
  let (size, head) ← f.fmtHead (List.replicate maxHeadSize 0)
  let b0 ← Slice.range head 0 size
  match stream.write (b0 ++ f.payload) with
  | (0, stream) => pure (false, stream)
  | (n + 1, stream) =>
    if n + 1 = size + f.payload.length then pure (true, stream)
    else
      let r ← writevHead head f.payload size (size + 1) (n + 1) stream
      writevPayload f.payload size r

/-- `mask`, on a payload at `addr`; `key` is the random mask of a frame that has none. -/
def applyMask (target : Target) (addr : Nat) (key : Mask) (f : Frame) : Frame :=
  match f.mask with
  | some mask => { f with payload := unmask target addr f.payload mask }
  | none => { f with payload := unmask target addr f.payload key, mask := some key }

end Frame

/-- `WriteHalf`. -/
structure WriteHalf where
  client : Bool
  closed : Bool
  autoApplyMask : Bool
  vectored : Bool
  writevThreshold : Nat
  writeBuffer : List UInt8
  deriving DecidableEq, Repr

/-- The errors of `write_frame`. -/
inductive WriteError where
  | connectionClosed
  | io
  deriving DecidableEq, Repr

namespace WriteHalf

/-- `after_handshake`. -/
def afterHandshake (client : Bool) : WriteHalf where
  client := client
  closed := false
  autoApplyMask := true
  vectored := true
  writevThreshold := 1024
  writeBuffer := []

/-- `write_frame`. -/
def writeFrame (target : Target) (addr : Nat) (key : Mask) (half : WriteHalf) (stream : Sink UInt8)
    (frame : Frame) : Option (Except WriteError Unit × WriteHalf × Sink UInt8) := do
  let frame := if half.client && half.autoApplyMask then frame.applyMask target addr key else frame
  if frame.opcode ≠ .close ∧ half.closed then pure (.error .connectionClosed, half, stream)
  else
    let half := if frame.opcode = .close then { half with closed := true } else half
    let (ok, half, stream) ←
      if half.vectored ∧ half.writevThreshold < frame.payload.length then do
        let (ok, stream) ← frame.writev stream
        pure (ok, half, stream)
      else do
        let (text, buf) ← frame.write half.writeBuffer
        let (ok, stream) := stream.writeAll text
        pure (ok, { half with writeBuffer := buf }, stream)
    pure (if ok then .ok () else .error .io, half, stream)

end WriteHalf

/-! ## A frame on the wire -/

namespace Frame

/-- The head: the opcode, the length with the mask bit, and the mask. -/
def head (f : Frame) : List UInt8 :=
  let byte0 := (if f.fin then 0x80 else 0) ||| f.opcode.byte
  let length := lengthField f.payload.length
  match f.mask with
  | some mask => byte0 :: length.modifyHead (· ||| 0x80) ++ mask.toList
  | none => byte0 :: length

def wire (f : Frame) : List UInt8 := f.head ++ f.payload

open Slice

theorem length_lengthField (n : Nat) :
    1 ≤ (lengthField n).length ∧ (lengthField n).length ≤ 9 := by
  unfold lengthField
  split
  · simp
  · split
    · simp
    · simp [toBe64]

theorem fmtLength_eq (len : Nat) (byte0 : UInt8) {buf : List UInt8} (h : maxHeadSize ≤ buf.length) :
    fmtLength len (filled [byte0] buf) =
      some (1 + (lengthField len).length, filled (byte0 :: lengthField len) buf) := by
  have hbuf : 16 ≤ buf.length := h
  have hset : ∀ v : UInt8, Slice.set (filled [byte0] buf) 1 v = some (filled [byte0, v] buf) :=
    fun v => set_filled [byte0] (by simp only [List.length_singleton]; omega) v
  have hcopy : ∀ (v : UInt8) (src : List UInt8) (hi : Nat), 2 + src.length = hi → hi ≤ buf.length →
      copyFromSlice (filled [byte0, v] buf) 2 hi src = some (filled (byte0 :: v :: src) buf) :=
    fun v src hi hl hb => copyFromSlice_filled [byte0, v] src hl hb
  unfold fmtLength lengthField
  by_cases h1 : len < 126
  · rw [if_pos h1, if_pos (by omega), hset]
    rfl
  by_cases h2 : len < 65536
  · rw [if_neg h1, if_pos h2, if_neg (by omega), if_pos (by omega), hset]
    simp only [Option.bind_eq_bind, Option.bind_some]
    rw [hcopy 126 _ 4 rfl (by omega)]
    rfl
  · rw [if_neg h1, if_neg h2, if_neg (by omega), if_neg (by omega), hset]
    simp only [Option.bind_eq_bind, Option.bind_some]
    rw [hcopy 127 _ 10 rfl (by omega)]
    rfl

theorem fmtHead_eq (f : Frame) {buf : List UInt8} (h : maxHeadSize ≤ buf.length) :
    f.fmtHead buf = some (f.head.length, filled f.head buf) := by
  have hbuf : 16 ≤ buf.length := h
  obtain ⟨hpos, hle⟩ := length_lengthField f.payload.length
  have hset : ∀ v : UInt8, Slice.set buf 0 v = some (filled [v] buf) :=
    fun v => set_filled [] (by simp only [List.length_nil]; omega) v
  unfold fmtHead head
  rw [hset]
  simp only [Option.bind_eq_bind, Option.bind_some, fmtLength_eq _ _ h]
  obtain ⟨byte1, ext, hf⟩ := List.exists_cons_of_length_pos hpos
  rw [hf] at hle ⊢
  generalize ((if f.fin then 0x80 else 0) ||| f.opcode.byte : UInt8) = byte0
  cases f.mask with
  | none =>
    simp only [Option.pure_def, List.length_cons]
    rw [Nat.add_comm]
  | some mask =>
    have hl : mask.toList.length = 4 := Vector.length_toList
    have hcopy : copyFromSlice (filled (byte0 :: (byte1 ||| 0x80) :: ext) buf)
        (byte0 :: (byte1 ||| 0x80) :: ext).length (1 + (byte1 :: ext).length + 4) mask.toList =
        some (filled (byte0 :: (byte1 ||| 0x80) :: ext ++ mask.toList) buf) :=
      copyFromSlice_filled _ mask.toList (by simp only [hl, List.length_cons]; omega)
        (by simp only [List.length_cons] at hle ⊢; omega)
    rw [getElem?_filled (by simp only [List.length_cons]; omega)]
    simp only [List.getElem?_cons_succ, List.getElem?_cons_zero, Option.bind_some]
    rw [set_filled_of_lt (by simp only [List.length_cons]; omega)]
    simp only [Option.bind_some, List.set_cons_succ, List.set_cons_zero, List.modifyHead_cons,
      List.cons_append] at hcopy ⊢
    rw [show 1 + (byte1 :: ext).length = (byte0 :: (byte1 ||| 0x80) :: ext).length by
      simp only [List.length_cons]; omega] at hcopy ⊢
    rw [hcopy]
    simp only [Option.bind_some, Option.pure_def, List.length_cons, List.length_append, hl]

theorem length_head_le (f : Frame) : 2 ≤ f.head.length ∧ f.head.length ≤ 14 := by
  have hl := length_lengthField f.payload.length
  unfold head
  cases f.mask with
  | none =>
    simp only [List.length_cons]
    omega
  | some mask =>
    simp only [List.length_cons, List.length_append, List.length_modifyHead, Vector.length_toList]
    omega

/-- `write`, whatever the buffer holds. -/
theorem write_eq (f : Frame) (buf : List UInt8) : ∃ buf', f.write buf = some (f.wire, buf') := by
  have hl := length_head_le f
  unfold write
  simp only
  generalize hb : (if buf.length < f.payload.length + maxHeadSize then
      buf ++ List.replicate (f.payload.length + maxHeadSize - buf.length) 0 else buf) = buf₁
  have hlen : f.payload.length + 16 ≤ buf₁.length := by
    rw [← hb]
    unfold maxHeadSize
    split
    · rw [List.length_append, List.length_replicate]
      omega
    · omega
  have hmax : maxHeadSize ≤ buf₁.length := by
    unfold maxHeadSize
    omega
  rw [fmtHead_eq f hmax]
  simp only [Option.bind_eq_bind, Option.bind_some]
  rw [copyFromSlice_filled f.head f.payload rfl (by omega)]
  simp only [Option.bind_some]
  have hr := range_filled (Nat.zero_le f.wire.length) buf₁
  rw [wire, List.length_append, List.drop_zero] at hr
  rw [hr]
  exact ⟨_, rfl⟩

open Sink

/-- The rest of a frame of which `n` bytes were taken. -/
theorem puts_writevHead (head payload buf : List UInt8) (fuel n : Nat) (stream : Sink UInt8)
    (hf : head.length < n + fuel) (hn : n ≤ (head ++ payload).length) :
    ∃ r, (writevHead (filled head buf) payload head.length fuel n stream).bind
        (writevPayload payload head.length) = some r ∧
      stream.Puts ((head ++ payload).drop n) r := by
  have hdone : ∀ n (stream : Sink UInt8), head.length < n → n ≤ (head ++ payload).length →
      ∃ r, writevPayload payload head.length (some n, stream) = some r ∧
        stream.Puts ((head ++ payload).drop n) r := by
    intro n stream hl hn
    rw [List.length_append] at hn
    rw [List.drop_append, List.drop_eq_nil_of_le (by omega), List.nil_append, writevPayload]
    by_cases ht : n < head.length + payload.length
    · rw [if_pos ⟨ht, hl⟩, Slice.rangeFrom_eq (by omega)]
      exact ⟨_, rfl, stream.puts_writeAll _⟩
    · rw [if_neg (by omega), List.drop_eq_nil_of_le (by omega)]
      exact ⟨_, rfl, .nil stream⟩
  induction fuel generalizing n stream with
  | zero => exact hdone n stream hf hn
  | succ fuel ih =>
    rw [writevHead]
    by_cases hlt : n ≤ head.length
    · have hd : (head ++ payload).drop n = head.drop n ++ payload :=
        List.drop_append_of_le_length hlt
      rw [if_pos hlt, range_filled hlt, hd]
      simp only [Option.bind_eq_bind, Option.bind_some]
      rcases hw : stream.write (head.drop n ++ payload) with ⟨_ | wrote, stream'⟩
      · exact ⟨_, rfl, .zero hw⟩
      · obtain ⟨h0, -⟩ | ⟨-, hle, -⟩ := write_cases hw
        · cases h0
        · rw [← hd, List.length_drop] at hle
          obtain ⟨r, hr, hput⟩ := ih (n + (wrote + 1)) stream' (by omega) (by omega)
          refine ⟨r, hr, .resume hw (Nat.succ_ne_zero wrote) ?_⟩
          rwa [← hd, List.drop_drop]
    · rw [if_neg hlt]
      exact hdone n stream (by omega) hn

/-- `writev`, however short the writes are. -/
theorem puts_writev (f : Frame) (stream : Sink UInt8) :
    ∃ r, f.writev stream = some r ∧ stream.Puts f.wire r := by
  have hl := length_head_le f
  unfold writev
  rw [fmtHead_eq f (by rw [List.length_replicate])]
  simp only [Option.bind_eq_bind, Option.bind_some, range_filled (Nat.zero_le _), List.drop_zero]
  rcases hw : stream.write (f.head ++ f.payload) with ⟨_ | n, stream'⟩
  · exact ⟨_, rfl, .zero hw⟩
  · obtain ⟨h0, -⟩ | ⟨-, hle, -⟩ := write_cases hw
    · cases h0
    · simp only
      by_cases ht : n + 1 = f.head.length + f.payload.length
      · rw [if_pos ht]
        refine ⟨_, rfl, .whole hw (Nat.succ_ne_zero n) ?_⟩
        rw [wire, List.length_append]
        exact ht
      · rw [if_neg ht]
        obtain ⟨r, hr, hput⟩ := puts_writevHead f.head f.payload (List.replicate maxHeadSize 0)
          (f.head.length + 1) (n + 1) stream' (by omega) hle
        exact ⟨r, hr, .resume hw (Nat.succ_ne_zero n) hput⟩

end Frame

/-! ## The write half -/

namespace WriteHalf

/-- The frame that `write_frame` puts on the wire: masked by a client. -/
def framed (target : Target) (addr : Nat) (key : Mask) (half : WriteHalf) (frame : Frame) : Frame :=
  if half.client && half.autoApplyMask then frame.applyMask target addr key else frame

/-- What a call of `write_frame` does: nothing if it is refused, otherwise it is a writer of the
frame, and a Close closes the half. Only the buffer changes besides. -/
inductive Wrote (half : WriteHalf) (stream : Sink UInt8) (opcode : OpCode) (wire : List UInt8) :
    Except WriteError Unit × WriteHalf × Sink UInt8 → Prop
  | refused : half.closed = true → opcode ≠ .close →
      Wrote half stream opcode wire (.error .connectionClosed, half, stream)
  | written {ok : Bool} {stream' : Sink UInt8} {buf : List UInt8} :
      (half.closed = true → opcode = .close) → stream.Puts wire (ok, stream') →
      Wrote half stream opcode wire
        (if ok then .ok () else .error .io,
          { half with closed := half.closed || decide (opcode = .close), writeBuffer := buf },
          stream')

theorem opcode_framed (target : Target) (addr : Nat) (key : Mask) (half : WriteHalf)
    (frame : Frame) : (framed target addr key half frame).opcode = frame.opcode := by
  unfold framed Frame.applyMask
  split
  · cases frame.mask <;> rfl
  · rfl

theorem writeFrame_wrote (target : Target) (addr : Nat) (key : Mask) (half : WriteHalf)
    (stream : Sink UInt8) (frame : Frame) :
    ∃ r, writeFrame target addr key half stream frame = some r ∧
      Wrote half stream frame.opcode (framed target addr key half frame).wire r := by
  have hop := opcode_framed target addr key half frame
  unfold writeFrame
  simp only
  rw [← framed]
  generalize framed target addr key half frame = f at hop ⊢
  by_cases hc : f.opcode ≠ .close ∧ half.closed = true
  · rw [if_pos hc]
    exact ⟨_, rfl, .refused hc.2 (hop ▸ hc.1)⟩
  · rw [if_neg hc]
    have hopen : half.closed = true → frame.opcode = .close := by
      intro hcl
      by_contra hne
      exact hc ⟨hop ▸ hne, hcl⟩
    have hhalf : (if f.opcode = .close then { half with closed := true } else half) =
        { half with closed := half.closed || decide (frame.opcode = .close) } := by
      rw [← hop]
      by_cases ho : f.opcode = .close
      · rw [if_pos ho, decide_eq_true ho, Bool.or_true]
      · rw [if_neg ho, decide_eq_false ho, Bool.or_false]
    rw [hhalf]
    simp only
    by_cases hv : half.vectored = true ∧ half.writevThreshold < f.payload.length
    · obtain ⟨⟨ok, stream'⟩, hw, hput⟩ := f.puts_writev stream
      rw [if_pos hv, hw]
      exact ⟨_, rfl, .written hopen hput⟩
    · obtain ⟨buf, hw⟩ := f.write_eq half.writeBuffer
      rw [if_neg hv, hw]
      exact ⟨_, rfl, .written hopen (stream.puts_writeAll f.wire)⟩

end WriteHalf

end ShrimpWisp
