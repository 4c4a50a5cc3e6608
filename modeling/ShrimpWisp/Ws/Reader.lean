import Mathlib.Algebra.Group.Nat.Defs
import ShrimpWisp.Rust.Str
import ShrimpWisp.Protocol.Types

/-!
# WebSocket frames from the client (`vendor/fastwebsockets`)

The readers of the forked WebSocket library, over whole frames: the client's bytes are a sequence
of frames, or of bytes that no frame can start with. `none` is an error of the library.

* `checkFrame`: the checks that both parsers make on a header.
* `readFrameInner`: the awaited parser, with `auto_close` and `auto_pong` off. It also checks the
  text of a final Text frame.
* `readWispFrame`, `tryReadWispFrame`: the two fused readers, on the awaited and on the buffered
  parser.
-/

namespace ShrimpWisp

inductive OpCode where
  | continuation
  | text
  | binary
  | close
  | ping
  | pong
  deriving DecidableEq, Repr

def OpCode.isControl : OpCode → Bool
  | .close | .ping | .pong => true
  | .continuation | .text | .binary => false

/-- A frame, its payload unmasked. -/
structure WsFrame where
  fin : Bool := true
  opcode : OpCode
  payload : List UInt8
  deriving DecidableEq, Repr

/-- What the client sends next. -/
inductive WsInput where
  | frame (f : WsFrame)
  /-- Reserved bits, an unknown opcode, no mask, or the end of the stream. -/
  | broken
  deriving DecidableEq, Repr

/-- The default of `max_message_size`. -/
def maxMessageSize : Nat := 64 * 2 ^ 20

/-- The checks on a frame header. -/
def checkFrame (limit : Nat) : WsInput → Option WsFrame
  | .broken => none
  | .frame f =>
    if f.opcode.isControl && !f.fin then none
    else if f.opcode.isControl && decide (125 < f.payload.length) then none
    else if limit < f.payload.length then none
    else some f

/-- `read_frame_inner` (module doc). -/
def readFrameInner (limit : Nat) (i : WsInput) : Option WsFrame :=
  match checkFrame limit i with
  | none => none
  | some f => if f.opcode = .text ∧ f.fin = true ∧ Utf8.valid f.payload = false then none else some f

/-- `WispFrameResult`: a Binary frame with the Wisp header taken off, or another frame. -/
inductive WispFrameResult where
  | wisp (packetType : UInt8) (streamId : StreamId) (payload : List UInt8)
  | control (f : WsFrame)
  deriving DecidableEq, Repr

/-- The Wisp header of a Binary frame. A shorter payload gets the packet type 0. -/
def WispFrameResult.ofFrame (f : WsFrame) : WispFrameResult :=
  match f.opcode with
  | .binary =>
    match f.payload with
    | t :: a :: b :: c :: d :: payload => .wisp t (le32 a b c d) payload
    | payload => .wisp 0 0 payload
  | _ => .control f

def readWispFrame (limit : Nat) (i : WsInput) : Option WispFrameResult :=
  (readFrameInner limit i).map .ofFrame

def tryReadWispFrame (limit : Nat) (i : WsInput) : Option WispFrameResult :=
  (checkFrame limit i).map .ofFrame

/-- A packet fits the limit, or it is too short for a header and has the type 0. -/
def FitsLimit (limit : Nat) (r : Option WispFrameResult) : Prop :=
  ∀ t s payload, r = some (.wisp t s payload) → t = 0 ∨ payload.length + 5 ≤ limit

theorem fitsLimit_tryReadWispFrame (limit : Nat) (i : WsInput) :
    FitsLimit limit (tryReadWispFrame limit i) := by
  intro t s payload h
  obtain ⟨f, hf, hr⟩ := Option.map_eq_some_iff.mp h
  have hlen : f.payload.length ≤ limit := by
    unfold checkFrame at hf
    split at hf
    · cases hf
    · split at hf
      · cases hf
      · split at hf
        · cases hf
        · split at hf
          · cases hf
          · rename_i hl; cases hf; exact Nat.le_of_not_lt hl
  unfold WispFrameResult.ofFrame at hr
  split at hr
  · split at hr
    · rename_i hp
      cases hr
      rw [hp] at hlen
      exact .inr hlen
    · cases hr; exact .inl rfl
  · cases hr

theorem fitsLimit_readWispFrame (limit : Nat) (i : WsInput) :
    FitsLimit limit (readWispFrame limit i) := by
  intro t s payload h
  obtain ⟨f, hf, hr⟩ := Option.map_eq_some_iff.mp h
  refine fitsLimit_tryReadWispFrame limit i t s payload ?_
  unfold readFrameInner at hf
  split at hf
  · cases hf
  · rename_i g hg
    split at hf
    · cases hf
    · cases hf
      rw [tryReadWispFrame, hg, ← hr]
      rfl

theorem checkFrame_eq_some {limit : Nat} {i : WsInput} {f : WsFrame}
    (h : checkFrame limit i = some f) : i = .frame f := by
  unfold checkFrame at h
  split at h
  · cases h
  · split at h
    · cases h
    · split at h
      · cases h
      · split at h
        · cases h
        · cases h; rfl

/-- A control frame is short. -/
theorem checkFrame_control {limit : Nat} {i : WsInput} {f : WsFrame}
    (h : checkFrame limit i = some f) (hc : f.opcode.isControl = true) :
    f.payload.length ≤ 125 := by
  obtain rfl := checkFrame_eq_some h
  simp only [checkFrame, hc, Bool.true_and, decide_eq_true_eq] at h
  split at h
  · cases h
  · split at h
    · cases h
    · next hlen => exact Nat.le_of_not_lt hlen

/-- The awaited parser makes the checks of both. -/
theorem checkFrame_of_readFrameInner {limit : Nat} {i : WsInput} {f : WsFrame}
    (h : readFrameInner limit i = some f) : checkFrame limit i = some f := by
  unfold readFrameInner at h
  split at h
  · cases h
  · next g hg =>
    split at h
    · cases h
    · rw [← h]
      exact hg

theorem readFrameInner_eq_some {limit : Nat} {i : WsInput} {f : WsFrame}
    (h : readFrameInner limit i = some f) : i = .frame f :=
  checkFrame_eq_some (checkFrame_of_readFrameInner h)

/-- A frame that is not a Wisp packet is passed on as it is. -/
theorem eq_of_ofFrame_control {f g : WsFrame} (h : WispFrameResult.ofFrame f = .control g) :
    f = g := by
  unfold WispFrameResult.ofFrame at h
  split at h
  · split at h <;> cases h
  · exact WispFrameResult.control.inj h

/-- Both readers pass on short control frames only. -/
theorem readWispFrame_control {limit : Nat} {i : WsInput} {f : WsFrame}
    (h : readWispFrame limit i = some (.control f)) (hc : f.opcode.isControl = true) :
    f.payload.length ≤ 125 := by
  obtain ⟨g, hg, hr⟩ := Option.map_eq_some_iff.mp h
  obtain rfl := eq_of_ofFrame_control hr
  exact checkFrame_control (checkFrame_of_readFrameInner hg) hc

theorem tryReadWispFrame_control {limit : Nat} {i : WsInput} {f : WsFrame}
    (h : tryReadWispFrame limit i = some (.control f)) (hc : f.opcode.isControl = true) :
    f.payload.length ≤ 125 := by
  obtain ⟨g, hg, hr⟩ := Option.map_eq_some_iff.mp h
  obtain rfl := eq_of_ofFrame_control hr
  exact checkFrame_control hg hc

end ShrimpWisp
