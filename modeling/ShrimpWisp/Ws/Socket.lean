import ShrimpWisp.Lib.Rounds
import ShrimpWisp.Ws.Frame

/-!
# The WebSocket of the handshake (`vendor/fastwebsockets`)

Until the handshake is over the server reads and writes with the library's `WebSocket`: a read half
and a write half on one stream. `read_frame` answers pings, and closes if it is asked to, before it
returns.

* `CloseCode`: the status codes, and which of them a peer may send.
* `ReadHalf.obliged`: what `read_frame_inner` makes of a frame, and what is to be sent for it.
* `WebSocket.readFrame`: the loop around it, `WebSocket.readFrameRound` again and again. A round
  takes a frame off the stream, so the loop ends.

A result of `none` is a panic. Like the reads of `Ws/Parser`, a socket has the pieces that its
further reads return; a future that is dropped leaves what was read in the buffer.
-/

namespace ShrimpWisp

/-- `CloseCode`. -/
inductive CloseCode where
  | normal
  | away
  | protocol
  | unsupported
  | status
  | abnormal
  | invalid
  | policy
  | size
  | extension
  | error
  | restart
  | again
  | tls
  | reserved (code : Nat)
  | iana (code : Nat)
  | library (code : Nat)
  | bad (code : Nat)
  deriving DecidableEq, Repr

namespace CloseCode

/-- The codes with a name. -/
def named : List (Nat × CloseCode) :=
  [(1000, .normal), (1001, .away), (1002, .protocol), (1003, .unsupported), (1005, .status),
    (1006, .abnormal), (1007, .invalid), (1008, .policy), (1009, .size), (1010, .extension),
    (1011, .error), (1012, .restart), (1013, .again), (1015, .tls)]

/-- `CloseCode::from`. -/
def ofCode (code : Nat) : CloseCode :=
  match named.lookup code with
  | some c => c
  | none =>
    if 1 ≤ code ∧ code ≤ 999 then .bad code
    else if 1016 ≤ code ∧ code ≤ 2999 then .reserved code
    else if 3000 ≤ code ∧ code ≤ 3999 then .iana code
    else if 4000 ≤ code ∧ code ≤ 4999 then .library code
    else .bad code

/-- `is_allowed`. -/
def isAllowed : CloseCode → Bool
  | .bad _ | .reserved _ | .status | .abnormal | .tls => false
  | _ => true

end CloseCode

namespace Frame

/-- `Frame::binary`. -/
def binary (payload : List UInt8) : Frame := ⟨true, .binary, none, payload⟩

/-- `Frame::pong`. -/
def pong (payload : List UInt8) : Frame := ⟨true, .pong, none, payload⟩

/-- `Frame::close_raw`. -/
def closeRaw (payload : List UInt8) : Frame := ⟨true, .close, none, payload⟩

/-- `Frame::close`. -/
def close (code : Nat) (reason : List UInt8) : Frame :=
  ⟨true, .close, none, (code / 2 ^ 8).toUInt8 :: code.toUInt8 :: reason⟩

end Frame

/-- The errors of `read_frame`. -/
inductive SocketError where
  | webSocket (e : WebSocketError)
  | invalidCloseFrame
  | invalidCloseCode
  | write (e : WriteError)
  deriving DecidableEq, Repr

/-- `read_frame_inner` on a frame: the result, and the frame to send. -/
def ReadHalf.obliged (autoClose autoPong : Bool) (f : WsFrame) :
    Except SocketError (Option WsFrame) × Option Frame :=
  match f.opcode with
  | .close =>
    if autoClose then
      match f.payload with
      | [] => (.ok (some f), some (.closeRaw f.payload))
      | [_] => (.error .invalidCloseFrame, none)
      | a :: b :: reason =>
        let code := CloseCode.ofCode (fromBeBytes [a, b])
        if !Utf8.valid reason then (.error (.webSocket .invalidUtf8), none)
        else if !code.isAllowed then (.error .invalidCloseCode, some (.close 1002 reason))
        else (.ok (some f), some (.closeRaw f.payload))
    else (.ok (some f), none)
  | .ping => if autoPong then (.ok none, some (.pong f.payload)) else (.ok (some f), none)
  | .text =>
    if f.fin && !Utf8.valid f.payload then (.error (.webSocket .invalidUtf8), none)
    else (.ok (some f), none)
  | _ => (.ok (some f), none)

/-- `WebSocket` in the role of the server. -/
structure WebSocket where
  limit : Nat
  autoClose : Bool
  autoPong : Bool
  buffer : List UInt8
  incoming : List (List UInt8)
  half : WriteHalf
  outgoing : Sink UInt8
  deriving DecidableEq, Repr

/-- A future on the socket that was polled until it was dropped or ready. -/
inductive Polled (α : Type) where
  | pending (ws : WebSocket)
  | ready (result : Except SocketError α) (ws : WebSocket)
  deriving DecidableEq, Repr

namespace WebSocket

/-- The bytes that were not parsed yet. -/
def unread (ws : WebSocket) : Nat := ws.buffer.length + ws.incoming.flatten.length

/-- `write_frame`. The server does not mask. -/
def writeFrame (ws : WebSocket) (frame : Frame) : Option (Except WriteError Unit × WebSocket) :=
  (ws.half.writeFrame (.x86 false) 0 #v[0, 0, 0, 0] ws.outgoing frame).map fun r =>
    (r.1, { ws with half := r.2.1, outgoing := r.2.2 })

/-- The frame that is to be sent, unless the write half was closed. -/
def writeObliged (ws : WebSocket) : Option Frame → Option (Except WriteError Unit × WebSocket)
  | some frame => if ws.half.closed then some (.ok (), ws) else ws.writeFrame frame
  | none => some (.ok (), ws)

/-- A frame takes bytes off. -/
theorem parseFrameHeader_lt {limit : Nat} {buffer rest : List UInt8} {f : MaskedFrame}
    {incoming incoming' : List (List UInt8)}
    (h : ReadHalf.parseFrameHeader limit buffer incoming = .ready (.ok f) rest incoming') :
    rest.length + incoming'.flatten.length < buffer.length + incoming.flatten.length := by
  induction incoming generalizing buffer with
  | nil =>
    rw [ReadHalf.parseFrameHeader_eq] at h
    split at h
    · next hp =>
      cases h
      have := ReadHalf.tryParseFrameBuffered_shrinks hp
      omega
    · cases h
    · next hcons => cases hcons
  | cons chunk incoming ih =>
    rw [ReadHalf.parseFrameHeader_eq] at h
    split at h
    · next hp =>
      cases h
      have := ReadHalf.tryParseFrameBuffered_shrinks hp
      omega
    · next hnil => cases hnil
    · next hcons =>
      cases hcons
      split at h
      · cases h
      · have := ih h
        rw [List.length_append] at this
        rw [List.flatten_cons, List.length_append]
        omega

/-- The rest of a round of `read_frame`, after the write of what was to be sent: the socket for the
next round, or the result. -/
def endRound (isClosed : Bool) (res : Except SocketError (Option WsFrame)) :
    Option (Except WriteError Unit × WebSocket) → Option (WebSocket ⊕ Polled WsFrame)
  | none => none
  | some (.error e, ws) => some (.inr (.ready (.error (.write e)) ws))
  | some (.ok (), ws) =>
    match res with
    | .error e => some (.inr (.ready (.error e) ws))
    | .ok none => some (.inl ws)
    | .ok (some frame) =>
      if isClosed ∧ frame.opcode ≠ .close then
        some (.inr (.ready (.error (.write .connectionClosed)) ws))
      else some (.inr (.ready (.ok frame) ws))

/-- One round of `read_frame`. -/
def readFrameRound (ws : WebSocket) : Option (WebSocket ⊕ Polled WsFrame) :=
  match ReadHalf.parseFrameHeader ws.limit ws.buffer ws.incoming with
  | .pending buffer => some (.inr (.pending { ws with buffer, incoming := [] }))
  | .ready (.error e) buffer incoming =>
    some (.inr (.ready (.error (.webSocket e)) { ws with buffer, incoming }))
  | .ready (.ok f) buffer incoming =>
    let obliged := ReadHalf.obliged ws.autoClose ws.autoPong f.unmask
    endRound ws.half.closed obliged.1 (writeObliged { ws with buffer, incoming } obliged.2)

section Unread

variable {ws ws' : WebSocket}

theorem unread_writeFrame {frame : Frame} {r : Except WriteError Unit}
    (h : ws.writeFrame frame = some (r, ws')) : ws'.unread = ws.unread := by
  obtain ⟨x, -, hx⟩ := Option.map_eq_some_iff.mp h
  cases hx
  rfl

theorem unread_writeObliged {send : Option Frame} {r : Except WriteError Unit}
    (h : ws.writeObliged send = some (r, ws')) : ws'.unread = ws.unread := by
  unfold writeObliged at h
  split at h
  · split at h
    · cases h
      rfl
    · exact unread_writeFrame h
  · cases h
    rfl

/-- The socket after a round in which a frame was read. -/
def afterFrame : WebSocket ⊕ Polled WsFrame → Option WebSocket
  | .inl ws => some ws
  | .inr (.ready (.ok _) ws) => some ws
  | .inr _ => none

theorem endRound_afterFrame {isClosed : Bool} {res : Except SocketError (Option WsFrame)}
    {w : Option (Except WriteError Unit × WebSocket)} {r : WebSocket ⊕ Polled WsFrame}
    (h : endRound isClosed res w = some r) (hr : afterFrame r = some ws') :
    ∃ x, w = some (x, ws') := by
  unfold endRound at h
  split at h
  · cases h
  · cases h
    cases hr
  · split at h
    · cases h
      cases hr
    · cases h
      cases hr
      exact ⟨_, rfl⟩
    · split at h
      · cases h
        cases hr
      · cases h
        cases hr
        exact ⟨_, rfl⟩

/-- A round takes a frame off the stream. -/
theorem readFrameRound_lt {r : WebSocket ⊕ Polled WsFrame} (h : ws.readFrameRound = some r)
    (hr : afterFrame r = some ws') : ws'.unread < ws.unread := by
  unfold readFrameRound at h
  split at h
  · cases h
    cases hr
  · cases h
    cases hr
  · next buffer incoming hp =>
    obtain ⟨x, hw⟩ := endRound_afterFrame h hr
    rw [unread_writeObliged hw]
    exact parseFrameHeader_lt hp

end Unread

/-- The rounds of `read_frame`. -/
def readFrameRounds : Rounds WebSocket (Polled WsFrame) where
  round := readFrameRound
  size := unread
  smaller h := readFrameRound_lt h rfl

/-- `read_frame`. -/
def readFrame (ws : WebSocket) : Option (Polled WsFrame) := readFrameRounds.loop ws

theorem readFrame_done {ws : WebSocket} {p : Polled WsFrame}
    (h : ws.readFrameRound = some (.inr p)) : ws.readFrame = some p :=
  readFrameRounds.loop_done h

/-- A frame that was read is off the stream. -/
theorem readFrame_lt {ws ws' : WebSocket} {f : WsFrame}
    (h : ws.readFrame = some (.ready (.ok f) ws')) : ws'.unread < ws.unread := by
  revert h
  refine readFrameRounds.loop_induct
    (P := fun ws out => out = some (.ready (.ok f) ws') → ws'.unread < ws.unread)
    (fun ws _ h => by cases h) (fun ws ws₁ hr ih h => ?_) (fun ws p hr h => ?_) ws
  · have := readFrameRound_lt hr rfl
    have := ih h
    omega
  · cases h
    exact readFrameRound_lt hr rfl

end WebSocket

end ShrimpWisp
