import ShrimpWisp.Server.Handshake
import ShrimpWisp.Ws.Socket

/-!
# The Wisp handshake on its socket (`src/server/connection.rs`)

Step 2 of `handle_connection` again, now with the WebSocket that it reads from and writes to: pieces
of the client's bytes on one side, short writes on the other.

* `upgradedSocket`: the WebSocket after the upgrade, with the options that the server sets.
* `readWsBinaryWire`, `handshakeWire`: `read_ws_binary_handshake` and the handshake.
-/

namespace ShrimpWisp

/-- The WebSocket after the upgrade: `auto_close` off, and vectored writes of all that is not
empty. -/
def upgradedSocket (buffer : List UInt8) (incoming : List (List UInt8)) (room : List Nat) :
    WebSocket where
  limit := maxMessageSize
  autoClose := false
  autoPong := true
  buffer := buffer
  incoming := incoming
  half := { WriteHalf.afterHandshake false with vectored := true, writevThreshold := 0 }
  outgoing := ⟨[], room⟩

/-- One round of `read_ws_binary_handshake`. -/
def readWsBinaryRound (ws : WebSocket) : Option (WebSocket ⊕ Await (List UInt8) × WebSocket) :=
  match ws.readFrame with
  | none => none
  | some (.pending ws) => some (.inr (.waiting, ws))
  | some (.ready (.error _) ws) => some (.inr (.failed .webSocket, ws))
  | some (.ready (.ok f) ws) =>
    match f.opcode with
    | .binary => some (.inr (.ready f.payload, ws))
    | .close => some (.inr (.failed .clientClosed, ws))
    | .ping =>
      match ws.writeFrame (.pong f.payload) with
      | none => none
      | some (.error _, ws) => some (.inr (.failed .webSocket, ws))
      | some (.ok (), ws) => some (.inl ws)
    | _ => some (.inl ws)

theorem readWsBinaryRound_lt {ws ws' : WebSocket} (h : readWsBinaryRound ws = some (.inl ws')) :
    ws'.unread < ws.unread := by
  unfold readWsBinaryRound at h
  split at h
  · cases h
  · cases h
  · cases h
  next f ws₁ hr =>
  have hlt := WebSocket.readFrame_lt hr
  split at h
  · cases h
  · cases h
  · split at h
    · cases h
    · cases h
    · next hw =>
      cases h
      rw [WebSocket.unread_writeFrame hw]
      exact hlt
  · cases h
    exact hlt

/-- The rounds of `read_ws_binary_handshake`. -/
def readWsBinaryRounds : Rounds WebSocket (Await (List UInt8) × WebSocket) where
  round := readWsBinaryRound
  size := WebSocket.unread
  smaller := readWsBinaryRound_lt

/-- `read_ws_binary_handshake`. -/
def readWsBinaryWire (ws : WebSocket) : Option (Await (List UInt8) × WebSocket) :=
  readWsBinaryRounds.loop ws

/-- A ping that `read_frame` has answered, and the frame after it. -/
theorem readWsBinaryWire_again {ws ws' : WebSocket} (h : ws.readFrameRound = some (.inl ws')) :
    readWsBinaryWire ws = readWsBinaryWire ws' := by
  have hr : readWsBinaryRound ws = readWsBinaryRound ws' := by
    rw [readWsBinaryRound, readWsBinaryRound, WebSocket.readFrame, WebSocket.readFrame,
      WebSocket.readFrameRounds.loop_again h]
  unfold readWsBinaryWire
  cases hw : readWsBinaryRound ws' with
  | none => rw [readWsBinaryRounds.loop_panic (hr.trans hw), readWsBinaryRounds.loop_panic hw]
  | some x =>
    cases x with
    | inl ws'' => rw [readWsBinaryRounds.loop_again (hr.trans hw), readWsBinaryRounds.loop_again hw]
    | inr r => rw [readWsBinaryRounds.loop_done (hr.trans hw), readWsBinaryRounds.loop_done hw]

section Wire

variable (bcryptVerify : Str → Str → Bool)

/-- The state of a handshake that is over, or that waits. -/
abbrev WireEnd := Await (Option (List UInt8)) × WebSocket

/-- A CLOSE on stream 0, then the error. -/
def rejectWire (ws : WebSocket) (reason : CloseReason) (msg : Str) : Option WireEnd := do
  match ← ws.writeFrame (.binary (buildCloseFrame streamIdControl reason)) with
  | (.error _, ws) => pure (.failed .webSocket, ws)
  | (.ok (), ws) => pure (.failed (.protocol msg), ws)

/-- The initial CONTINUE, then the main loop. -/
def admitWire (config : ServerConfig) (ws : WebSocket) (deferred : Option (List UInt8)) :
    Option WireEnd := do
  match ← ws.writeFrame (.binary (buildInitialContinueFrame config.bufferSize)) with
  | (.error _, ws) => pure (.failed .webSocket, ws)
  | (.ok (), ws) => pure (.ready deferred, ws)

/-- The handshake after the first Binary message of a v2 client. -/
def handshakeFirstWire (config : ServerConfig) (ws : WebSocket) (firstPayload : List UInt8) :
    Option WireEnd :=
  if isValidInfo firstPayload then
    if clientMajor firstPayload ≠ wispVersionMajor then
      rejectWire ws .incompatibleExtensions (lit "Incompatible Wisp version")
    else if config.isAuthRequired && !authed bcryptVerify config firstPayload then
      rejectWire ws .authInvalidCredentials (lit "Auth failed")
    else admitWire config ws none
  else if config.isAuthRequired then rejectWire ws .authRequired (lit "Auth required")
  else admitWire config ws (some firstPayload)

/-- `handle_connection`, Step 2. -/
def handshakeWire (config : ServerConfig) (isV2 : Bool) (ws : WebSocket) : Option WireEnd :=
  if isV2 then do
    match ← ws.writeFrame (.binary (buildServerInfoFrame [])) with
    | (.error _, ws) => pure (.failed .webSocket, ws)
    | (.ok (), ws) =>
      match ← readWsBinaryWire ws with
      | (.ready firstPayload, ws) => handshakeFirstWire bcryptVerify config ws firstPayload
      | (.failed e, ws) => pure (.failed e, ws)
      | (.waiting, ws) => pure (.waiting, ws)
  else if config.isAuthRequired then
    rejectWire ws .authRequired (lit "Auth required, v2 protocol mandatory")
  else admitWire config ws none

end Wire

end ShrimpWisp
