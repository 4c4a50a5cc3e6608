import ShrimpWisp.Rust.Str
import ShrimpWisp.Protocol.Types

/-!
# Wisp packets (`src/protocol/frame.rs`)

Parsing and building of the packet in a WebSocket binary message. A byte slice is a list; a parser
returns `none` where the source does.
-/

namespace ShrimpWisp

/-- A parsed Wisp packet. -/
inductive WispFrame where
  | connect (streamId : StreamId) (payload : ConnectPayload)
  | data (streamId : StreamId) (payload : List UInt8)
  | continue (streamId : StreamId) (bufferRemaining : UInt32)
  | close (streamId : StreamId) (reason : CloseReason)
  | info (streamId : StreamId) (majorVersion minorVersion : UInt8)
      (extensions : List ExtensionEntry)
  deriving DecidableEq, Repr

/-- The payload of a CONNECT packet: the type, the port, then the hostname. -/
def parseConnectPayload : List UInt8 → Option ConnectPayload
  | t :: p0 :: p1 :: b :: host =>
    match StreamType.fromByte t with
    | none => none
    | some streamType =>
      let hostnameBytes := b :: host
      if hostnameBytes.length > 253 then none
      else
        match fromUtf8 hostnameBytes with
        | none => none
        | some hostname => some { streamType, port := le16 p0 p1, hostname }
  | _ => none

/-- `parse_connect` repeats the checks of `parse_connect_payload`. -/
def parseConnect (streamId : StreamId) : List UInt8 → Option WispFrame
  | t :: p0 :: p1 :: b :: host =>
    match StreamType.fromByte t with
    | none => none
    | some streamType =>
      let hostnameBytes := b :: host
      if hostnameBytes.length > 253 then none
      else
        match fromUtf8 hostnameBytes with
        | none => none
        | some hostname => some (.connect streamId { streamType, port := le16 p0 p1, hostname })
  | _ => none

def parseContinue (streamId : StreamId) : List UInt8 → Option WispFrame
  | a :: b :: c :: d :: _ => some (.continue streamId (le32 a b c d))
  | _ => none

def parseClose (streamId : StreamId) : List UInt8 → Option WispFrame
  | [] => none
  | r :: _ => some (.close streamId (CloseReason.fromByte r))

/-- The loop of `parse_extensions`; each round takes at least the five bytes of an entry's header,
so `fuel = data.length` is enough. -/
def parseExtensionsFrom : Nat → List UInt8 → List ExtensionEntry
  | 0, _ => []
  | fuel + 1, id :: a :: b :: c :: d :: data =>
    let length := (le32 a b c d).toNat
    if data.length < length then []
    else { id, payload := data.take length } :: parseExtensionsFrom fuel (data.drop length)
  | _, _ => []

/-- The entries `[id, length (4 bytes), payload]` up to the first malformed one. -/
def parseExtensions (data : List UInt8) : List ExtensionEntry :=
  parseExtensionsFrom data.length data

def parseInfo (streamId : StreamId) : List UInt8 → Option WispFrame
  | major :: minor :: rest => some (.info streamId major minor (parseExtensions rest))
  | _ => none

/-- Parse the packet of a WebSocket binary message. -/
def parseWispFrame : List UInt8 → Option WispFrame
  | t :: a :: b :: c :: d :: payload =>
    let streamId := le32 a b c d
    if t = packetData then some (.data streamId payload)
    else if t = packetConnect then parseConnect streamId payload
    else if t = packetContinue then parseContinue streamId payload
    else if t = packetClose then parseClose streamId payload
    else if t = packetInfo then parseInfo streamId payload
    else none
  | _ => none

/-! ## Construction -/

def buildDataHeader (streamId : StreamId) : List UInt8 := packetData :: toLe32 streamId

def buildContinueFrame (streamId : StreamId) (bufferRemaining : UInt32) : List UInt8 :=
  packetContinue :: toLe32 streamId ++ toLe32 bufferRemaining

def buildCloseFrame (streamId : StreamId) (reason : CloseReason) : List UInt8 :=
  packetClose :: toLe32 streamId ++ [reason.asByte]

def buildServerInfoFrame (extensions : List ExtensionEntry) : List UInt8 :=
  packetInfo :: toLe32 streamIdControl ++ [wispVersionMajor, wispVersionMinor] ++
    extensions.flatMap fun e => e.id :: toLe32 e.payload.length.toUInt32 ++ e.payload

def buildInitialContinueFrame (bufferSize : UInt32) : List UInt8 :=
  buildContinueFrame streamIdControl bufferSize

/-! ## Facts -/

/-- A parsed hostname is the rest of the payload, with 1 to 253 bytes in UTF-8. -/
theorem parseConnectPayload_hostname {bytes : List UInt8} {p : ConnectPayload}
    (h : parseConnectPayload bytes = some p) :
    p.hostname.length + 3 = bytes.length ∧ p.hostname ≠ [] ∧ p.hostname.length ≤ 253 ∧
      Utf8.valid p.hostname = true := by
  unfold parseConnectPayload at h
  split at h
  · split at h
    · cases h
    · simp only at h
      split at h
      · cases h
      · rename_i hl
        split at h
        · cases h
        · rename_i host hu
          cases h
          unfold fromUtf8 at hu
          split at hu
          · rename_i hv
            cases hu
            exact ⟨rfl, by simp, Nat.le_of_not_lt hl, hv⟩
          · cases hu
  · cases h

theorem parseConnect_eq (streamId : StreamId) (bytes : List UInt8) :
    parseConnect streamId bytes = (parseConnectPayload bytes).map (.connect streamId) := by
  unfold parseConnect parseConnectPayload
  split
  · split
    · rfl
    · dsimp only
      split
      · rfl
      · split <;> rfl
  · rfl

/-- The bytes of a CONNECT packet's payload. -/
def connectPayloadBytes (p : ConnectPayload) : List UInt8 :=
  (match p.streamType with | .tcp => 0x01 | .udp => 0x02) :: toLe16 p.port ++ p.hostname

/-- A CONNECT payload with a hostname of 1 to 253 bytes reads back. -/
theorem parseConnectPayload_bytes {p : ConnectPayload} (hne : p.hostname ≠ [])
    (hl : p.hostname.length ≤ 253) (hv : Utf8.valid p.hostname = true) :
    parseConnectPayload (connectPayloadBytes p) = some p := by
  obtain ⟨t, port, host⟩ := p
  obtain ⟨b, host, rfl⟩ := List.exists_cons_of_ne_nil hne
  simp only at hl hv
  cases t <;> simp only [connectPayloadBytes, toLe16, List.cons_append, List.nil_append,
    parseConnectPayload, StreamType.fromByte, le16_toLe16, fromUtf8, hv, if_true,
    show ¬ (b :: host).length > 253 by omega, if_false,
    show ¬ (0x02 : UInt8) = 0x01 by decide]

end ShrimpWisp
