import Mathlib.Tactic.Common

/-!
# Wisp v2.1 types and constants (`src/protocol/types.rs`)
-/

namespace ShrimpWisp

/-- The id of a stream, chosen by the client. -/
abbrev StreamId := UInt32

def wispVersionMajor : UInt8 := 2
def wispVersionMinor : UInt8 := 1

def packetConnect : UInt8 := 0x01
def packetData : UInt8 := 0x02
def packetContinue : UInt8 := 0x03
def packetClose : UInt8 := 0x04
def packetInfo : UInt8 := 0x05

/-- The stream id of connection-level packets. -/
def streamIdControl : StreamId := 0

/-- The type byte and the stream id. -/
def wispHeaderSize : Nat := 5

inductive StreamType where
  | tcp
  | udp
  deriving DecidableEq, Repr

def StreamType.fromByte (b : UInt8) : Option StreamType :=
  if b = 0x01 then some .tcp else if b = 0x02 then some .udp else none

/-- Close reasons. -/
inductive CloseReason where
  | unknown
  | voluntary
  | networkError
  | incompatibleExtensions
  | invalidInfo
  | unreachable
  | timedOut
  | refused
  | transferTimeout
  | blocked
  | throttled
  | clientError
  | authInvalidCredentials
  | authInvalidSignature
  | authRequired
  deriving DecidableEq, Repr

namespace CloseReason

def asByte : CloseReason → UInt8
  | .unknown => 0x01
  | .voluntary => 0x02
  | .networkError => 0x03
  | .incompatibleExtensions => 0x04
  | .invalidInfo => 0x41
  | .unreachable => 0x42
  | .timedOut => 0x43
  | .refused => 0x44
  | .transferTimeout => 0x47
  | .blocked => 0x48
  | .throttled => 0x49
  | .clientError => 0x81
  | .authInvalidCredentials => 0xc0
  | .authInvalidSignature => 0xc1
  | .authRequired => 0xc2

/-- The reason with the byte `b`; an unknown byte is `unknown`. -/
def fromByte (b : UInt8) : CloseReason :=
  if b = 0x01 then .unknown
  else if b = 0x02 then .voluntary
  else if b = 0x03 then .networkError
  else if b = 0x04 then .incompatibleExtensions
  else if b = 0x41 then .invalidInfo
  else if b = 0x42 then .unreachable
  else if b = 0x43 then .timedOut
  else if b = 0x44 then .refused
  else if b = 0x47 then .transferTimeout
  else if b = 0x48 then .blocked
  else if b = 0x49 then .throttled
  else if b = 0x81 then .clientError
  else if b = 0xc0 then .authInvalidCredentials
  else if b = 0xc1 then .authInvalidSignature
  else if b = 0xc2 then .authRequired
  else .unknown

@[simp] theorem fromByte_asByte (r : CloseReason) : fromByte r.asByte = r := by
  cases r <;> rfl

end CloseReason

/-- The payload of a CONNECT packet. -/
structure ConnectPayload where
  streamType : StreamType
  port : UInt16
  /-- The UTF-8 bytes of the hostname. -/
  hostname : List UInt8
  deriving DecidableEq, Repr

/-- An extension of an INFO packet. -/
structure ExtensionEntry where
  id : UInt8
  payload : List UInt8
  deriving DecidableEq, Repr

end ShrimpWisp
