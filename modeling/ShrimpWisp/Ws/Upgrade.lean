import ShrimpWisp.Lib.Sys
import ShrimpWisp.Rust.Http
import ShrimpWisp.Server.Config

/-!
# The upgrade to a WebSocket (`src/ws/upgrade.rs`, `vendor/fastwebsockets/src/upgrade.rs`)

`handle_ws_upgrade`: hyper serves the HTTP requests of a connection, and the handler waits on the
channel `rx` for an upgrade.

* **The channel**: the sender `tx` is in a `Cell`, and the service takes it with the first request.
  What the service does not send with is dropped with that request, and with the service if the
  connection ends before.
* **Events** (`HttpEvent`): hyper calls the service for a request, or the connection ends. hyper
  reads no more requests after a response 101; here it may.
* SHA-1 and Base64 are parameters.

Left out: `set_nodelay`, the errors of hyper, log lines.
-/

namespace ShrimpWisp

/-- Some value of the header has `value` among its elements. -/
def headerContainsValue (headers : HeaderMap) (header value : Str) : Bool :=
  (headers.getAll header).any fun h =>
    (h.splitOn (ch ',')).any fun x => eqIgnoreAsciiCase (trim isAsciiWhitespace x) value

def isUpgradeRequest (request : Request) : Bool :=
  headerContainsValue request.headers (lit "connection") (lit "Upgrade") &&
    headerContainsValue request.headers (lit "upgrade") (lit "websocket")

/-- The errors of `upgrade`. -/
inductive UpgradeError where
  | missingSecWebSocketKey
  | invalidSecWebsocketVersion
  deriving DecidableEq, Repr

/-- What the handler gets with the WebSocket: whether the client asked for a subprotocol, and the
headers for the real IP. -/
structure UpgradeResult where
  isV2 : Bool
  headers : List (Str × HeaderText)

/-- The texts of a header. -/
def capturedFor (fields : List (Str × List UInt8)) (target : Str) : List (Str × HeaderText) :=
  fields.filterMap fun f =>
    if toAsciiLowercase f.1 = toAsciiLowercase target then (toStr f.2).map fun v => (f.1, v)
    else none

/-- The headers for the real IP, if it is enabled. -/
def capturedHeaders (config : ServerConfig) (request : Request) : List (Str × HeaderText) :=
  if config.realIpEnabled then config.realIpHeaders.flatMap (capturedFor request.headers.fields)
  else []

section

variable (sha1 : List UInt8 → List UInt8) (encode : List UInt8 → Str)

/-- The answer to the client's key. -/
def secWebsocketProtocol (key : List UInt8) : Str :=
  encode (sha1 (key ++ lit "258EAFA5-E914-47DA-95CA-C5AB0DC85B11"))

/-- The response that switches protocols. -/
def switchingProtocols (key : List UInt8) : Response where
  status := 101
  headers := ((HeaderMap.empty.append (lit "connection") (lit "upgrade")).append
    (lit "upgrade") (lit "websocket")).append (lit "Sec-WebSocket-Accept")
    (secWebsocketProtocol sha1 encode key)

def upgrade (request : Request) : Except UpgradeError Response :=
  match request.headers.get (lit "Sec-WebSocket-Key") with
  | none => .error .missingSecWebSocketKey
  | some key =>
    if request.headers.get (lit "Sec-WebSocket-Version") ≠ some (lit "13") then
      .error .invalidSecWebsocketVersion
    else .ok (switchingProtocols sha1 encode key)

variable (config : ServerConfig)

/-- The response names the subprotocol that the client asked for, and no extensions. -/
def echoProtocol (requestedProtocol : Option (List UInt8)) (headers : HeaderMap) : HeaderMap :=
  (match requestedProtocol with
  | some protocol => headers.insert (lit "sec-websocket-protocol") protocol
  | none => headers).remove (lit "sec-websocket-extensions")

/-- The service: its response, and what it sends if it has the sender. -/
def service (tx : Bool) (req : Request) : Response × Option UpgradeResult :=
  if !isUpgradeRequest req then
    if req.method == lit "GET" && req.path == lit "/health" then
      ({ status := 200,
         headers := HeaderMap.empty.append (lit "content-type") (lit "application/json") }, none)
    else ({ status := 200, headers := .empty }, none)
  else
    let requestedProtocol := req.headers.get (lit "sec-websocket-protocol")
    match upgrade sha1 encode req with
    | .error _ => ({ status := 400, headers := .empty }, none)
    | .ok response =>
      ({ response with headers := echoProtocol requestedProtocol response.headers },
        if tx then some ⟨requestedProtocol.isSome, capturedHeaders config req⟩ else none)

/-- What the handler sees of its channel. -/
inductive Rx where
  | waiting
  | received (result : UpgradeResult)
  | dropped

inductive HttpEvent where
  | request (req : Request)
  | closed

/-- An HTTP connection: whether hyper serves it, the `Cell` of the service, the channel, and the
responses. -/
structure HttpConn where
  serving : Bool := true
  tx : Bool := true
  rx : Rx := .waiting
  responses : List Response := []

/-- The sender is taken, and dropped if nothing is sent. -/
def HttpConn.send (s : HttpConn) (sent : Option UpgradeResult) : HttpConn :=
  if s.tx then { s with tx := false, rx := sent.elim .dropped .received } else s

def HttpConn.step (s : HttpConn) : HttpEvent → Option HttpConn
  | .request req =>
    if s.serving then
      let (response, sent) := service sha1 encode config s.tx req
      some { s.send sent with responses := s.responses ++ [response] }
    else none
  | .closed => some { s.send none with serving := false }

/-- The connection with the log of its requests. -/
def upgradeSys : Sys (HttpConn × List Request) HttpEvent :=
  Sys.logged { init := fun s => s = {}, step := HttpConn.step sha1 encode config } fun
    | _, .request req => some req
    | _, .closed => none

end

end ShrimpWisp
