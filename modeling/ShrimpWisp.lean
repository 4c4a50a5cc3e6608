import ShrimpWisp.Lib.Sys
import ShrimpWisp.Lib.Progress
import ShrimpWisp.Lib.Chan
import ShrimpWisp.Lib.BoundedMap
import ShrimpWisp.Lib.Blocks
import ShrimpWisp.Lib.Rounds
import ShrimpWisp.Lib.Sink
import ShrimpWisp.Lib.Decoder
import ShrimpWisp.Lib.Parser
import ShrimpWisp.Lib.Window
import ShrimpWisp.Rust.Net
import ShrimpWisp.Rust.Str
import ShrimpWisp.Rust.Slice
import ShrimpWisp.Rust.Http
import ShrimpWisp.Protocol.Types
import ShrimpWisp.Protocol.Frame
import ShrimpWisp.Ws.Writer
import ShrimpWisp.Ws.Parser
import ShrimpWisp.Ws.Reader
import ShrimpWisp.Ws.Mask
import ShrimpWisp.Ws.Frame
import ShrimpWisp.Ws.Socket
import ShrimpWisp.Proxy.Stream
import ShrimpWisp.Proxy.TableMap
import ShrimpWisp.Server.Config
import ShrimpWisp.Ws.Upgrade
import ShrimpWisp.Server.Accept
import ShrimpWisp.Server.Dns
import ShrimpWisp.Server.Resolver
import ShrimpWisp.Server.Security
import ShrimpWisp.Server.RealIp
import ShrimpWisp.Server.Backend
import ShrimpWisp.Server.Handshake
import ShrimpWisp.Server.HandshakeWire
import ShrimpWisp.Server.Connection
import ShrimpWisp.Server.Clock
import ShrimpWisp.Server.Core
import ShrimpWisp.Server.Refine
import ShrimpWisp.Server.Startup
import ShrimpWisp.Server.Loop
import ShrimpWisp.Server.Turn
import ShrimpWisp.Server.State
import ShrimpWisp.Proofs.Base
import ShrimpWisp.Proofs.Incarnation
import ShrimpWisp.Proofs.StaleEnd
import ShrimpWisp.Proofs.ControlChannel
import ShrimpWisp.Proofs.Opening
import ShrimpWisp.Proofs.Egress
import ShrimpWisp.Proofs.Upload
import ShrimpWisp.Proofs.Wakeup
import ShrimpWisp.Proofs.Downstream
import ShrimpWisp.Proofs.Closing
import ShrimpWisp.Proofs.Credit
import ShrimpWisp.Proofs.Tracking
import ShrimpWisp.Proofs.Connecting
import ShrimpWisp.Proofs.Agreement
import ShrimpWisp.Proofs.Provenance
import ShrimpWisp.Proofs.Precedence
import ShrimpWisp.Proofs.Wire
import ShrimpWisp.Proofs.Segments
import ShrimpWisp.Proofs.Codec
import ShrimpWisp.Proofs.Auth
import ShrimpWisp.Proofs.Queue
import ShrimpWisp.Proofs.Preframe
import ShrimpWisp.Proofs.Delivery
import ShrimpWisp.Proofs.StaleConnect
import ShrimpWisp.Proofs.Deferred
import ShrimpWisp.Proofs.Admission
import ShrimpWisp.Proofs.Cleanup
import ShrimpWisp.Proofs.Heartbeat
import ShrimpWisp.Proofs.Filters
import ShrimpWisp.Proofs.Blocking
import ShrimpWisp.Proofs.Resolution
import ShrimpWisp.Proofs.Cache
import ShrimpWisp.Proofs.Framing
import ShrimpWisp.Proofs.Greeting
import ShrimpWisp.Proofs.Rest
import ShrimpWisp.Proofs.Lifetime
import ShrimpWisp.Proofs.Ending
import ShrimpWisp.Proofs.Fairness
import ShrimpWisp.Proofs.Datagrams
import ShrimpWisp.Proofs.Pongs
import ShrimpWisp.Proofs.Upgrade
