import Ssproxy.Lib.Proc
import Ssproxy.Lib.Bytes
import Ssproxy.Lib.Numeral
import Ssproxy.Lib.Keeps
import Ssproxy.Lib.History
import Ssproxy.Lib.Epoch
import Ssproxy.Lib.Rounds
import Ssproxy.Wire
import Ssproxy.Proto
import Ssproxy.Codec
import Ssproxy.Crypto
import Ssproxy.Config
import Ssproxy.Channel
import Ssproxy.Table
import Ssproxy.Conn.State
import Ssproxy.Conn.Output
import Ssproxy.Conn.Channels
import Ssproxy.Conn.Kex
import Ssproxy.Conn.Input
import Ssproxy.Conn.Run
import Ssproxy.Machine.Effects
import Ssproxy.Machine.Moves
import Ssproxy.Machine.Packet
import Ssproxy.Machine.Frame
import Ssproxy.Machine.Invariant
import Ssproxy.Machine.Runs
import Ssproxy.Refine.Channels
import Ssproxy.Refine.Kex
import Ssproxy.Refine.Input
import Ssproxy.Refine.Run
import Ssproxy.Machine.Emits
import Ssproxy.Machine.Slots
import Ssproxy.Machine.Sender
import Ssproxy.Safety
import Ssproxy.Laws
import Ssproxy.Auth
import Ssproxy.Negotiate
import Ssproxy.Strict
import Ssproxy.Stream
import Ssproxy.Mirror
import Ssproxy.Backlog
import Ssproxy.Gate
import Ssproxy.Terminal
import Ssproxy.Unread
import Ssproxy.Fragments
import Ssproxy.Stall
import Ssproxy.Outflow
import Ssproxy.Lives
import Ssproxy.Inflow
import Ssproxy.Clamp
import Ssproxy.Opens
import Ssproxy.Nonce
import Ssproxy.Rounds
import Ssproxy.Isolation
import Ssproxy.Framing
import Ssproxy.Receivable
import Ssproxy.Flags
import Ssproxy.Marker
import Ssproxy.KeyMaterial
import Ssproxy.HostKeyFile
import Ssproxy.Session
import Ssproxy.Spin
import Ssproxy.Message
import Ssproxy.Failures
import Ssproxy.Flood
import Ssproxy.Lib.Relay
import Ssproxy.Pair.Talks
import Ssproxy.Pair.Carried
import Ssproxy.Pair.Joint
import Ssproxy.Pair.Handover
import Ssproxy.Pair.Coupled
import Ssproxy.Pair.Hops
import Ssproxy.Pair.Link
import Ssproxy.Pair.Sync
import Ssproxy.Pair.Ladder
import Ssproxy.Pair.Login
import Ssproxy.Lib.Trunk
import Ssproxy.Pair.Parcels
import Ssproxy.Pair.Strokes
import Ssproxy.Pair.Strides
import Ssproxy.Pair.Conserve
import Ssproxy.Pair.Silence
