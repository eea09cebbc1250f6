/-
  Ssproxy.Conn.State

  The state of one connection (`Connection` in `src/core/conn.rs`), field by
  field, and the history the statements about whole runs refer to.

  Three fields are not in the source.  `rng` is the operating system's random
  source, which the source calls as a global; `sendInstalls` and `recvInstalls`
  count how often a direction's key was replaced.  Nothing the source computes
  depends on the two counters or on the history.
-/

import Ssproxy.Config
import Ssproxy.Channel

namespace Ssproxy

open Lib

inductive Role where
  | server | client
  deriving DecidableEq, Repr

inductive Event where
  | handshakeComplete (user : String)
  | openDirectTcpIp (localId : UInt32) (host : String) (port : UInt32)
  | openSession (localId : UInt32)
  | channelOpenConfirmation (localId : UInt32)
  | channelOpenFailure (localId reason : UInt32) (message : String)
  | channelData (localId : UInt32)
  | channelEof (localId : UInt32)
  | channelClose (localId : UInt32)
  | disconnect (reason : UInt32) (message : String)
  deriving DecidableEq, Repr

structure PendingKeys where
  send : DirectionKeys
  recv : DirectionKeys
  deriving DecidableEq

structure KexState where
  ours : KexInit
  theirs : Option KexInit
  secret : Option (Block 32)
  localPub : Option (Block 32)
  cipherC2s : Option CipherKind
  cipherS2c : Option CipherKind
  deriving DecidableEq

/-- A source of random bytes and how many were drawn from it. -/
structure Rng where
  source : Nat → UInt8
  drawn : Nat

namespace Rng

/-- The next `n` bytes. -/
def next (r : Rng) (n : Nat) : Block n :=
  ⟨(List.range n).map fun i => r.source (r.drawn + i), by simp⟩

def skip (r : Rng) (n : Nat) : Rng := { r with drawn := r.drawn + n }

end Rng

structure Connection where
  role : Role
  server : Option ServerConfig
  client : Option ClientConfig
  identLocal : String
  identPeer : Option String
  identAcc : Bytes
  identInDone : Bool
  identOut : Option Bytes
  readBuf : Bytes
  sendSeq : UInt32
  recvSeq : UInt32
  sendCipher : DirectionKeys
  recvCipher : DirectionKeys
  bytesIo : Nat
  packetsIo : UInt32
  strictKex : Bool
  peerExtInfo : Bool
  sessionId : Option Bytes
  lastH : Option Bytes
  peerKs : Option Bytes
  kex : Option KexState
  pendingKeys : Option PendingKeys
  sentKexinit : Bool
  sentNewkeys : Bool
  recvNewkeys : Bool
  writeQ : List Bytes
  currentOut : Option Bytes
  currentIsIdent : Bool
  writeBytes : Nat
  writeSoft : Nat
  writeHard : Nat
  rekeyAfterBytes : Nat
  rekeyAfterPackets : UInt32
  channels : ChannelTable
  window : UInt32
  maxPacket : UInt32
  events : List Event
  authFails : UInt32
  user : Option String
  authed : Bool
  closed : Bool
  kexBlocksApp : Bool
  firstKexDone : Bool
  rr : UInt32
  rng : Rng
  sendInstalls : Nat
  recvInstalls : Nat

/-- `Connection::new`. -/
def Connection.new (role : Role) (ident : String) (writeSoft writeHard rekeyAfterBytes : Nat)
    (rekeyAfterPackets maxChannels window maxPacket : UInt32) (rng : Rng) : Connection where
  role := role
  server := none
  client := none
  identLocal := ident
  identPeer := none
  identAcc := []
  identInDone := false
  identOut := none
  readBuf := []
  sendSeq := 0
  recvSeq := 0
  sendCipher := .clear
  recvCipher := .clear
  bytesIo := 0
  packetsIo := 0
  strictKex := false
  peerExtInfo := false
  sessionId := none
  lastH := none
  peerKs := none
  kex := none
  pendingKeys := none
  sentKexinit := false
  sentNewkeys := false
  recvNewkeys := false
  writeQ := []
  currentOut := none
  currentIsIdent := false
  writeBytes := 0
  writeSoft := writeSoft
  writeHard := writeHard
  rekeyAfterBytes := rekeyAfterBytes
  rekeyAfterPackets := rekeyAfterPackets
  channels := .new maxChannels
  window := window
  maxPacket := maxPacket
  events := []
  authFails := 0
  user := none
  authed := false
  closed := false
  kexBlocksApp := false
  firstKexDone := false
  rr := 0
  rng := rng
  sendInstalls := 0
  recvInstalls := 0

-- ============================================================================
-- The history
-- ============================================================================

/-- What the history of a connection records.  `before` is the state just
    before: before the packet was sealed, before the opening of a packet began,
    before the flag was set, before the call. -/
inductive Obs where
  /-- `queue_msg` sealed `payload` into `wire`, on behalf of channel `owner`. -/
  | queued (before : Connection) (owner : Option UInt32) (payload wire : Bytes)
  /-- `try_one_packet` handed `payload` to `handle_payload`. -/
  | handled (before : Connection) (payload : Bytes)
  /-- An event entered the event queue. -/
  | emitted (ev : Event)
  /-- `on_userauth_request` evaluated `check_password`. -/
  | passwordChecked (user password : String) (ok : Bool)
  /-- `authed` was set. -/
  | authenticated (before : Connection)
  /-- A key exchange completed. -/
  | kexCompleted (before : Connection)
  /-- A slot of the channel table was filled. -/
  | opened (id : UInt32)
  /-- A live slot of the channel table was emptied. -/
  | freed (id : UInt32)
  /-- `send_eof` (or `send_close`, if `close`) ended the stream of a channel. -/
  | ended (before : Connection) (id : UInt32) (close : Bool)
  /-- A call of `send_data` with `data` returned `Ok(n)`. -/
  | accepted (before : Connection) (id : UInt32) (data : Bytes) (n : Nat)

/-- A connection with its history. -/
abbrev Conn := Traced Connection Obs

/-- The methods of `Connection`. -/
abbrev ConnM (α : Type) := Proc Conn Error α

namespace Connection

open Traced (read update observe)

/-- `OsRng.fill_bytes` of `n` bytes. -/
def fillBytes (n : Nat) : ConnM (Block n) := do
  let c ← read
  update fun c => { c with rng := c.rng.skip n }
  return c.rng.next n

/-- `self.channels.get(id)?`, and the read side of `get_mut`. -/
def getChannel (id : UInt32) : ConnM Channel := do
  let c ← read
  Proc.ofExcept (c.channels.get id)

/-- The write side of `self.channels.get_mut(id)`. -/
def setChannel (id : UInt32) (ch : Channel) : ConnM Unit :=
  update fun c => { c with channels := c.channels.set id ch }

/-- `self.channels.alloc(ch)?`. -/
def allocChannel (ch : Channel) : ConnM UInt32 := do
  let id ← Proc.focus (fun c : Conn => c.now.channels)
    (fun t c => { c with now := { c.now with channels := t } }) (ChannelTable.alloc ch)
  observe (.opened id)
  return id

/-- `self.channels.free(id)`. -/
def freeChannel (id : UInt32) : ConnM Unit := do
  let c ← read
  match c.channels.get? id with
  | some _ => do
      update fun c => { c with channels := c.channels.release id }
      observe (.freed id)
  | none => return ()

/-- `self.events.push_back(ev)`. -/
def pushEvent (ev : Event) : ConnM Unit := do
  update fun c => { c with events := c.events ++ [ev] }
  observe (.emitted ev)

end Connection

end Ssproxy
