/-
  Ssproxy.Machine.Moves

  A connection as a transition system.  Every call is a sequence of moves:

  - `Step`: what the connection does on its own, or for one call of its
    application;
  - `Handles`: one packet opened and handled, up to the point where only
    `Step`s follow;
  - `Faults`: what a call of `process_in` that returns an error may do besides.

  The moves keep the guards of the source that a later argument rests on.  The
  branches of the key-exchange handlers that no run reaches are absent; that
  the functions make these moves only is shown in `Ssproxy.Refine`.
-/

import Ssproxy.Machine.Effects
import Mathlib.Logic.Relation

namespace Ssproxy

open Lib Wire Connection

variable [CryptoLib]

/-- The connection with channel `id` replaced. -/
def withChannel (c : Conn) (id : UInt32) (ch : Channel) : Conn :=
  ⟨c.now.putChannel id ch, c.log⟩

/-- The connection with `ev` in its event queue. -/
def withEvent (c : Conn) (ev : Event) : Conn :=
  ⟨c.now.pushed ev, c.log ++ [.emitted ev]⟩

/-- The connection with channel `id` freed, if there is one. -/
def withoutChannel (c : Conn) (id : UInt32) : Conn :=
  ⟨c.now.dropChannel id, c.log ++ (if (c.now.channels.get? id).isSome then [.freed id] else [])⟩

/-- A free slot was filled with `ch`. -/
inductive Allocates (ch : Channel) (c : Conn) : UInt32 → Conn → Prop where
  | mk {id : UInt32} {t : ChannelTable} (ht : ChannelTable.alloc ch c.now.channels = .ok id t) :
      Allocates ch c id ⟨{ c.now with channels := t }, c.log ++ [.opened id]⟩

-- ============================================================================
-- Data on its way out
-- ============================================================================

/-- The rounds of `send_data` on channel `id`, with the chunk of each. -/
inductive SendsData (id : UInt32) : Conn → List Bytes → Conn → Prop where
  | done (c : Conn) : SendsData id c [] c
  | defer {c c' : Conn} {ch : Channel} {chunk : Bytes} {chunks : List Bytes}
      (hch : c.now.channels.get? id = some ch) (hne : chunk ≠ [])
      (hallow : chunk.length ≤ c.now.outboundAllowance id)
      (hgate : c.now.kexBlocksApp = true ∨ ch.remoteId = none)
      (htail : SendsData id (withChannel c id
        { ch with
          pendingOutBytes := ch.pendingOutBytes + chunk.length
          pendingOut := ch.pendingOut ++ [chunk] }) chunks c') :
      SendsData id c (chunk :: chunks) c'
  | wire {c c1 c' : Conn} {ch : Channel} {r : UInt32} {chunk : Bytes} {chunks : List Bytes}
      (hch : c.now.channels.get? id = some ch) (hne : chunk ≠ [])
      (hallow : chunk.length ≤ c.now.outboundAllowance id)
      (hgate : c.now.kexBlocksApp = false) (hr : ch.remoteId = some r)
      (hq : Queues (some id) (Msg.channelData r chunk) (withChannel c id
        { ch with sendWindow := ch.sendWindow - UInt32.ofNat chunk.length }) c1)
      (htail : SendsData id c1 chunks c') :
      SendsData id c (chunk :: chunks) c'

/-- The channel after `consume_inbound` used up to `m` bytes of `front`. -/
def consumed (ch : Channel) (front : Bytes) (queue : List Bytes) (m : Nat) : Channel :=
  { ch with
    inQ := if min m front.length = front.length then queue
      else front.drop (min m front.length) :: queue
    inQBytes := ch.inQBytes - min m front.length }

/-- `flush_pending` may send from channel `ch`, whose remote id is `r`. -/
structure CanFlush (c : Connection) (ch : Channel) (r : UInt32) : Prop where
  gate : c.kexBlocksApp = false
  confirmed : ch.openConfirmed = true
  live : ch.sentEof = false
  remote : ch.remoteId = some r
  window : ch.sendWindow ≠ 0
  room : c.queuedWriteBytes < c.writeSoft

/-- How much of `front` one round of `flush_pending` sends. -/
def flushTake (ch : Channel) (front : Bytes) : Nat :=
  min (min front.length ch.maxRemotePacket.toNat) ch.sendWindow.toNat

/-- The channel after a round of `flush_pending` took `front.take n`. -/
def flushed (ch : Channel) (front : Bytes) (queue : List Bytes) (n : Nat) : Channel :=
  { ch with
    pendingOut := if n ≥ front.length then queue else front.drop n :: queue
    pendingOutBytes := ch.pendingOutBytes - (front.take n).length
    sendWindow := ch.sendWindow - UInt32.ofNat (front.take n).length }

-- ============================================================================
-- Steps of the connection and its application
-- ============================================================================

/-- What makes a connection take a step. -/
inductive Cause where
  /-- The connection itself. -/
  | own
  /-- `maybe_adjust`, which runs after `consume_inbound` and after a rekey. -/
  | adjust (id : UInt32)
  /-- A call of the application. -/
  | call (call : Call)

/-- The application has no part in it. -/
def Cause.Inner : Cause → Prop
  | call _ => False
  | _ => True

/-- One step. -/
inductive Step : Cause → Conn → Conn → Prop where
  /-- `pull_current_out`. -/
  | pull (c : Conn) : Step .own c ⟨c.now.pullCurrentOut, c.log⟩
  /-- `consume_out`: the socket took bytes of the current packet. -/
  | drain {c : Conn} {b : Bytes} {m : Nat} (hb : c.now.pullCurrentOut.currentOut = some b)
      (hm : m ≠ 0) :
      Step (.call (.consumeOut m)) c ⟨c.now.pullCurrentOut.drained b (min m b.length), c.log⟩
  | popEvent (c : Conn) :
      Step (.call .popEvent) c ⟨{ c.now with events := c.now.events.tail }, c.log⟩
  | roundRobin (c : Conn) :
      Step (.call .roundRobinIds) c ⟨{ c.now with rr := c.now.rr + 1 }, c.log⟩
  | draw {c c' : Conn} (h : Draws c c') : Step .own c c'
  /-- The counters are reset after the flush that follows a rekey. -/
  | tick (c : Conn) : Step .own c ⟨{ c.now with bytesIo := 0, packetsIo := 0 }, c.log⟩
  | startKex {c c' : Conn} (hk : c.now.kex = none) (hs : c.now.sentKexinit = false)
      (h : Starts c c') : Step .own c c'
  | hangUp {c c' : Conn} {reason : UInt32} {msg : String} (h : HangsUp reason msg c c') :
      Step .own c c'
  /-- `consume_inbound`: bytes of the front chunk were used. -/
  | consume {c : Conn} {id : UInt32} {ch : Channel} {front : Bytes} {queue : List Bytes} {m : Nat}
      (hch : c.now.channels.get? id = some ch) (hq : ch.inQ = front :: queue) :
      Step (.call (.consumeInbound id m)) c (withChannel c id (consumed ch front queue m))
  /-- `maybe_adjust` on a channel without a remote id grants to nobody. -/
  | grantSilent {c : Conn} {id : UInt32} {ch : Channel} {add : UInt32}
      (hgate : c.now.kexBlocksApp = false) (hch : c.now.channels.get? id = some ch)
      (hadd : ch.windowAdjustAmount () = .ok add ()) (hpos : add ≠ 0) (hr : ch.remoteId = none) :
      Step (.adjust id) c (withChannel c id { ch with recvWindow := ch.recvWindow + add })
  | grant {c c' : Conn} {id : UInt32} {ch : Channel} {add r : UInt32}
      (hgate : c.now.kexBlocksApp = false) (hch : c.now.channels.get? id = some ch)
      (hadd : ch.windowAdjustAmount () = .ok add ()) (hpos : add ≠ 0) (hr : ch.remoteId = some r)
      (hq : Queues (some id) (Msg.windowAdjust r add)
        (withChannel c id { ch with recvWindow := ch.recvWindow + add }) c') :
      Step (.adjust id) c c'
  | sendData {c c' : Conn} {id : UInt32} {data : Bytes} {chunks : List Bytes} {n : Nat}
      (h : SendsData id c chunks c') (hn : n ≤ data.length)
      (hdata : chunks.flatten = data.take n) :
      Step (.call (.sendData id data)) c ⟨c'.now, c'.log ++ [.accepted c.now id data n]⟩
  /-- `send_data` failed: the backlog is above the hard limit and below the
      soft one.  The chunk is lost. -/
  | sendLost {c c1 : Conn} {id : UInt32} {ch : Channel} {chunks : List Bytes} {n : Nat} {r : UInt32}
      {rng : Rng} {data : Bytes} (h : SendsData id c chunks c1)
      (hch : c1.now.channels.get? id = some ch)
      (hgate : c1.now.kexBlocksApp = false) (hr : ch.remoteId = some r)
      (hsoft : c1.now.writeBytes < c1.now.writeSoft) (hhard : c1.now.writeHard ≤ c1.now.writeBytes)
      (hn : n ≤ ch.sendWindow.toNat) :
      Step (.call (.sendData id data)) c (withChannel ⟨{ c1.now with rng := rng }, c1.log⟩ id
        { ch with sendWindow := ch.sendWindow - UInt32.ofNat n })
  | flush {c c' : Conn} {id : UInt32} {ch : Channel} {r : UInt32} {front : Bytes}
      {queue : List Bytes} (hch : c.now.channels.get? id = some ch) (hcan : CanFlush c.now ch r)
      (hp : ch.pendingOut = front :: queue) (hne : front ≠ [])
      (hq : Queues (some id) (Msg.channelData r (front.take (flushTake ch front)))
        (withChannel c id (flushed ch front queue (flushTake ch front))) c') :
      Step .own c c'
  /-- `flush_pending` failed on the backlog.  The chunk is lost. -/
  | flushLost {c : Conn} {id : UInt32} {ch : Channel} {r : UInt32} {front : Bytes}
      {queue : List Bytes} {rng : Rng} (hch : c.now.channels.get? id = some ch)
      (hcan : CanFlush c.now ch r) (hp : ch.pendingOut = front :: queue) (hne : front ≠ [])
      (hhard : c.now.writeHard ≤ c.now.writeBytes) :
      Step .own c (withChannel ⟨{ c.now with rng := rng }, c.log⟩ id
        (flushed ch front queue (flushTake ch front)))
  | askEof {c : Conn} {id : UInt32} {ch : Channel} (hch : c.now.channels.get? id = some ch)
      (he : ch.sentEof = false) (hc : ch.sentClose = false) :
      Step (.call (.sendEof id)) c
        ⟨(c.now.putChannel id { ch with sentEof := true }), c.log ++ [.ended c.now id false]⟩
  /-- `send_close` while the gate is closed. -/
  | askClose {c : Conn} {id : UInt32} {ch : Channel} (hgate : c.now.kexBlocksApp = true)
      (hch : c.now.channels.get? id = some ch) (hc : ch.sentClose = false) :
      Step .own c ⟨c.now.putChannel id { ch with sentClose := true, sentEof := true },
        c.log ++ [.ended c.now id true]⟩
  /-- `send_close` on a channel whose CLOSE is out. -/
  | closeAgain {c : Conn} {id : UInt32} {ch : Channel} (hch : c.now.channels.get? id = some ch)
      (hc : ch.sentClose = false) (hw : ch.wireClose = true) :
      Step .own c ⟨c.now.putChannel id { ch with sentClose := true, sentEof := true },
        c.log ++ [.ended c.now id true]⟩
  | closeSilent {c : Conn} {id : UInt32} {ch : Channel} (hgate : c.now.kexBlocksApp = false)
      (hch : c.now.channels.get? id = some ch) (hc : ch.sentClose = false)
      (hw : ch.wireClose = false) (hr : ch.remoteId = none) :
      Step .own c ⟨c.now.putChannel id
          { ch with sentClose := true, sentEof := true, wireClose := true, wireEof := true },
        c.log ++ [.ended c.now id true]⟩
  /-- `send_close` while the gate is open: the CLOSE goes out at once, without
      an EOF. -/
  | closeNow {c c' : Conn} {id : UInt32} {ch : Channel} {r : UInt32}
      (hgate : c.now.kexBlocksApp = false) (hch : c.now.channels.get? id = some ch)
      (hc : ch.sentClose = false) (hw : ch.wireClose = false) (hr : ch.remoteId = some r)
      (hq : Queues (some id) (Msg.channelClose r)
        ⟨c.now.putChannel id
            { ch with sentClose := true, sentEof := true, wireClose := true, wireEof := true },
          c.log ++ [.ended c.now id true]⟩ c') :
      Step .own c c'
  | emitEofSilent {c : Conn} {id : UInt32} {ch : Channel} (hgate : c.now.kexBlocksApp = false)
      (hch : c.now.channels.get? id = some ch) (he : ch.sentEof = true) (hw : ch.wireEof = false)
      (hr : ch.remoteId = none) :
      Step .own c (withChannel c id { ch with wireEof := true })
  | emitEof {c c' : Conn} {id : UInt32} {ch : Channel} {r : UInt32}
      (hgate : c.now.kexBlocksApp = false) (hch : c.now.channels.get? id = some ch)
      (he : ch.sentEof = true) (hw : ch.wireEof = false) (hr : ch.remoteId = some r)
      (hq : Queues (some id) (Msg.channelEof r) (withChannel c id { ch with wireEof := true }) c') :
      Step .own c c'
  | emitCloseSilent {c : Conn} {id : UInt32} {ch : Channel} (hgate : c.now.kexBlocksApp = false)
      (hch : c.now.channels.get? id = some ch) (hc : ch.sentClose = true)
      (hw : ch.wireClose = false) (hr : ch.remoteId = none) :
      Step .own c (withChannel c id { ch with wireClose := true, wireEof := true })
  | emitClose {c c' : Conn} {id : UInt32} {ch : Channel} {r : UInt32}
      (hgate : c.now.kexBlocksApp = false) (hch : c.now.channels.get? id = some ch)
      (hc : ch.sentClose = true) (hw : ch.wireClose = false) (hr : ch.remoteId = some r)
      (hq : Queues (some id) (Msg.channelClose r)
        (withChannel c id { ch with wireClose := true, wireEof := true }) c') :
      Step .own c c'
  /-- A channel closed on both sides is freed. -/
  | freeClosed {c : Conn} {id : UInt32} {ch : Channel} (hch : c.now.channels.get? id = some ch)
      (hg : ch.gotClose = true) (hw : ch.wireClose = true) :
      Step .own c (withoutChannel c id)
  | closeEvent (c : Conn) (id : UInt32) : Step .own c (withEvent c (.channelClose id))
  /-- `confirm_open` on a channel without a remote id. -/
  | confirmSilent {c : Conn} {id : UInt32} {ch : Channel}
      (hch : c.now.channels.get? id = some ch) (hr : ch.remoteId = none) :
      Step (.call (.confirmOpen id)) c (withChannel c id { ch with openConfirmed := true })
  | confirm {c c' : Conn} {id : UInt32} {ch : Channel} {r : UInt32}
      (hch : c.now.channels.get? id = some ch) (hr : ch.remoteId = some r)
      (hq : Queues (some id) (Msg.openConfirmation r id ch.recvMax ch.maxLocalPacket)
        (withChannel c id { ch with openConfirmed := true }) c') :
      Step (.call (.confirmOpen id)) c c'
  | failOpen {c c' : Conn} {id : UInt32} {ch : Channel} {r reason : UInt32} {msg : String}
      (hch : c.now.channels.get? id = some ch) (hr : ch.remoteId = some r)
      (hs : Sends (some id) (Msg.openFailure r reason msg) (withoutChannel c id) c') :
      Step (.call (.failOpen id reason msg)) c c'
  | openLocal {c c1 c' : Conn} {id : UInt32} {host : String} {port : UInt32}
      (hrole : c.now.role = .client) (hauth : c.now.authed = true)
      (ha : Allocates { Channel.new 0 .directTcpIp c.now.window c.now.maxPacket 0 0 with
        host := some host, port := port } c id c1)
      (hs : Sends (some id) (Msg.channelOpen id c.now.window c.now.maxPacket host port) c1 c') :
      Step (.call (.openDirectTcpip host port)) c c'

-- ============================================================================
-- Handling a packet
-- ============================================================================

/-- Messages that are accepted and have no effect. -/
inductive Ignores (c : Connection) (payload : Bytes) : Prop where
  | passive {m : MsgType} (hm : IsMsg m payload)
      (hmem : m ∈ [MsgType.ignore, .debug, .unimplemented, .extInfo, .userauthBanner,
        .globalRequest, .requestSuccess, .requestFailure, .channelRequest, .channelSuccess,
        .channelFailure, .pong])
  | notServer {m : MsgType} (hr : c.role = .client) (hm : IsMsg m payload)
      (hmem : m = .serviceRequest ∨ m = .userauthRequest)
  | notClient (hr : c.role = .server) (hm : IsMsg .serviceAccept payload)
  | closeUnknown {id : UInt32} (hm : MsgType.channelClose.code :: putU32 id <+: payload)
      (hch : c.channels.get? id = none)

/-- The `want_reply` field of a GLOBAL_REQUEST, as `on_global_request` reads it. -/
def globalWants (payload : Bytes) : Bool :=
  ((do
    let (_, p) ← Proc.call Parser.u8 (.new payload)
    let (_, p) ← Proc.callOr "" Parser.str p
    let (want, _) ← Proc.callOr false Parser.bool p
    return want : Proc Unit Error Bool) ()).value?.getD false

/-- The `want_reply` field of a CHANNEL_REQUEST, as `on_channel_request` reads it. -/
def requestWants (payload : Bytes) : Bool :=
  ((do
    let (_, p) ← Proc.call Parser.u8 (.new payload)
    let (_, p) ← Proc.call Parser.u32 p
    let (_, p) ← Proc.callOr "" Parser.str p
    let (want, _) ← Proc.callOr false Parser.bool p
    return want : Proc Unit Error Bool) ()).value?.getD false

/-- Messages that are answered by one message, on behalf of a channel or not. -/
inductive Answers (c : Connection) (payload : Bytes) : Option UInt32 → Bytes → Prop where
  | service {name : String} (hr : c.role = .server)
      (hm : MsgType.serviceRequest.code :: putStr name <+: payload)
      (hn : name = "ssh-userauth" ∨ name = "ssh-connection") :
      Answers c payload none (Msg.serviceAccept name)
  | credentials {cfg : ClientConfig} (hr : c.role = .client) (hc : c.client = some cfg)
      (hm : IsMsg .serviceAccept payload) :
      Answers c payload none (Msg.passwordRequest cfg.username cfg.password)
  | global {m : MsgType} (hm : IsMsg .globalRequest payload) (hw : globalWants payload = true)
      (hr : m = .requestSuccess ∨ m = .requestFailure) : Answers c payload none [m.code]
  | unknownType {typ : String} {remote : UInt32} (ha : c.authed = true)
      (hm : MsgType.channelOpen.code :: (putStr typ ++ putU32 remote) <+: payload)
      (ht : typ ≠ "session" ∧ typ ≠ "direct-tcpip")
      (hrest : ∃ w m, MsgType.channelOpen.code ::
        (putStr typ ++ putU32 remote ++ putU32 w ++ putU32 m) <+: payload) :
      Answers c payload none
        (Msg.openFailure remote sshOpenUnknownChannelType "unknown channel type")
  | request {id r : UInt32} {ch : Channel} {m : MsgType}
      (hm : MsgType.channelRequest.code :: putU32 id <+: payload)
      (hw : requestWants payload = true)
      (hch : c.channels.get? id = some ch) (hr : ch.remoteId = some r)
      (ht : m = .channelSuccess ∨ m = .channelFailure) :
      Answers c payload (some id) (m.code :: putU32 r)
  | ping {data : Bytes} (hm : IsMsg .ping payload) :
      Answers c payload none (MsgType.pong.code :: putBytes data)
  | unknown {t : UInt8} (hm : payload.head? = some t) (ht : MsgType.ofCode t = none) :
      Answers c payload none (MsgType.unimplemented.code :: putU32 (c.recvSeq - 1))

/-- A USERAUTH_REQUEST that is refused without a look at a password: it names
    another method, or asks for a change of the password. -/
inductive Unchecked (payload : Bytes) : Prop where
  | method {user method : String} (hne : method ≠ "password")
      (hm : MsgType.userauthRequest.code ::
        (putStr user ++ putStr "ssh-connection" ++ putStr method) <+: payload)
  | change {user : String} {b : UInt8} (hb : b ≠ 0)
      (hm : MsgType.userauthRequest.code ::
        (putStr user ++ putStr "ssh-connection" ++ putStr "password" ++ [b]) <+: payload)

omit [CryptoLib] in
theorem Unchecked.isMsg {payload : Bytes} (h : Unchecked payload) :
    IsMsg .userauthRequest payload := by
  cases h with
  | method hne hm => exact IsMsg.of_prefix hm
  | change hb hm => exact IsMsg.of_prefix hm

/-- The names the peer's KEXINIT settles, all of them found. -/
structure Negotiates (theirs : KexInit) (c2s s2c : String) : Prop where
  c2s : negotiate serverCiphers theirs.encC2s false = some c2s
  s2c : negotiate serverCiphers theirs.encS2c false = some s2c
  hostKey : negotiate serverHostKey theirs.hostKey false = some "ssh-ed25519"
  kex : (negotiate ["curve25519-sha256", "curve25519-sha256@libssh.org"] theirs.kex true).isSome = true
  comp : (negotiate serverComp theirs.compC2s false).isSome = true

/-- The channel a peer asks to open. -/
def peerChannel (c : Connection) (kind : ChannelKind) (remote w m : UInt32)
    (host : Option String) (port : UInt32) : Channel :=
  { Channel.new 0 kind c.window c.maxPacket w m with
    remoteId := some remote, host := host, port := port }

/-- The key exchange is running, or was started for this message. -/
inductive Joins (c : Conn) : Conn → Prop where
  | running {k : KexState} (hk : c.now.kex = some k) : Joins c c
  | started {c' : Conn} (hk : c.now.kex = none) (h : Starts c c') : Joins c c'

/-- One packet opened and handled. -/
inductive Handles (p : Bytes) (c : Conn) : Conn → Prop where
  | skip {c1 : Conn} (hr : Receives p c c1) (h : Ignores c1.now p) : Handles p c c1
  | answer {c1 c' : Conn} {owner : Option UInt32} {reply : Bytes} (hr : Receives p c c1)
      (h : Answers c1.now p owner reply) (hq : Queues owner reply c1 c') : Handles p c c'
  -- key exchange
  | kexinitServer {c1 c2 : Conn} {q : Parser} {theirs : KexInit} {k : KexState} {c2s s2c : String}
      (hr : Receives p c c1) (hm : IsMsg .kexinit p) (hrole : c1.now.role = .server)
      (hp : KexInit.parseBody p (.new p) = .ok theirs q) (hj : Joins c1 c2)
      (hk : c2.now.kex = some k) (hn : Negotiates theirs c2s s2c) :
      Handles p c ⟨c2.now.recorded k theirs c2s s2c, c2.log⟩
  | kexinitClient {c1 c2 c' : Conn} {q : Parser} {theirs : KexInit} {k : KexState}
      {c2s s2c : String} {pub : Block 32}
      (hr : Receives p c c1) (hm : IsMsg .kexinit p) (hrole : c1.now.role = .client)
      (hp : KexInit.parseBody p (.new p) = .ok theirs q) (hj : Joins c1 c2)
      (hk : c2.now.kex = some k) (hn : Negotiates theirs c2s s2c) (hpub : k.localPub = some pub)
      (hq : Queues none (Msg.ecdhInit pub) ⟨c2.now.recorded k theirs c2s s2c, c2.log⟩ c') :
      Handles p c c'
  | ecdhInit {c1 c2 c' : Conn} {x : Exchange} {cfg : ServerConfig} {qC : Block 32}
      (hr : Receives p c c1) (hrole : c1.now.role = .server)
      (hm : Msg.ecdhInit qC <+: p) (hcfg : c1.now.server = some cfg)
      (hx : c1.now.InExchange x)
      (hz : isZero (CryptoLib.x25519 (c1.now.rng.next 32) qC).val = false)
      (hq : Queues none
        (Msg.ecdhReply cfg.hostKey.publicBlob (CryptoLib.x25519Base (c1.now.rng.next 32))
          (cfg.hostKey.sign (c1.now.exchangeHash x cfg.hostKey.publicBlob qC
            (CryptoLib.x25519Base (c1.now.rng.next 32))
            (CryptoLib.x25519 (c1.now.rng.next 32) qC))))
        ⟨({ c1.now with
            rng := c1.now.rng.skip 32
            peerKs := some cfg.hostKey.publicBlob } : Connection).finished x
            cfg.hostKey.publicBlob qC (CryptoLib.x25519Base (c1.now.rng.next 32))
            (CryptoLib.x25519 (c1.now.rng.next 32) qC), c1.log⟩ c2)
      {pk : PendingKeys} (hs : Switches pk c2 c') :
      Handles p c c'
  | ecdhReply {c1 c' : Conn} {x : Exchange} {ks sig : Bytes} {qS pub secret : Block 32}
      (hr : Receives p c c1) (hrole : c1.now.role = .client)
      (hm : Msg.ecdhReply ks qS sig <+: p)
      (hpub : x.kex.localPub = some pub) (hsec : x.kex.secret = some secret)
      (hx : c1.now.InExchange x)
      (hks : ks.length < 2 ^ 32) (hsig : sig.length < 2 ^ 32)
      (hz : isZero (CryptoLib.x25519 secret qS).val = false)
      {pk : PendingKeys}
      (hs : Switches pk
        ⟨({ c1.now with
            kex := some { x.kex with secret := none }
            peerKs := some ks } : Connection).finished x ks pub qS
            (CryptoLib.x25519 secret qS), c1.log⟩ c') :
      Handles p c c'
  | newkeysFirst {c1 c' : Conn} {pk : PendingKeys}
      (hr : Receives p c c1) (hm : IsMsg .newkeys p) (hpk : c1.now.pendingKeys = some pk)
      (hf : c1.now.firstKexDone = false)
      (hg : Greets ⟨{ (c1.now.installRecv pk).completed with firstKexDone := true },
        c1.log ++ [.kexCompleted (c1.now.installRecv pk)]⟩ c') :
      Handles p c c'
  | newkeysAgain {c1 : Conn} {pk : PendingKeys}
      (hr : Receives p c c1) (hm : IsMsg .newkeys p) (hpk : c1.now.pendingKeys = some pk)
      (hf : c1.now.firstKexDone = true) :
      Handles p c ⟨{ (c1.now.installRecv pk).completed with kexBlocksApp := false },
        c1.log ++ [.kexCompleted (c1.now.installRecv pk)]⟩
  -- authentication
  | userauthSuccess {c1 : Conn} {user : String} (hr : Receives p c c1)
      (hm : IsMsg .userauthSuccess p) :
      Handles p c (withEvent ⟨c1.now.login user, c1.log ++ [.authenticated c1.now]⟩
        (.handshakeComplete user))
  | authAccept {c1 c2 : Conn} {cfg : ServerConfig} {user password : String}
      (hr : Receives p c c1) (hrole : c1.now.role = .server) (hcfg : c1.now.server = some cfg)
      (hm : Msg.passwordRequest user password <+: p)
      (hok : cfg.checkPassword user password = true)
      (hq : Queues none Msg.userauthSuccess
        ⟨c1.now.login user,
          c1.log ++ [.passwordChecked user password true] ++ [.authenticated c1.now]⟩ c2) :
      Handles p c (withEvent c2 (.handshakeComplete user))
  | authReject {c1 c' : Conn} {cfg : ServerConfig} {user password : String}
      (hr : Receives p c c1) (hrole : c1.now.role = .server) (hcfg : c1.now.server = some cfg)
      (hm : Msg.passwordRequest user password <+: p)
      (hbad : cfg.checkPassword user password = false)
      (hd : Denies cfg ⟨{ c1.now with authFails := c1.now.authFails + 1 },
        c1.log ++ [.passwordChecked user password false]⟩ c') :
      Handles p c c'
  | authOther {c1 c' : Conn} {cfg : ServerConfig}
      (hr : Receives p c c1) (hrole : c1.now.role = .server) (hcfg : c1.now.server = some cfg)
      (hm : IsMsg .userauthRequest p) (hd : Denies cfg c1 c') (ho : Unchecked p) :
      Handles p c c'
  | disconnect {c1 : Conn} {reason : UInt32} {msg : String} (hr : Receives p c c1)
      (hm : IsMsg .disconnect p) :
      Handles p c (withEvent ⟨{ c1.now with closed := true }, c1.log⟩ (.disconnect reason msg))
  -- channels
  | openSession {c1 c2 : Conn} {id remote w m : UInt32} (hr : Receives p c c1)
      (hm : MsgType.channelOpen.code ::
        (putStr "session" ++ putU32 remote ++ putU32 w ++ putU32 m) <+: p) (hauth : c1.now.authed = true)
      (ha : Allocates (peerChannel c1.now .session remote w m none 0) c1 id c2) :
      Handles p c (withEvent c2 (.openSession id))
  | openDirect {c1 c2 : Conn} {id remote w m port : UInt32} {host : String}
      (hr : Receives p c c1)
      (hm : MsgType.channelOpen.code :: (putStr "direct-tcpip" ++ putU32 remote ++ putU32 w
        ++ putU32 m ++ putStr host ++ putU32 port) <+: p) (hauth : c1.now.authed = true)
      (ha : Allocates (peerChannel c1.now .directTcpIp remote w m (some host) port) c1 id c2)
      (hrest : ∃ orig oport, MsgType.channelOpen.code :: (putStr "direct-tcpip" ++ putU32 remote
        ++ putU32 w ++ putU32 m ++ putStr host ++ putU32 port ++ putStr orig ++ putU32 oport) <+: p) :
      Handles p c (withEvent c2 (.openDirectTcpIp id host port))
  | openConfirm {c1 : Conn} {id remote w m : UInt32} {ch : Channel} (hr : Receives p c c1)
      (hm : MsgType.channelOpenConfirmation.code ::
        (putU32 id ++ putU32 remote ++ putU32 w ++ putU32 m) <+: p)
      (hch : c1.now.channels.get? id = some ch) :
      Handles p c (withEvent (withChannel c1 id
        { ch with
          remoteId := some remote
          sendWindow := w
          maxRemotePacket := m
          openConfirmed := true }) (.channelOpenConfirmation id))
  | openFail {c1 : Conn} {id reason : UInt32} {msg : String} (hr : Receives p c c1)
      (hm : MsgType.channelOpenFailure.code :: (putU32 id ++ putU32 reason) <+: p) :
      Handles p c (withEvent (withoutChannel c1 id) (.channelOpenFailure id reason msg))
  | windowAdjust {c1 : Conn} {id add : UInt32} {ch : Channel} (hr : Receives p c c1)
      (hm : Msg.windowAdjust id add <+: p) (hch : c1.now.channels.get? id = some ch) :
      Handles p c (withChannel c1 id
        { ch with sendWindow := saturatingAdd32 ch.sendWindow add })
  | deliver {c1 : Conn} {id : UInt32} {data : Bytes} {ch : Channel} (hr : Receives p c c1)
      (hm : Msg.channelData id data <+: p
        ∨ ∃ code, MsgType.channelExtendedData.code :: (putU32 id ++ putU32 code ++ putBytes data)
            <+: p)
      (hch : c1.now.channels.get? id = some ch)
      (hw : UInt32.ofNat data.length ≤ ch.recvWindow) :
      Handles p c (withEvent (withChannel c1 id
        { ch with
          recvWindow := ch.recvWindow - UInt32.ofNat data.length
          inQBytes := ch.inQBytes + data.length
          inQ := ch.inQ ++ [data] }) (.channelData id))
  | peerEof {c1 : Conn} {id : UInt32} {ch : Channel} (hr : Receives p c c1)
      (hm : Msg.channelEof id <+: p) (hch : c1.now.channels.get? id = some ch) :
      Handles p c (withEvent (withChannel c1 id { ch with gotEof := true }) (.channelEof id))
  | peerEofUnknown {c1 : Conn} {id : UInt32} (hr : Receives p c c1)
      (hm : Msg.channelEof id <+: p) (hch : c1.now.channels.get? id = none) :
      Handles p c (withEvent c1 (.channelEof id))
  /-- A CLOSE; our own follows if it was not sent yet. -/
  | peerClose {c1 : Conn} {id : UInt32} {ch : Channel} (hr : Receives p c c1)
      (hm : Msg.channelClose id <+: p) (hch : c1.now.channels.get? id = some ch) :
      Handles p c (withChannel c1 id { ch with gotClose := true, gotEof := true })

-- ============================================================================
-- Runs
-- ============================================================================

/-- The peer's ident line `s` is complete in `acc`, and `rest` follows it. -/
structure IdentLine (acc : Bytes) (s : String) (rest : Bytes) : Prop where
  line : ∃ pos, acc.findIdx? (· == 10) = some pos ∧ pos ≤ 254 ∧
    fromUtf8 (popIf 13 (popIf 10 (acc.take (pos + 1)))) = some s ∧ rest = acc.drop (pos + 1)

/-- The moves of calls that do not fail. -/
inductive Quiet : Conn → Conn → Prop where
  | step {c c' : Conn} (h : Step .own c c') : Quiet c c'
  | handle {c c' : Conn} {p : Bytes} (h : Handles p c c') : Quiet c c'
  | identWait {c : Conn} (h : c.now.identInDone = false)
      (hno : (c.now.identAcc ++ c.now.readBuf).findIdx? (· == 10) = none) :
      Quiet c ⟨{ c.now with identAcc := c.now.identAcc ++ c.now.readBuf, readBuf := [] }, c.log⟩
  | identDone {c : Conn} {s : String} {rest : Bytes} (h : c.now.identInDone = false)
      (hs : IdentLine (c.now.identAcc ++ c.now.readBuf) s rest) :
      Quiet c ⟨{ c.now with
        identAcc := [], readBuf := rest, identPeer := some s, identInDone := true }, c.log⟩

/-- The handler of `p` fails in this state. -/
def FailsOn (p : Bytes) (c : Conn) : Prop := ∃ e c', handlePayload p c = .err e c'

/-- What an error of `process_in` may leave behind. -/
inductive Faults : Conn → Conn → Prop where
  /-- The handler of `p` failed before it changed anything. -/
  | reject {c c' : Conn} {p : Bytes} (h : Receives p c c') (hf : FailsOn p c')
      (hid : c.now.identInDone = true) : Faults c c'
  /-- `on_ecdh_reply` failed after it took the secret. -/
  | spoil {c c1 : Conn} {p : Bytes} {ks : Option Bytes} {k : KexState} (h : Receives p c c1)
      (hm : ∃ ks qS sig, Msg.ecdhReply ks qS sig <+: p) (hrole : c1.now.role = .client)
      (hk : c1.now.kex = some k) (hsec : k.secret.isSome = true) (hf : FailsOn p c1)
      (hid : c.now.identInDone = true) :
      Faults c ⟨{ c1.now with
        kex := c1.now.kex.map fun k => { k with secret := none }, peerKs := ks }, c1.log⟩
  /-- A packet was taken and not handled. -/
  | drop {c : Conn} {cipher : DirectionKeys} {rest : Bytes} {seq packets : UInt32} {bytes : Nat}
      (hkind : cipher.kind = c.now.recvCipher.kind) :
      Faults c ⟨{ c.now with
        readBuf := rest, recvCipher := cipher, recvSeq := seq, bytesIo := bytes,
        packetsIo := packets }, c.log⟩
  | identBad {c : Conn} {acc : Bytes} (h : c.now.identInDone = false) :
      Faults c ⟨{ c.now with identAcc := acc, readBuf := [] }, c.log⟩

/-- Any move at all, the arrival of bytes included. -/
inductive Move : Conn → Conn → Prop where
  | quiet {c c' : Conn} (h : Quiet c c') : Move c c'
  | fault {c c' : Conn} (h : Faults c c') : Move c c'
  | recv (c : Conn) (bytes : Bytes) :
      Move c ⟨{ c.now with readBuf := c.now.readBuf ++ bytes }, c.log⟩
  | own {c c' : Conn} {k : Cause} (h : Step k c c') : Move c c'

/-- A move of a connection on which no call of `process_in` has failed. -/
inductive Calm : Conn → Conn → Prop where
  | quiet {c c' : Conn} (h : Quiet c c') : Calm c c'
  | recv (c : Conn) (bytes : Bytes) :
      Calm c ⟨{ c.now with readBuf := c.now.readBuf ++ bytes }, c.log⟩
  | own {c c' : Conn} {k : Cause} (h : Step k c c') : Calm c c'

/-- Sequences of steps the connection makes on its own. -/
abbrev Steps : Conn → Conn → Prop := Relation.ReflTransGen (Step .own)

/-- Sequences of steps whose causes satisfy `P`. -/
abbrev Trail (P : Cause → Prop) : Conn → Conn → Prop :=
  Relation.ReflTransGen fun c c' => ∃ k, P k ∧ Step k c c'

/-- A sequence of the connection's own steps that leaves the channels other than `id` alone. -/
abbrev StepsAt (id : UInt32) : Conn → Conn → Prop :=
  Relation.ReflTransGen fun c c' => Step .own c c' ∧
    ∀ j, j ≠ id → c'.now.channels.get? j = c.now.channels.get? j

/-- `maybe_adjust`: a grant, if there is one to make. -/
inductive Adjusts (id : UInt32) (c : Conn) : Conn → Prop where
  | none : Adjusts id c c
  | grant {c' : Conn} (h : Step (.adjust id) c c') : Adjusts id c c'

/-- A call of the application other than `process_in`: its own step, if it makes
    one, and what the connection does after it. -/
inductive Called (call : Call) (c c' : Conn) : Prop where
  | own {c1 : Conn} (h : Step (.call call) c c1) (hs : Steps c1 c')
  | consume {c1 : Conn} {id : UInt32} {m : Nat} (hcall : call = .consumeInbound id m)
      (h : Step (.call call) c c1) (ha : Adjusts id c1 c')
  | other (hs : Steps c c')

/-- `flush_post_rekey`: channel by channel, a grant comes before all else. -/
inductive Replays : List UInt32 → Conn → Conn → Prop where
  | done (c : Conn) : Replays [] c c
  | next {c c1 c2 c' : Conn} {id : UInt32} {ids : List UInt32} (ha : Adjusts id c c1)
      (hs : StepsAt id c1 c2) (ht : Replays ids c2 c') : Replays (id :: ids) c c'

/-- What follows the handling of a packet: steps, or after a rekey the replay of
    what the gate held back. -/
inductive Settles (c c' : Conn) : Prop where
  | steps (hs : Steps c c')
  | replay {l : List Obs} {before : Connection} {c1 : Conn}
      (hlog : c.log = l ++ [.kexCompleted before]) (hf : before.firstKexDone = true)
      (hch : c.now.channels = before.channels)
      (hr : Replays c.now.channels.iterIds c c1) (hs : Steps c1 c')

/-- The turns of `process_in`, as long as it does not fail. -/
inductive Turn : Conn → Conn → Prop where
  | quiet {c c' : Conn} (h : Quiet c c') : Turn c c'
  | packet {c c1 c' : Conn} {p : Bytes} (h : Handles p c c1) (hs : Settles c1 c') : Turn c c'

/-- Sequences of turns. -/
abbrev Turns : Conn → Conn → Prop := Relation.ReflTransGen Turn

/-- A call of `process_in` that failed: turns, a fault, and what followed. -/
inductive Breaks (c c' : Conn) : Prop where
  | mk {c1 c2 : Conn} (ht : Turns c c1) (hf : c1 = c2 ∨ Faults c1 c2) (hs : Steps c2 c')

/-- Sequences of moves. -/
abbrev Moves : Conn → Conn → Prop := Relation.ReflTransGen Move

end Ssproxy
