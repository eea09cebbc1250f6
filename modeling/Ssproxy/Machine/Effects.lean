/-
  Ssproxy.Machine.Effects

  The elementary effects a connection is moved by, as closed forms: sealing a
  message, taking a packet, starting a key exchange, recording the peer's
  KEXINIT, deriving keys, installing them, completing the exchange.  The
  transition system of `Ssproxy.Machine.Moves` is put together from these.
-/

import Ssproxy.Conn.Run

namespace Ssproxy

open Lib Wire

-- ============================================================================
-- Messages
-- ============================================================================

/-- `payload` starts with the number of message `m`. -/
def IsMsg (m : MsgType) (payload : Bytes) : Prop := payload.head? = some m.code

instance (m : MsgType) (payload : Bytes) : Decidable (IsMsg m payload) :=
  inferInstanceAs (Decidable (payload.head? = some m.code))

theorem IsMsg.unique {m m' : MsgType} {p : Bytes} (h : IsMsg m p) (h' : IsMsg m' p) : m = m' :=
  MsgType.code_injective (Option.some.inj (h.symm.trans h'))

theorem IsMsg.of_prefix {m : MsgType} {b p : Bytes} (h : m.code :: b <+: p) : IsMsg m p := by
  obtain ⟨r, rfl⟩ := h
  rfl

namespace Msg

def newkeys : Bytes := [MsgType.newkeys.code]

def ecdhInit (q : Block 32) : Bytes := MsgType.kexEcdhInit.code :: putBytes q.val

def ecdhReply (ks : Bytes) (qS : Block 32) (sig : Bytes) : Bytes :=
  MsgType.kexEcdhReply.code :: (putBytes ks ++ putBytes qS.val ++ putBytes sig)

def extInfo : Bytes :=
  MsgType.extInfo.code :: (putU32 1 ++ putStr "server-sig-algs" ++ putStr "ssh-ed25519")

def serviceRequest : Bytes := MsgType.serviceRequest.code :: putStr "ssh-userauth"

def serviceAccept (name : String) : Bytes := MsgType.serviceAccept.code :: putStr name

/-- A password request, without a change of password. -/
def passwordRequest (user password : String) : Bytes :=
  MsgType.userauthRequest.code ::
    (putStr user ++ putStr "ssh-connection" ++ putStr "password" ++ putBool false
      ++ putStr password)

def userauthSuccess : Bytes := [MsgType.userauthSuccess.code]

def userauthFailure : Bytes :=
  MsgType.userauthFailure.code :: (putStr "password" ++ putBool false)

def disconnect (reason : UInt32) (msg : String) : Bytes :=
  MsgType.disconnect.code :: (putU32 reason ++ putStr msg ++ putStr "")

def channelOpen (id window maxPacket : UInt32) (host : String) (port : UInt32) : Bytes :=
  MsgType.channelOpen.code ::
    (putStr "direct-tcpip" ++ putU32 id ++ putU32 window ++ putU32 maxPacket
      ++ putStr host ++ putU32 port ++ putStr "127.0.0.1" ++ putU32 0)

def openConfirmation (remote id window maxPacket : UInt32) : Bytes :=
  MsgType.channelOpenConfirmation.code ::
    (putU32 remote ++ putU32 id ++ putU32 window ++ putU32 maxPacket)

def openFailure (remote reason : UInt32) (msg : String) : Bytes :=
  MsgType.channelOpenFailure.code ::
    (putU32 remote ++ putU32 reason ++ putStr msg ++ putStr "")

def windowAdjust (remote add : UInt32) : Bytes :=
  MsgType.channelWindowAdjust.code :: (putU32 remote ++ putU32 add)

def channelData (remote : UInt32) (data : Bytes) : Bytes :=
  MsgType.channelData.code :: (putU32 remote ++ putBytes data)

def channelEof (remote : UInt32) : Bytes := MsgType.channelEof.code :: putU32 remote

def channelClose (remote : UInt32) : Bytes := MsgType.channelClose.code :: putU32 remote

end Msg

variable [CryptoLib]

-- ============================================================================
-- Packets
-- ============================================================================

namespace Connection

/-- The number of padding bytes `queue_msg` adds to `payload`. -/
def padFor (c : Connection) (payload : Bytes) : Nat :=
  paddingLen payload.length c.sendCipher.kind.blockSize c.sendCipher.kind.isAead

/-- The packet `queue_msg` builds from `payload`, before it is sealed. -/
def frame (c : Connection) (payload : Bytes) : Bytes :=
  beBytes (UInt32.ofNat (1 + payload.length + c.padFor payload))
    ++ (UInt8.ofNat (c.padFor payload) :: payload) ++ (c.rng.next (c.padFor payload)).val

/-- The connection after `payload` was sealed into `wire`. -/
def sealed (c : Connection) (payload : Bytes) (cipher : DirectionKeys) (wire : Bytes) :
    Connection :=
  { c with
    rng := c.rng.skip (c.padFor payload)
    sendCipher := cipher
    sendSeq := c.sendSeq + 1
    bytesIo := c.bytesIo + (4 + (1 + payload.length + c.padFor payload) + c.sendCipher.kind.tagLen)
    packetsIo := c.packetsIo + 1
    writeBytes := c.writeBytes + wire.length
    writeQ := c.writeQ ++ [wire] }

/-- The connection after the socket took `n` bytes of the current packet `b`. -/
def drained (c : Connection) (b : Bytes) (n : Nat) : Connection :=
  let c' := if n = b.length then { c with currentOut := none, currentIsIdent := false }
    else { c with currentOut := some (b.drop n) }
  if !c.currentIsIdent then { c' with writeBytes := c'.writeBytes - n } else c'

/-- The connection after a packet of `total` bytes was taken off `read_buf`. -/
def received (c : Connection) (cipher : DirectionKeys) (rest : Bytes) (total : Nat) :
    Connection :=
  { c with
    readBuf := rest
    recvCipher := cipher
    recvSeq := c.recvSeq + 1
    bytesIo := c.bytesIo + total
    packetsIo := c.packetsIo + 1 }

/-- The strict-kex reset of `recv_seq` on NEWKEYS. -/
def resetRecv (c : Connection) (payload : Bytes) : Connection :=
  if IsMsg .newkeys payload ∧ c.strictKex then { c with recvSeq := 0 } else c

/-- The strict-kex filter lets a message with this number pass. -/
def passes (c : Connection) (msg : UInt8) : Bool :=
  !(c.strictKex && !c.firstKexDone)
    || (!isTransportIgnore msg && (isKexMsg msg || msg == MsgType.extInfo.code))

-- ============================================================================
-- Key exchange
-- ============================================================================

/-- The kex names of our own KEXINIT. -/
def kexNames (c : Connection) : List String :=
  match c.role with
  | .server => serverKex
  | .client => clientKex

/-- The KEXINIT `start_kex` builds. -/
def ownKexInit (c : Connection) : KexInit :=
  KexInit.build (c.rng.next 16) c.kexNames serverHostKey serverCiphers serverMacs

/-- The ephemeral secret `start_kex` draws: only a client draws one. -/
def ephemeral (c : Connection) : Option (Block 32) :=
  match c.role with
  | .server => none
  | .client => some (c.rng.next 32)

/-- The connection after our KEXINIT was queued. -/
def started (c : Connection) (ours : KexInit) : Connection :=
  { c with
    sentKexinit := true
    sentNewkeys := false
    recvNewkeys := false
    kexBlocksApp := true
    rng := if c.role = .client then c.rng.skip 32 else c.rng
    kex := some ⟨ours, none, c.ephemeral, c.ephemeral.map CryptoLib.x25519Base, none, none⟩ }

/-- The marker by which the peer asks for strict key exchange. -/
def strictName (c : Connection) : String :=
  match c.role with
  | .server => kexStrictC
  | .client => kexStrictS

/-- The marker by which the peer announces EXT_INFO. -/
def extName (c : Connection) : String :=
  match c.role with
  | .server => extInfoC
  | .client => extInfoS

/-- The connection after the peer's KEXINIT was accepted; `c2s` and `s2c` are
    the negotiated names. -/
def recorded (c : Connection) (k : KexState) (theirs : KexInit) (c2s s2c : String) :
    Connection :=
  { c with
    kex := some { k with
      cipherC2s := CipherKind.fromName c2s
      cipherS2c := CipherKind.fromName s2c
      theirs := some theirs }
    strictKex := c.strictKex || listHas theirs.kex c.strictName
    peerExtInfo := listHas theirs.kex c.extName }

end Connection

/-- The keys of one direction that `make_keys` derives. -/
def derivedKeys (kMpint h sid : Bytes) (keyLetter ivLetter : UInt8) (kind : CipherKind) :
    DirectionKeys :=
  ((makeKeys kMpint h sid keyLetter ivLetter kind ()).value?).getD .clear

/-- What `finish_kex` reads of the running exchange. -/
structure Exchange where
  kex : KexState
  theirs : KexInit
  identPeer : String
  c2s : CipherKind
  s2c : CipherKind

namespace Connection

/-- The connection is in the exchange `x` and has the peer's KEXINIT. -/
structure InExchange (c : Connection) (x : Exchange) : Prop where
  kex : c.kex = some x.kex
  theirs : x.kex.theirs = some x.theirs
  identPeer : c.identPeer = some x.identPeer
  c2s : x.kex.cipherC2s = some x.c2s
  s2c : x.kex.cipherS2c = some x.s2c

/-- The exchange hash. -/
def exchangeHash (c : Connection) (x : Exchange) (ks : Bytes) (qC qS shared : Block 32) : Bytes :=
  match c.role with
  | .server => (computeH x.identPeer c.identLocal x.theirs.raw x.kex.ours.raw ks qC.val qS.val
      (encodeMpint shared.val)).val
  | .client => (computeH c.identLocal x.identPeer x.kex.ours.raw x.theirs.raw ks qC.val qS.val
      (encodeMpint shared.val)).val

/-- The two keys that `finish_kex` derives. -/
def exchangeKeys (c : Connection) (x : Exchange) (h sid : Bytes) (shared : Block 32) :
    PendingKeys :=
  let kMpint := encodeMpint shared.val
  match c.role with
  | .server => ⟨derivedKeys kMpint h sid 68 66 x.s2c, derivedKeys kMpint h sid 67 65 x.c2s⟩
  | .client => ⟨derivedKeys kMpint h sid 67 65 x.c2s, derivedKeys kMpint h sid 68 66 x.s2c⟩

/-- The connection after `finish_kex`. -/
def finished (c : Connection) (x : Exchange) (ks : Bytes) (qC qS shared : Block 32) :
    Connection :=
  let h := c.exchangeHash x ks qC qS shared
  let sid := c.sessionId.getD h
  { c with
    sessionId := some sid
    lastH := some h
    pendingKeys := some (c.exchangeKeys x h sid shared) }

/-- The connection after our NEWKEYS was queued. -/
def installSend (c : Connection) (pk : PendingKeys) : Connection :=
  { c with
    sendCipher := pk.send
    sendInstalls := c.sendInstalls + 1
    pendingKeys := some { pk with send := .clear }
    sentNewkeys := true
    sendSeq := if c.strictKex then 0 else c.sendSeq }

/-- The connection after the peer's NEWKEYS put its key in place. -/
def installRecv (c : Connection) (pk : PendingKeys) : Connection :=
  { c with
    pendingKeys := none
    recvCipher := pk.recv
    recvInstalls := c.recvInstalls + 1
    recvNewkeys := true }

/-- The connection after the first part of `try_complete_kex`. -/
def completed (c : Connection) : Connection :=
  { c with kex := none, sentKexinit := false, pendingKeys := none, bytesIo := 0, packetsIo := 0 }

-- ============================================================================
-- Channels, events, authentication
-- ============================================================================

def putChannel (c : Connection) (id : UInt32) (ch : Channel) : Connection :=
  { c with channels := c.channels.set id ch }

def dropChannel (c : Connection) (id : UInt32) : Connection :=
  { c with channels := c.channels.release id }

def pushed (c : Connection) (ev : Event) : Connection :=
  { c with events := c.events ++ [ev] }

def login (c : Connection) (user : String) : Connection :=
  { c with authed := true, user := some user, kexBlocksApp := false }

end Connection

-- ============================================================================
-- Effects on a connection with its history
-- ============================================================================

open Connection

/-- A successful `queue_msg`. -/
inductive Queues (owner : Option UInt32) (payload : Bytes) (c : Conn) : Conn → Prop where
  | mk {cipher : DirectionKeys} {pkt tag : Bytes} (hne : payload ≠ [])
      (hseal : c.now.sendCipher.sealBuf c.now.sendSeq (c.now.frame payload)
        (List.replicate c.now.sendCipher.kind.tagLen 0) = .ok (cipher, pkt, tag)) :
      Queues owner payload c
        ⟨c.now.sealed payload cipher (pkt ++ tag),
          c.log ++ [.queued c.now owner payload (pkt ++ tag)]⟩

/-- Only random bytes were drawn. -/
inductive Draws (c : Conn) : Conn → Prop where
  | mk (r : Rng) : Draws c ⟨{ c.now with rng := r }, c.log⟩

/-- `queue_msg` with priority: it fails only on a payload beyond the limit of
    AES-GCM. -/
def Sends (owner : Option UInt32) (payload : Bytes) (c c' : Conn) : Prop :=
  Queues owner payload c c' ∨ (CryptoLib.gcmMaxLen ≤ payload.length + 512 ∧ Draws c c')

/-- A packet was opened, passed the filter and is about to be handled. -/
inductive Receives (payload : Bytes) (c : Conn) : Conn → Prop where
  | mk {cipher : DirectionKeys} {rest : Bytes} {total : Nat}
      (htake : takePacket c = .ok (some payload) ⟨c.now.received cipher rest total, c.log⟩)
      (hpass : c.now.passes (payload.headD 0) = true) :
      Receives payload c
        ⟨(c.now.received cipher rest total).resetRecv payload,
          c.log ++ [.handled c.now payload]⟩

/-- `start_kex`. -/
inductive Starts (c : Conn) : Conn → Prop where
  | mk {c1 : Conn} (hq : Queues none c.now.ownKexInit.raw
        ⟨{ c.now with rng := c.now.rng.skip 16 }, c.log⟩ c1) :
      Starts c ⟨c1.now.started c.now.ownKexInit, c1.log⟩

/-- `send_newkeys`, with the keys `pk` pending. -/
inductive Switches (pk : PendingKeys) (c : Conn) : Conn → Prop where
  | mk {c1 : Conn} (hpk : c.now.pendingKeys = some pk) (hq : Queues none Msg.newkeys c c1) :
      Switches pk c ⟨c1.now.installSend pk, c1.log⟩

/-- `disconnect`. -/
inductive HangsUp (reason : UInt32) (msg : String) (c : Conn) : Conn → Prop where
  | again (hc : c.now.closed = true) : HangsUp reason msg c c
  | first {c1 : Conn} (hc : c.now.closed = false)
      (hs : Sends none (Msg.disconnect reason msg) c c1) :
      HangsUp reason msg c
        ⟨{ c1.now with closed := true }.pushed (.disconnect reason msg),
          c1.log ++ [.emitted (.disconnect reason msg)]⟩

/-- `auth_fail`. -/
inductive Denies (cfg : ServerConfig) (c : Conn) : Conn → Prop where
  | soft {c' : Conn} (hlt : c.now.authFails < cfg.maxAuthFails)
      (hq : Queues none Msg.userauthFailure c c') : Denies cfg c c'
  | hard {c' : Conn} (hge : cfg.maxAuthFails ≤ c.now.authFails)
      (hh : HangsUp sshDisconnectNoMoreAuthMethodsAvailable "too many failures" c c') :
      Denies cfg c c'

/-- What the first completed exchange is followed by. -/
inductive Greets (c : Conn) : Conn → Prop where
  | silent (hr : c.now.role = .server) (he : c.now.peerExtInfo = false) : Greets c c
  | extInfo {c' : Conn} (hr : c.now.role = .server) (he : c.now.peerExtInfo = true)
      (hq : Queues none Msg.extInfo c c') : Greets c c'
  | service {c' : Conn} (hr : c.now.role = .client)
      (hq : Queues none Msg.serviceRequest c c') : Greets c c'

end Ssproxy
