/-
  Ssproxy.Conn.Kex

  Key exchange: starting one, the four messages of an exchange, and the
  completion with its replay of what was deferred.
-/

import Ssproxy.Conn.Channels

namespace Ssproxy

open Lib Wire

/-- `is_zero`. -/
def isZero (b : Bytes) : Bool := b.foldl (· ||| ·) 0 == 0

variable [CryptoLib]

/-- `compute_h`. -/
def computeH (vC vS : String) (iC iS kS qC qS kMpint : Bytes) : Block 32 :=
  CryptoLib.sha256 (putStr vC ++ putStr vS ++ putBytes iC ++ putBytes iS ++ putBytes kS
    ++ putBytes qC ++ putBytes qS ++ kMpint)

/-- `make_keys`. -/
def makeKeys {σ : Type} (kMpint h sid : Bytes) (keyLetter ivLetter : UInt8) (kind : CipherKind) :
    Proc σ Error DirectionKeys := do
  let key ← if kind.keyLen > 0 then deriveBlock kMpint h sid keyLetter kind.keyLen else pure []
  let ivNeed := if kind.ivLen = 0 then 8 else kind.ivLen
  let iv ← deriveBlock kMpint h sid ivLetter ivNeed
  let iv := if kind.ivLen = 0 then [] else iv.take kind.ivLen
  Proc.ofExcept (DirectionKeys.fromMaterial kind key iv)

namespace Connection

open Traced (read update observe)

-- ============================================================================
-- Starting an exchange
-- ============================================================================

/-- The ephemeral key a client draws when it starts an exchange. -/
def clientEphemeral : ConnM (Option (Block 32) × Option (Block 32)) := do
  let c ← read
  if c.role = .client then do
    let s ← fillBytes 32
    return (some s, some (CryptoLib.x25519Base s))
  else return (none, none)

/-- `start_kex`. -/
def startKex : ConnM Unit := do
  let c ← read
  let kexList := match c.role with
    | .server => serverKex
    | .client => clientKex
  let cookie ← fillBytes 16
  let ours := KexInit.build cookie kexList serverHostKey serverCiphers serverMacs
  queueMsg none ours.raw true
  update fun c =>
    { c with sentKexinit := true, sentNewkeys := false, recvNewkeys := false, kexBlocksApp := true }
  let (secret, localPub) ← clientEphemeral
  update fun c => { c with kex := some ⟨ours, none, secret, localPub, none, none⟩ }

/-- `maybe_start_kex`. -/
def maybeStartKex : ConnM Unit := do
  let c ← read
  if c.sentKexinit then return () else Proc.ignore startKex

/-- `maybe_rekey`: only an authenticated server starts a rekey. -/
def maybeRekey : ConnM Unit := do
  let c ← read
  if !c.authed || !c.firstKexDone || c.closed then return ()
  else if c.kex.isSome || c.kexBlocksApp || c.sentKexinit then return ()
  else if c.role ≠ .server then return ()
  else if c.bytesIo ≥ c.rekeyAfterBytes ∨ c.packetsIo ≥ c.rekeyAfterPackets then
    Proc.ignore startKex
  else return ()

/-- `consume_out`: draining the ident line may start the first exchange. -/
def consumeOut (n : Nat) : ConnM Unit := do
  if n = 0 then return ()
  else do
    update pullCurrentOut
    let c ← read
    match c.currentOut with
    | none => return ()
    | some b => do
        let take := min n b.length
        let wasIdent := c.currentIsIdent
        if take = b.length then
          update fun c => { c with currentOut := none, currentIsIdent := false }
        else do
          let (_, b) ← Proc.splitAt b take
          update fun c => { c with currentOut := some b }
        if !wasIdent then
          update fun c => { c with writeBytes := c.writeBytes - take }
        else pure ()
        let c ← read
        if c.currentOut.isNone && wasIdent then maybeStartKex else pure ()

-- ============================================================================
-- Completing an exchange
-- ============================================================================

/-- `send_ext_info`. -/
def sendExtInfo : ConnM Unit :=
  queueMsg none (MsgType.extInfo.code ::
    (putU32 1 ++ putStr "server-sig-algs" ++ putStr "ssh-ed25519")) true

/-- `send_service_request`. -/
def sendServiceRequest : ConnM Unit :=
  queueMsg none (MsgType.serviceRequest.code :: putStr "ssh-userauth") true

/-- `flush_post_rekey`: replay what the gate held back. -/
def flushPostRekey : ConnM Unit := do
  let c ← read
  Proc.forEach (fun id => do
    maybeAdjust id
    flushPending id
    Proc.ignore (emitEofIfReady id)
    Proc.ignore (emitCloseIfReady id)) c.channels.iterIds

/-- `try_complete_kex`.  After the first exchange the gate stays closed until
    user authentication opens it. -/
def tryCompleteKex : ConnM Unit := do
  let c ← read
  if !c.sentNewkeys || !c.recvNewkeys then return ()
  else do
    update fun c =>
      { c with kex := none, sentKexinit := false, pendingKeys := none, bytesIo := 0, packetsIo := 0 }
    observe (.kexCompleted c)
    if !c.firstKexDone then do
      update fun c => { c with firstKexDone := true }
      if c.role = .server ∧ c.peerExtInfo then sendExtInfo else pure ()
      if c.role = .client then sendServiceRequest else pure ()
    else do
      update fun c => { c with kexBlocksApp := false }
      flushPostRekey
      update fun c => { c with bytesIo := 0, packetsIo := 0 }

/-- What `send_newkeys` does after the message: the new key, and with strict
    kex a new sequence. -/
def switchSend (c : Connection) : Connection :=
  let c := match c.pendingKeys with
    | some pk =>
        { c with
          sendCipher := pk.send
          sendInstalls := c.sendInstalls + 1
          pendingKeys := some { pk with send := .clear } }
    | none => c
  let c := { c with sentNewkeys := true }
  if c.strictKex then { c with sendSeq := 0 } else c

/-- `send_newkeys`: the message still goes out under the old key. -/
def sendNewkeys : ConnM Unit := do
  queueMsg none [MsgType.newkeys.code] true
  update switchSend
  tryCompleteKex

/-- What `on_newkeys` does with the pending keys it took. -/
def switchRecv (c : Connection) (pk : PendingKeys) : Connection :=
  { c with
    pendingKeys := if c.sentNewkeys then none else some { send := pk.send, recv := .clear }
    recvCipher := pk.recv
    recvInstalls := c.recvInstalls + 1
    recvNewkeys := true }

/-- `on_newkeys`. -/
def onNewkeys : ConnM Unit := do
  let c ← read
  match c.pendingKeys with
  | none => Proc.throw (.protocol "newkeys without pending")
  | some pk => do
      update (·.switchRecv pk)
      tryCompleteKex

-- ============================================================================
-- The messages of an exchange
-- ============================================================================

/-- `send_ecdh_init`. -/
def sendEcdhInit : ConnM Unit := do
  let c ← read
  let q ← Proc.okOr (c.kex.bind (·.localPub)) (.protocol "no client ecdh pub")
  queueMsg none (MsgType.kexEcdhInit.code :: putBytes q.val) true

/-- The start of `on_kexinit`: the peer may be the one who starts. -/
def joinKex : ConnM Unit := do
  let c ← read
  if c.kex.isNone then startKex else return ()

/-- The rest of `on_kexinit`: negotiate and record. -/
def acceptKexinit (theirs : KexInit) : ConnM Unit := do
  let c ← read
  let strictName := match c.role with
    | .server => kexStrictC
    | .client => kexStrictS
  let extName := match c.role with
    | .server => extInfoC
    | .client => extInfoS
  let peerStrict := listHas theirs.kex strictName
  let peerExt := listHas theirs.kex extName
  let kex ← Proc.unwrap c.kex
  let c2s ← Proc.okOr (negotiate serverCiphers theirs.encC2s false) (.protocol "no cipher c2s")
  let s2c ← Proc.okOr (negotiate serverCiphers theirs.encS2c false) (.protocol "no cipher s2c")
  let host ← Proc.okOr (negotiate serverHostKey theirs.hostKey false)
    (.protocol "no host key alg")
  Proc.failIf (host ≠ "ssh-ed25519") (.protocol "host key alg")
  let _ ← Proc.okOr
    (negotiate ["curve25519-sha256", "curve25519-sha256@libssh.org"] theirs.kex true)
    (.protocol "no kex alg")
  let _ ← Proc.okOr (negotiate serverComp theirs.compC2s false) (.protocol "no compression")
  update fun c =>
    { c with
      kex := some { kex with
        cipherC2s := CipherKind.fromName c2s
        cipherS2c := CipherKind.fromName s2c
        theirs := some theirs } }
  update fun c => { c with strictKex := c.strictKex || peerStrict, peerExtInfo := peerExt }
  if c.role = .client then sendEcdhInit else return ()

/-- `on_kexinit`. -/
def onKexinit (payload : Bytes) : ConnM Unit := do
  let theirs ← KexInit.parse payload
  joinKex
  acceptKexinit theirs

/-- `finish_kex`: the exchange hash, the session id and the new keys. -/
def finishKex (qC qS shared : Block 32) : ConnM Unit := do
  let c ← read
  let kex ← Proc.okOr c.kex (.protocol "no kex")
  let theirs ← Proc.okOr kex.theirs (.protocol "no peer kexinit")
  let identPeer ← Proc.unwrap c.identPeer
  let (vC, vS, iC, iS) := match c.role with
    | .server => (identPeer, c.identLocal, theirs.raw, kex.ours.raw)
    | .client => (c.identLocal, identPeer, kex.ours.raw, theirs.raw)
  let ks ← Proc.okOr c.peerKs (.protocol "no host blob")
  let kMpint := encodeMpint shared.val
  let h := (computeH vC vS iC iS ks qC.val qS.val kMpint).val
  update fun c => { c with sessionId := c.sessionId.or (some h), lastH := some h }
  let c ← read
  let sid ← Proc.unwrap c.sessionId
  let c2s ← Proc.okOr kex.cipherC2s (.protocol "no c2s cipher")
  let s2c ← Proc.okOr kex.cipherS2c (.protocol "no s2c cipher")
  let (sendKind, recvKind, sendK, recvK, sendIvl, recvIvl) :=
    if c.role = .server then (s2c, c2s, 68, 67, 66, 65) else (c2s, s2c, 67, 68, 65, 66)
  let «send» ← makeKeys kMpint h sid sendK sendIvl sendKind
  let recv ← makeKeys kMpint h sid recvK recvIvl recvKind
  update fun c => { c with pendingKeys := some ⟨«send», recv⟩ }

/-- `on_ecdh_init`. -/
def onEcdhInit (payload : Bytes) : ConnM Unit := do
  let c ← read
  Proc.failIf (c.role ≠ .server) (.protocol "ecdh init as client")
  let (t, p) ← Proc.call Parser.u8 (.new payload)
  Proc.failIf (t ≠ MsgType.kexEcdhInit.code) (.protocol "bad ecdh init")
  let (qC, _) ← Proc.call Parser.bytes p
  Proc.failIf (qC.length ≠ 32) (.crypto "q_c len")
  let qC ← Proc.unwrap (Block.ofBytes? 32 qC)
  let secret ← fillBytes 32
  let qS := CryptoLib.x25519Base secret
  let shared := CryptoLib.x25519 secret qC
  Proc.failIf (isZero shared.val) (.crypto "weak shared secret")
  Proc.failIf ((c.kex.bind (·.theirs)).isNone) (.protocol "ecdh before kexinit")
  let cfg ← Proc.unwrap c.server
  update fun c => { c with peerKs := some cfg.hostKey.publicBlob }
  finishKex qC qS shared
  let c ← read
  let h ← Proc.unwrap c.lastH
  queueMsg none (MsgType.kexEcdhReply.code ::
    (putBytes cfg.hostKey.publicBlob ++ putBytes qS.val ++ putBytes (cfg.hostKey.sign h))) true
  sendNewkeys

/-- `on_ecdh_reply`: the signature is parsed and not checked. -/
def onEcdhReply (payload : Bytes) : ConnM Unit := do
  let c ← read
  Proc.failIf (c.role ≠ .client) (.protocol "ecdh reply as server")
  let (t, p) ← Proc.call Parser.u8 (.new payload)
  Proc.failIf (t ≠ MsgType.kexEcdhReply.code) (.protocol "bad ecdh reply")
  let (ks, p) ← Proc.call Parser.bytes p
  let (qS, p) ← Proc.call Parser.bytes p
  let _ ← Proc.call Parser.bytes p
  Proc.failIf (qS.length ≠ 32) (.crypto "q_s len")
  let qS ← Proc.unwrap (Block.ofBytes? 32 qS)
  let qC ← Proc.okOr (c.kex.bind (·.localPub)) (.protocol "no client pub")
  let secret ← Proc.okOr (c.kex.bind (·.secret)) (.protocol "no client secret")
  update fun c => { c with kex := c.kex.map fun k => { k with secret := none } }
  let shared := CryptoLib.x25519 secret qS
  Proc.failIf (isZero shared.val) (.crypto "weak shared secret")
  update fun c => { c with peerKs := some ks }
  finishKex qC qS shared
  sendNewkeys

end Connection

end Ssproxy
