/-
  Ssproxy.Conn.Input

  The read side of a connection: the ident line, the packet layer
  (`try_one_packet`), the handlers of all messages that are not part of a key
  exchange, and the loop of `process_in`.
-/

import Ssproxy.Conn.Kex

namespace Ssproxy

open Lib Wire

namespace Connection

open Traced (read update observe)

variable [CryptoLib]

-- ============================================================================
-- Service and user authentication
-- ============================================================================

/-- `disconnect`. -/
def disconnect (reason : UInt32) (msg : String) : ConnM Unit := do
  let c ← read
  if c.closed then return ()
  else do
    Proc.ignore (queueMsg none (MsgType.disconnect.code ::
      (putU32 reason ++ putStr msg ++ putStr "")) true)
    update fun c => { c with closed := true }
    pushEvent (.disconnect reason msg)

/-- `on_service_request`. -/
def onServiceRequest (payload : Bytes) : ConnM Unit := do
  let c ← read
  if c.role ≠ .server then return ()
  else do
    let (_, p) ← Proc.call Parser.u8 (.new payload)
    let (name, _) ← Proc.call Parser.str p
    Proc.failIf (name ≠ "ssh-userauth" ∧ name ≠ "ssh-connection") (.protocol "unknown service")
    queueMsg none (MsgType.serviceAccept.code :: putStr name) true

/-- `on_service_accept`. -/
def onServiceAccept : ConnM Unit := do
  let c ← read
  if c.role ≠ .client then return ()
  else do
    let cfg ← Proc.unwrap c.client
    queueMsg none (MsgType.userauthRequest.code ::
      (putStr cfg.username ++ putStr "ssh-connection" ++ putStr "password" ++ putBool false
        ++ putStr cfg.password)) true

/-- `auth_fail`. -/
def authFail (cfg : ServerConfig) : ConnM Unit := do
  let c ← read
  if c.authFails ≥ cfg.maxAuthFails then
    disconnect sshDisconnectNoMoreAuthMethodsAvailable "too many failures"
  else
    queueMsg none (MsgType.userauthFailure.code :: (putStr "password" ++ putBool false)) true

/-- `on_userauth_request`. -/
def onUserauthRequest (payload : Bytes) : ConnM Unit := do
  let c ← read
  if c.role ≠ .server then return ()
  else do
    let cfg ← Proc.unwrap c.server
    let (_, p) ← Proc.call Parser.u8 (.new payload)
    let (user, p) ← Proc.call Parser.str p
    let (service, p) ← Proc.call Parser.str p
    let (method, p) ← Proc.call Parser.str p
    Proc.failIf (service ≠ "ssh-connection") (.protocol "auth service")
    if method = "none" then authFail cfg
    else if method ≠ "password" then authFail cfg
    else do
      let (changing, p) ← Proc.call Parser.bool p
      if changing then authFail cfg
      else do
        let (password, _) ← Proc.call Parser.str p
        observe (.passwordChecked user password (cfg.checkPassword user password))
        if cfg.checkPassword user password then do
          update fun c => { c with authed := true, user := some user, kexBlocksApp := false }
          observe (.authenticated c)
          queueMsg none [MsgType.userauthSuccess.code] true
          pushEvent (.handshakeComplete user)
        else do
          update fun c => { c with authFails := c.authFails + 1 }
          authFail cfg

/-- The USERAUTH_SUCCESS arm of `handle_payload`. -/
def onUserauthSuccess : ConnM Unit := do
  let c ← read
  let user := (c.client.map (·.username)).getD ""
  update fun c => { c with authed := true, user := some user, kexBlocksApp := false }
  observe (.authenticated c)
  pushEvent (.handshakeComplete user)

-- ============================================================================
-- Channel messages
-- ============================================================================

/-- `on_global_request`. -/
def onGlobalRequest (payload : Bytes) : ConnM Unit := do
  let (_, p) ← Proc.call Parser.u8 (.new payload)
  let (name, p) ← Proc.callOr "" Parser.str p
  let (want, _) ← Proc.callOr false Parser.bool p
  if want then
    if name = "keepalive@openssh.com" ∨ name = "no-more-sessions@openssh.com"
        ∨ name = "ping@openssh.com" then
      queueMsg none [MsgType.requestSuccess.code] true
    else queueMsg none [MsgType.requestFailure.code] true
  else return ()

/-- `on_channel_open`. -/
def onChannelOpen (payload : Bytes) : ConnM Unit := do
  let c ← read
  Proc.failIf (c.authed = false) (.protocol "channel before auth")
  let (_, p) ← Proc.call Parser.u8 (.new payload)
  let (typ, p) ← Proc.call Parser.str p
  let (remote, p) ← Proc.call Parser.u32 p
  let (sendWindow, p) ← Proc.call Parser.u32 p
  let (maxRemotePacket, p) ← Proc.call Parser.u32 p
  if typ = "session" then do
    let ch := Channel.new 0 .session c.window c.maxPacket sendWindow maxRemotePacket
    let id ← allocChannel { ch with remoteId := some remote }
    pushEvent (.openSession id)
  else if typ = "direct-tcpip" then do
    let (host, p) ← Proc.call Parser.str p
    let (port, p) ← Proc.call Parser.u32 p
    let (_, p) ← Proc.call Parser.str p
    let _ ← Proc.call Parser.u32 p
    let ch := Channel.new 0 .directTcpIp c.window c.maxPacket sendWindow maxRemotePacket
    let id ← allocChannel { ch with remoteId := some remote, host := some host, port := port }
    pushEvent (.openDirectTcpIp id host port)
  else
    queueMsg none (MsgType.channelOpenFailure.code ::
      (putU32 remote ++ putU32 sshOpenUnknownChannelType ++ putStr "unknown channel type"
        ++ putStr "")) true

/-- `on_open_confirm`. -/
def onOpenConfirm (payload : Bytes) : ConnM Unit := do
  let (_, p) ← Proc.call Parser.u8 (.new payload)
  let («local», p) ← Proc.call Parser.u32 p
  let (remote, p) ← Proc.call Parser.u32 p
  let (window, p) ← Proc.call Parser.u32 p
  let (maxPkt, _) ← Proc.call Parser.u32 p
  let ch ← getChannel «local»
  setChannel «local»
    { ch with
      remoteId := some remote
      sendWindow := window
      maxRemotePacket := maxPkt
      openConfirmed := true }
  pushEvent (.channelOpenConfirmation «local»)
  flushPending «local»

omit [CryptoLib] in
/-- `on_open_fail`. -/
def onOpenFail (payload : Bytes) : ConnM Unit := do
  let (_, p) ← Proc.call Parser.u8 (.new payload)
  let («local», p) ← Proc.call Parser.u32 p
  let (reason, p) ← Proc.call Parser.u32 p
  let (message, _) ← Proc.callOr "" Parser.str p
  freeChannel «local»
  pushEvent (.channelOpenFailure «local» reason message)

/-- `on_window_adjust`. -/
def onWindowAdjust (payload : Bytes) : ConnM Unit := do
  let (_, p) ← Proc.call Parser.u8 (.new payload)
  let («local», p) ← Proc.call Parser.u32 p
  let (add, _) ← Proc.call Parser.u32 p
  let ch ← getChannel «local»
  setChannel «local» { ch with sendWindow := saturatingAdd32 ch.sendWindow add }
  flushPending «local»

omit [CryptoLib] in
/-- `self.channels.get_mut(id)?.push_in(data)?` and the event. -/
def deliver («local» : UInt32) (data : Bytes) : ConnM Unit := do
  let ch ← getChannel «local»
  let (_, ch) ← Proc.call (Channel.pushIn data) ch
  setChannel «local» ch
  pushEvent (.channelData «local»)

omit [CryptoLib] in
/-- `u32::from_be_bytes(b.try_into().unwrap())`. -/
def beU32 {σ : Type} : Bytes → Proc σ Error UInt32
  | [b0, b1, b2, b3] => return ofBe b0 b1 b2 b3
  | _ => Proc.abort

omit [CryptoLib] in
/-- `on_channel_data`, with its own slicing instead of the parser. -/
def onChannelData (payload : Bytes) : ConnM Unit := do
  Proc.failIf (payload.length < 9) (.protocol "short channel data")
  let b ← Proc.slice payload 1 5
  let «local» ← beU32 b
  let b ← Proc.slice payload 5 9
  let dlen ← beU32 b
  Proc.failIf (payload.length < 9 + dlen.toNat) (.protocol "truncated channel data")
  let data ← Proc.slice payload 9 (9 + dlen.toNat)
  deliver «local» data

omit [CryptoLib] in
/-- `on_ext_data`. -/
def onExtData (payload : Bytes) : ConnM Unit := do
  let (_, p) ← Proc.call Parser.u8 (.new payload)
  let («local», p) ← Proc.call Parser.u32 p
  let (_, p) ← Proc.call Parser.u32 p
  let (data, _) ← Proc.call Parser.bytes p
  deliver «local» data

omit [CryptoLib] in
/-- `on_channel_eof`. -/
def onChannelEof (payload : Bytes) : ConnM Unit := do
  let (_, p) ← Proc.call Parser.u8 (.new payload)
  let («local», _) ← Proc.call Parser.u32 p
  let c ← read
  match c.channels.get? «local» with
  | some ch => setChannel «local» { ch with gotEof := true }
  | none => pure ()
  pushEvent (.channelEof «local»)

/-- `on_channel_close`. -/
def onChannelClose (payload : Bytes) : ConnM Unit := do
  let (_, p) ← Proc.call Parser.u8 (.new payload)
  let («local», _) ← Proc.call Parser.u32 p
  let c ← read
  match c.channels.get? «local» with
  | none => return ()
  | some ch => do
      setChannel «local» { ch with gotClose := true, gotEof := true }
      if !ch.sentClose then Proc.ignore (sendClose «local»)
      else Proc.ignore (emitCloseIfReady «local»)
      pushEvent (.channelClose «local»)

/-- `on_channel_request`. -/
def onChannelRequest (payload : Bytes) : ConnM Unit := do
  let (_, p) ← Proc.call Parser.u8 (.new payload)
  let («local», p) ← Proc.call Parser.u32 p
  let (name, p) ← Proc.callOr "" Parser.str p
  let (want, _) ← Proc.callOr false Parser.bool p
  if !want then return ()
  else do
    let c ← read
    match (c.channels.get? «local»).bind (·.remoteId) with
    | none => return ()
    | some r =>
        let ok := ["pty-req", "env", "shell", "window-change", "eow@openssh.com",
          "keepalive@openssh.com", "simple@putty.projects.tartarus.org"].contains name
        let t := if ok then MsgType.channelSuccess else MsgType.channelFailure
        queueMsg (some «local») (t.code :: putU32 r) true

/-- `on_ping`. -/
def onPing (payload : Bytes) : ConnM Unit := do
  let (_, p) ← Proc.call Parser.u8 (.new payload)
  let (data, _) ← Proc.callOr [] Parser.bytes p
  queueMsg none (MsgType.pong.code :: putBytes data) true

-- ============================================================================
-- Dispatch
-- ============================================================================

omit [CryptoLib] in
/-- The DISCONNECT arm of `handle_payload`. -/
def onDisconnect (payload : Bytes) : ConnM Unit := do
  let (_, p) ← Proc.call Parser.u8 (.new payload)
  let (reason, p) ← Proc.callOr 0 Parser.u32 p
  let (message, _) ← Proc.callOr "" Parser.str p
  update fun c => { c with closed := true }
  pushEvent (.disconnect reason message)

/-- The reply to an unknown message. -/
def onUnknown : ConnM Unit := do
  let c ← read
  queueMsg none (MsgType.unimplemented.code :: putU32 (c.recvSeq - 1)) true

/-- `handle_payload`. -/
def handlePayload (payload : Bytes) : ConnM Unit := do
  let t ← Proc.index payload 0
  match MsgType.ofCode t with
  | some .disconnect => onDisconnect payload
  | some .ignore | some .debug | some .unimplemented => return ()
  | some .kexinit => onKexinit payload
  | some .kexEcdhInit => onEcdhInit payload
  | some .kexEcdhReply => onEcdhReply payload
  | some .newkeys => onNewkeys
  | some .extInfo => return ()
  | some .serviceRequest => onServiceRequest payload
  | some .serviceAccept => onServiceAccept
  | some .userauthRequest => onUserauthRequest payload
  | some .userauthFailure => Proc.throw .auth
  | some .userauthSuccess => onUserauthSuccess
  | some .userauthBanner => return ()
  | some .globalRequest => onGlobalRequest payload
  | some .requestSuccess | some .requestFailure => return ()
  | some .channelOpen => onChannelOpen payload
  | some .channelOpenConfirmation => onOpenConfirm payload
  | some .channelOpenFailure => onOpenFail payload
  | some .channelWindowAdjust => onWindowAdjust payload
  | some .channelData => onChannelData payload
  | some .channelExtendedData => onExtData payload
  | some .channelEof => onChannelEof payload
  | some .channelClose => onChannelClose payload
  | some .channelRequest => onChannelRequest payload
  | some .channelSuccess | some .channelFailure => return ()
  | some .ping => onPing payload
  | some .pong => return ()
  | none => onUnknown

-- ============================================================================
-- The packet layer
-- ============================================================================

omit [CryptoLib] in
/-- The text of the error for a length field out of range. -/
def badLength (c : Connection) (length : UInt32) : Error :=
  .protocolFmt ("bad packet length " ++ toString length ++ " seq=" ++ toString c.recvSeq
    ++ " cipher=" ++ c.recvCipher.kind.debug)

/-- The first part of `try_one_packet`: take one packet off `read_buf`, open it
    and strip the padding.  `none` means that more bytes are needed. -/
def takePacket : ConnM (Option Bytes) := do
  let c ← read
  if c.readBuf.length < 4 then return none
  else do
    let encLen ← Proc.slice c.readBuf 0 4
    let plainLen := c.recvCipher.decryptLength c.recvSeq encLen
    let length ← beU32 plainLen
    Proc.failIf (length < 4 ∨ length.toNat > Ssproxy.maxPacket) (c.badLength length)
    let tag := c.recvCipher.kind.tagLen
    let total := 4 + length.toNat + tag
    if c.readBuf.length < total then return none
    else do
      let (pkt, rest) ← Proc.splitAt c.readBuf total
      update fun c => { c with readBuf := rest }
      let (body, tagb) ← Proc.splitAt pkt (4 + length.toNat)
      let (cipher, body) ← Proc.ofExcept (c.recvCipher.openBuf c.recvSeq body tagb)
      update fun c => { c with recvCipher := cipher }
      let body ← Proc.copyInto body 0 plainLen
      let pkt := body ++ tagb
      let pad ← Proc.index pkt 4
      Proc.failIf (pad < 4) (.protocol "bad padding")
      Proc.failIf (1 + pad.toNat ≥ length.toNat) (.protocol "padding vs length")
      let payloadEnd ← Proc.checkedSub (4 + length.toNat) pad.toNat
      let (_, payload) ← Proc.splitAt pkt 5
      let len ← Proc.checkedSub payloadEnd 5
      let payload := payload.take len
      Proc.failIf (payload = []) (.protocol "empty payload")
      update fun c =>
        { c with recvSeq := c.recvSeq + 1, bytesIo := c.bytesIo + total, packetsIo := c.packetsIo + 1 }
      return some payload

/-- The strict-kex filter of `try_one_packet`. -/
def strictFilter (c : Connection) (msg : UInt8) : ConnM Unit :=
  if c.strictKex && !c.firstKexDone then do
    Proc.failIf (isTransportIgnore msg) (.protocol "strict kex ignore")
    Proc.failIf (!isKexMsg msg && msg != MsgType.extInfo.code) (.protocol "strict kex unexpected")
  else return ()

/-- `try_one_packet`. -/
def tryOnePacket : ConnM Bool := do
  let before ← read
  let payload ← takePacket
  match payload with
  | none => return false
  | some payload => do
      let msg ← Proc.index payload 0
      let c ← read
      strictFilter c msg
      if msg = MsgType.newkeys.code ∧ c.strictKex then
        update fun c => { c with recvSeq := 0 }
      else pure ()
      observe (.handled before payload)
      handlePayload payload
      return true

-- ============================================================================
-- The ident line and process_in
-- ============================================================================

omit [CryptoLib] in
/-- One trailing `b` removed, as `if line.last() == Some(&b) { line.pop() }`. -/
def popIf (b : UInt8) (line : Bytes) : Bytes :=
  if line.getLast? = some b then line.dropLast else line

omit [CryptoLib] in
/-- `try_ident`. -/
def tryIdent : ConnM Unit := do
  update fun c =>
    if c.readBuf = [] then c else { c with identAcc := c.identAcc ++ c.readBuf, readBuf := [] }
  let c ← read
  match c.identAcc.findIdx? (· == 10) with
  | none => Proc.failIf (c.identAcc.length > 255) (.protocol "ident too long")
  | some pos => do
      Proc.failIf (pos > 254) (.protocol "ident too long")
      let (line, rest) ← Proc.splitAt c.identAcc (pos + 1)
      update fun c => { c with identAcc := rest }
      let line := popIf 13 (popIf 10 line)
      let s ← Proc.okOr (fromUtf8 line) (.protocol "ident utf8")
      Proc.failIf (!(strBytes "SSH-2.0-").isPrefixOf (strBytes s)
        && !(strBytes "SSH-1.99-").isPrefixOf (strBytes s)) (.protocol "unsupported ident")
      update fun c => { c with identPeer := some s, identInDone := true }
      update fun c =>
        if c.identAcc = [] then c else { c with readBuf := c.readBuf ++ c.identAcc, identAcc := [] }

/-- The packet loop of `process_in` and the hooks after it.  Each packet takes
    at least eight bytes off `read_buf`, which bounds the rounds. -/
def processPackets : ConnM Unit := do
  let c ← read
  Proc.loop tryOnePacket (c.readBuf.length + 1)
  maybeRekey
  flushPendingAll

/-- `process_in`. -/
def processIn : ConnM Unit := do
  let c ← read
  if !c.identInDone then do
    tryIdent
    let c ← read
    if c.identInDone then do
      maybeStartKex
      processPackets
    else return ()
  else processPackets

end Connection

end Ssproxy
