/-
  Ssproxy.Conn.Channels

  The channel calls of the application and the emitters behind them: data
  with its deferred path, window credit, EOF, CLOSE, and opening a channel.
-/

import Ssproxy.Conn.Output

namespace Ssproxy

open Lib Wire

namespace Connection

open Traced (read update observe)

-- ============================================================================
-- Outbound data
-- ============================================================================

/-- `outbound_allowance` of a connection: with the gate closed only the room
    in `pending_out` counts. -/
def outboundAllowance (c : Connection) (localId : UInt32) : Nat :=
  match c.channels.get? localId with
  | none => 0
  | some ch =>
      let pendRoom := 256 * 1024 - ch.pendingOutBytes
      if c.kexBlocksApp then min pendRoom c.maxPacket.toNat
      else if c.queuedWriteBytes ≥ c.writeSoft then 0
      else min ch.outboundAllowance pendRoom

variable [CryptoLib]

/-- `send_channel_data_pkt`. -/
def sendChannelDataPkt (localId remote : UInt32) (data : Bytes) : ConnM Unit :=
  queueMsg (some localId) (MsgType.channelData.code :: (putU32 remote ++ putBytes data)) false

/-- `enqueue_or_send`. -/
def enqueueOrSend (localId : UInt32) (chunk : Bytes) : ConnM Unit := do
  let c ← read
  let ch ← getChannel localId
  let canWire := ch.openConfirmed && !c.kexBlocksApp && !ch.sentEof
  if !canWire || ch.remoteId.isNone || ch.sendWindow == 0 then do
    let ch ← getChannel localId
    setChannel localId
      { ch with
        pendingOutBytes := ch.pendingOutBytes + chunk.length
        pendingOut := ch.pendingOut ++ [chunk] }
  else do
    let remote ← Proc.unwrap ch.remoteId
    let n := min (min chunk.length ch.maxRemotePacket.toNat) ch.sendWindow.toNat
    if n < chunk.length then do
      let ch ← getChannel localId
      let rest ← Proc.slice chunk n chunk.length
      let more ← Proc.checkedSub chunk.length n
      setChannel localId
        { ch with
          pendingOut := rest :: ch.pendingOut
          pendingOutBytes := ch.pendingOutBytes + more }
    else pure ()
    let ch ← getChannel localId
    let w ← Proc.checkedSub32 ch.sendWindow (UInt32.ofNat n)
    setChannel localId { ch with sendWindow := w }
    let data ← Proc.slice chunk 0 n
    sendChannelDataPkt localId remote data

/-- The loop of `send_data`: `sent` bytes are done. -/
def sendLoop (localId : UInt32) (data : Bytes) : Nat → Nat → ConnM Nat
  | 0, sent => return sent
  | fuel + 1, sent =>
      if sent < data.length then do
        let c ← read
        let allow := c.outboundAllowance localId
        if allow = 0 then return sent
        else do
          let left ← Proc.checkedSub data.length sent
          let n := min allow left
          let chunk ← Proc.slice data sent (sent + n)
          enqueueOrSend localId chunk
          sendLoop localId data fuel (sent + n)
      else return sent

/-- `send_data`.  Each round of the loop takes at least one byte, so
    `data.len()` rounds are enough. -/
def sendData (localId : UInt32) (data : Bytes) : ConnM Nat :=
  if data = [] then return 0 else sendLoop localId data data.length 0

omit [CryptoLib] in
/-- The chunk `flush_pending` takes off the queue, whole or in part. -/
def splitFront {σ : Type} (front : Bytes) (queue : List Bytes) (take : Nat) :
    Proc σ Error (Bytes × List Bytes) :=
  if take ≥ front.length then pure (front, queue)
  else do
    let (b, front) ← Proc.splitAt front take
    return (b, front :: queue)

/-- One round of the loop of `flush_pending`; `false` is its `return`. -/
def flushOnce (localId : UInt32) : ConnM Bool := do
  let c ← read
  match c.channels.get? localId with
  | none => return false
  | some ch =>
      let n := (ch.pendingOut.head?.map List.length).getD 0
      if !ch.openConfirmed || ch.sentEof || ch.remoteId.isNone || ch.sendWindow == 0 || n == 0 then
        return false
      else if c.queuedWriteBytes ≥ c.writeSoft then return false
      else do
        let take := min (min n ch.maxRemotePacket.toNat) ch.sendWindow.toNat
        match ch.pendingOut with
        | [] => return false
        | front :: queue => do
            let (b, queue) ← splitFront front queue take
            let w ← Proc.checkedSub32 ch.sendWindow (UInt32.ofNat b.length)
            setChannel localId
              { ch with
                pendingOut := queue
                pendingOutBytes := ch.pendingOutBytes - b.length
                sendWindow := w }
            let remote ← Proc.unwrap ch.remoteId
            Proc.succeeds (sendChannelDataPkt localId remote b)

/-- `flush_pending`.  Every round that goes on has queued a packet, so the
    distance to the soft limit bounds the rounds. -/
def flushPending (localId : UInt32) : ConnM Unit := do
  let c ← read
  if c.kexBlocksApp then return ()
  else Proc.loop (flushOnce localId) (c.writeSoft - c.queuedWriteBytes + 1)

/-- `flush_pending_all`. -/
def flushPendingAll : ConnM Unit := do
  let c ← read
  if c.kexBlocksApp then return ()
  else Proc.forEach flushPending c.channels.iterIds

-- ============================================================================
-- Inbound data and credit
-- ============================================================================

/-- `maybe_adjust`. -/
def maybeAdjust (localId : UInt32) : ConnM Unit := do
  let c ← read
  if c.kexBlocksApp then return ()
  else
    match c.channels.get? localId with
    | none => return ()
    | some ch => do
        let add ← ch.windowAdjustAmount
        if add = 0 then return ()
        else do
          let w ← Proc.checkedAdd32 ch.recvWindow add
          setChannel localId { ch with recvWindow := w }
          Proc.ifSome ch.remoteId fun r =>
            Proc.ignore (queueMsg (some localId)
              (MsgType.channelWindowAdjust.code :: (putU32 r ++ putU32 add)) true)

omit [CryptoLib] in
/-- `peek_inbound`. -/
def peekInbound (c : Connection) (localId : UInt32) : Option Bytes :=
  (c.channels.get? localId).bind fun ch => ch.inQ.head?

/-- `consume_inbound`. -/
def consumeInbound (localId : UInt32) (n : Nat) : ConnM Unit := do
  let c ← read
  match c.channels.get? localId with
  | none => return ()
  | some ch =>
      match ch.inQ with
      | [] => return ()
      | front :: queue => do
          let take := min n front.length
          if take = front.length then
            setChannel localId
              { ch with inQ := queue, inQBytes := ch.inQBytes - front.length }
          else do
            let (_, front) ← Proc.splitAt front take
            setChannel localId
              { ch with inQ := front :: queue, inQBytes := ch.inQBytes - take }
          maybeAdjust localId

-- ============================================================================
-- EOF and CLOSE
-- ============================================================================

/-- `emit_eof_if_ready`. -/
def emitEofIfReady (localId : UInt32) : ConnM Unit := do
  let c ← read
  if c.kexBlocksApp then return ()
  else
    match c.channels.get? localId with
    | none => return ()
    | some ch =>
        if !ch.sentEof || ch.wireEof then return ()
        else do
          setChannel localId { ch with wireEof := true }
          Proc.ifSome ch.remoteId fun r =>
            queueMsg (some localId) (MsgType.channelEof.code :: putU32 r) true

/-- `emit_close_if_ready`. -/
def emitCloseIfReady (localId : UInt32) : ConnM Unit := do
  let c ← read
  if c.kexBlocksApp then return ()
  else
    match c.channels.get? localId with
    | none => return ()
    | some ch =>
        if !ch.sentClose then return ()
        else do
          let remote ← if ch.wireClose then pure none else do
            setChannel localId { ch with wireClose := true, wireEof := true }
            pure ch.remoteId
          Proc.ifSome remote fun r =>
            queueMsg (some localId) (MsgType.channelClose.code :: putU32 r) true
          let c ← read
          if (c.channels.get? localId).any fun ch => ch.gotClose && ch.wireClose then
            freeChannel localId
          else return ()

/-- `send_eof`. -/
def sendEof (localId : UInt32) : ConnM Unit := do
  let c ← read
  let ch ← getChannel localId
  if ch.sentEof || ch.sentClose then return ()
  else do
    setChannel localId { ch with sentEof := true }
    observe (.ended c localId false)
    emitEofIfReady localId

/-- `send_close`. -/
def sendClose (localId : UInt32) : ConnM Unit := do
  let c ← read
  let ch ← getChannel localId
  if ch.sentClose then return ()
  else do
    setChannel localId { ch with sentClose := true, sentEof := true }
    observe (.ended c localId true)
    emitCloseIfReady localId

-- ============================================================================
-- Opening
-- ============================================================================

/-- `confirm_open`: the flag is set before the remote id is looked at. -/
def confirmOpen (localId : UInt32) : ConnM Unit := do
  let ch ← getChannel localId
  setChannel localId { ch with openConfirmed := true }
  let remote ← Proc.okOr ch.remoteId (.protocol "confirm without remote")
  queueMsg (some localId)
    (MsgType.channelOpenConfirmation.code ::
      (putU32 remote ++ putU32 localId ++ putU32 ch.recvMax ++ putU32 ch.maxLocalPacket)) true

/-- `fail_open`. -/
def failOpen (localId reason : UInt32) (msg : String) : ConnM Unit := do
  let ch ← getChannel localId
  let remote ← Proc.okOr ch.remoteId (.protocol "fail without remote")
  freeChannel localId
  queueMsg (some localId)
    (MsgType.channelOpenFailure.code ::
      (putU32 remote ++ putU32 reason ++ putStr msg ++ putStr "")) true

/-- `open_direct_tcpip`. -/
def openDirectTcpip (host : String) (port : UInt32) : ConnM UInt32 := do
  let c ← read
  Proc.failIf (c.role ≠ .client ∨ c.authed = false) (.protocol "open_direct before ready")
  let ch := Channel.new 0 .directTcpIp c.window c.maxPacket 0 0
  let id ← allocChannel { ch with host := some host, port := port }
  queueMsg (some id)
    (MsgType.channelOpen.code ::
      (putStr "direct-tcpip" ++ putU32 id ++ putU32 c.window ++ putU32 c.maxPacket
        ++ putStr host ++ putU32 port ++ putStr "127.0.0.1" ++ putU32 0)) true
  return id

omit [CryptoLib] in
/-- `round_robin_ids`. -/
def roundRobinIds : ConnM (List UInt32) := do
  let c ← read
  let ids := c.channels.iterIds
  if ids = [] then return ids
  else do
    update fun c => { c with rr := c.rr + 1 }
    let (a, b) ← Proc.splitAt ids (c.rr.toNat % ids.length)
    return b ++ a

end Connection

end Ssproxy
