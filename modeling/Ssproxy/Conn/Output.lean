/-
  Ssproxy.Conn.Output

  The write side of a connection: sealing a message into a packet
  (`queue_msg`) and handing the sealed bytes to the socket (`peek_out`,
  `pull_current_out`).  All sealed packets go through one FIFO.
-/

import Ssproxy.Conn.State

namespace Ssproxy

open Lib Wire

namespace Connection

open Traced (read update observe)

/-- `wants_write`. -/
def wantsWrite (c : Connection) : Bool :=
  c.identOut.any (!·.isEmpty) || c.currentOut.any (!·.isEmpty) || !c.writeQ.isEmpty

/-- `queued_write_bytes`: `write_bytes` counts packets only, so the unsent
    part of the ident line is added. -/
def queuedWriteBytes (c : Connection) : Nat :=
  let ident := if c.currentIsIdent then (c.currentOut.map List.length).getD 0 else 0
  c.writeBytes + ident + (c.identOut.map List.length).getD 0

/-- The last part of `pull_current_out`: the next packet, if there is one. -/
def pullPacket (c : Connection) : Connection :=
  match c.writeQ with
  | b :: q => { c with currentIsIdent := false, currentOut := some b, writeQ := q }
  | [] => { c with currentIsIdent := false }

/-- `pull_current_out`: the ident line goes out before any packet. -/
def pullCurrentOut (c : Connection) : Connection :=
  let c := if c.currentOut = some [] then
    { c with currentOut := none, currentIsIdent := false } else c
  if c.currentOut.isSome then c
  else
    match c.identOut with
    | some (b :: bs) =>
        { c with identOut := none, currentOut := some (b :: bs), currentIsIdent := true }
    | some [] => { c with identOut := none }.pullPacket
    | none => c.pullPacket

/-- `peek_out`. -/
def peekOut : ConnM (Option Bytes) := do
  update pullCurrentOut
  let c ← read
  return c.currentOut.filter (!·.isEmpty)

variable [CryptoLib]

/-- `queue_msg`.  `owner` is the channel on whose behalf the message is
    queued; it goes into the history only. -/
def queueMsg (owner : Option UInt32) (payload : Bytes) (priority : Bool) : ConnM Unit := do
  let c ← read
  Proc.failIf (payload = []) (.protocol "empty msg")
  Proc.failIf (priority = false ∧ c.writeBytes ≥ c.writeHard) (.protocol "write backlog")
  let kind := c.sendCipher.kind
  let pad := paddingLen payload.length kind.blockSize kind.isAead
  let packetLength := 1 + payload.length + pad
  let total := 4 + packetLength + kind.tagLen
  let buf ← Proc.copyInto (List.replicate total 0) 0 (beBytes (UInt32.ofNat packetLength))
  let buf ← Proc.copyInto buf 4 [UInt8.ofNat pad]
  let buf ← Proc.copyInto buf 5 payload
  let padding ← fillBytes pad
  let buf ← Proc.copyInto buf (5 + payload.length) padding.val
  let (pkt, tagOut) ← Proc.splitAt buf (4 + packetLength)
  let (cipher, pkt, tag) ← Proc.ofExcept (c.sendCipher.sealBuf c.sendSeq pkt tagOut)
  let wire := pkt ++ tag
  update fun c =>
    { c with
      sendCipher := cipher
      sendSeq := c.sendSeq + 1
      bytesIo := c.bytesIo + total
      packetsIo := c.packetsIo + 1
      writeBytes := c.writeBytes + wire.length
      writeQ := c.writeQ ++ [wire] }
  observe (.queued c owner payload wire)

end Connection

end Ssproxy
