/-
  Ssproxy.Channel

  One channel and the channel table (`src/core/channel.rs`).
-/

import Ssproxy.Wire

namespace Ssproxy

open Lib

inductive ChannelKind where
  | session | directTcpIp
  deriving DecidableEq, Repr

structure Channel where
  localId : UInt32
  remoteId : Option UInt32
  kind : ChannelKind
  sendWindow : UInt32
  recvWindow : UInt32
  recvMax : UInt32
  maxRemotePacket : UInt32
  maxLocalPacket : UInt32
  inQ : List Bytes
  inQBytes : Nat
  pendingOut : List Bytes
  pendingOutBytes : Nat
  gotEof : Bool
  sentEof : Bool
  wireEof : Bool
  gotClose : Bool
  sentClose : Bool
  wireClose : Bool
  openConfirmed : Bool
  host : Option String
  port : UInt32
  deriving DecidableEq

/-- `u32::saturating_sub`. -/
def saturatingSub32 (a b : UInt32) : UInt32 := if b ≤ a then a - b else 0

/-- `u32::saturating_add`. -/
def saturatingAdd32 (a b : UInt32) : UInt32 :=
  if a.toNat + b.toNat < 2 ^ 32 then a + b else 2 ^ 32 - 1

namespace Channel

def new (localId : UInt32) (kind : ChannelKind)
    (window maxPacket sendWindow maxRemotePacket : UInt32) : Channel where
  localId := localId
  remoteId := none
  kind := kind
  sendWindow := sendWindow
  recvWindow := window
  recvMax := window
  maxRemotePacket := maxRemotePacket
  maxLocalPacket := maxPacket
  inQ := []
  inQBytes := 0
  pendingOut := []
  pendingOutBytes := 0
  gotEof := false
  sentEof := false
  wireEof := false
  gotClose := false
  sentClose := false
  wireClose := false
  openConfirmed := false
  host := none
  port := 0

def pushIn (data : Bytes) : Proc Channel Error Unit := do
  let ch ← Proc.get
  let n := UInt32.ofNat data.length
  if n > ch.recvWindow then Proc.throw (.protocol "channel window exceeded")
  else do
    let w ← Proc.checkedSub32 ch.recvWindow n
    Proc.modify fun ch =>
      { ch with recvWindow := w, inQBytes := ch.inQBytes + data.length, inQ := ch.inQ ++ [data] }

/-- How much credit to grant back, if it is worth a message. -/
def windowAdjustAmount {σ : Type} (ch : Channel) : Proc σ Error UInt32 := do
  let used := UInt32.ofNat ch.inQBytes
  let allowed := saturatingSub32 ch.recvMax used
  if allowed ≤ ch.recvWindow then return 0
  else do
    let add ← Proc.checkedSub32 allowed ch.recvWindow
    if add ≥ ch.recvMax / 8 ∨ ch.recvWindow < ch.recvMax / 4 then return add else return 0

def outboundAllowance (ch : Channel) : Nat :=
  if !ch.openConfirmed || ch.sentEof || ch.sentClose then 0
  else min ch.sendWindow.toNat ch.maxRemotePacket.toNat

end Channel

/-- The slots by id, and the freed ids as a stack, its top first. -/
structure ChannelTable where
  slots : List (Option Channel)
  free : List UInt32
  maxChannels : UInt32

namespace ChannelTable

def new (maxChannels : UInt32) : ChannelTable := ⟨[], [], maxChannels⟩

/-- The channel in slot `id`. -/
def get? (t : ChannelTable) (id : UInt32) : Option Channel := (t.slots[id.toNat]?).join

/-- `get` and `get_mut`. -/
def get (t : ChannelTable) (id : UInt32) : Except Error Channel :=
  match t.get? id with
  | some ch => .ok ch
  | none => .error (.protocol "no such channel")

/-- The writes through the reference that `get_mut` returned. -/
def set (t : ChannelTable) (id : UInt32) (ch : Channel) : ChannelTable :=
  { t with slots := t.slots.set id.toNat (some ch) }

/-- Put `ch` into slot `id`, which has to exist. -/
def place (id : UInt32) (ch : Channel) : Proc ChannelTable Error UInt32 := do
  let t ← Proc.get
  if id.toNat < t.slots.length then do
    Proc.modify fun t => t.set id { ch with localId := id }
    return id
  else Proc.abort

def alloc (ch : Channel) : Proc ChannelTable Error UInt32 := do
  let t ← Proc.get
  match t.free with
  | id :: rest => do
      Proc.modify fun t => { t with free := rest }
      place id ch
  | [] =>
      if UInt32.ofNat t.slots.length ≥ t.maxChannels then
        Proc.throw (.protocol "too many channels")
      else do
        let id := UInt32.ofNat t.slots.length
        Proc.modify fun t => { t with slots := t.slots ++ [none] }
        place id ch

/-- `free`: a slot that is already empty, or was never there, is left alone. -/
def release (t : ChannelTable) (id : UInt32) : ChannelTable :=
  match t.get? id with
  | some _ => { t with slots := t.slots.set id.toNat none, free := id :: t.free }
  | none => t

def iterIds (t : ChannelTable) : List UInt32 := t.slots.filterMap fun s => s.map Channel.localId

end ChannelTable

end Ssproxy
