/-
  Ssproxy.Pair.Parcels

  Connections as ends of a trunk.  A channel is an end of a lane, and of the
  payloads those are parcels that open a channel or carry data or credit;
  `parcel` reads them as `handle_payload` does.
-/

import Ssproxy.Lib.Trunk
import Ssproxy.Message
import Ssproxy.Pair.Carried

namespace Ssproxy

open Lib Wire Connection

open Trunk (Stroke)

-- ============================================================================
-- Lanes
-- ============================================================================

/-- The channel as one end of a lane. -/
def Channel.lane (ch : Channel) : Lane UInt32 where
  remote := ch.remoteId
  confirmed := ch.openConfirmed
  send := ch.sendWindow.toNat
  recv := ch.recvWindow.toNat
  limit := ch.recvMax.toNat

/-- The channels of a connection by their ids. -/
def Connection.lanes (c : Connection) (id : UInt32) : Option (Lane UInt32) :=
  (c.channels.get? id).map Channel.lane

/-- The end of the trunk that a connection is. -/
def Role.port : Role → End
  | .client => .opener
  | .server => .acceptor

/-- `saturating_add` stops here. -/
def maxWindow : Nat := 2 ^ 32 - 1

theorem toNat_le_maxWindow (w : UInt32) : w.toNat ≤ maxWindow := by
  have hlt := w.toNat_lt
  unfold maxWindow
  omega

section Lanes

variable {c c' : Connection} {id : UInt32} {ch ch' : Channel}

theorem lanes_of_get? (hch : c.channels.get? id = some ch) : c.lanes id = some ch.lane := by
  rw [Connection.lanes, hch, Option.map_some]

theorem get?_of_lanes {l : Lane UInt32} (h : c.lanes id = some l) :
    ∃ ch, c.channels.get? id = some ch ∧ ch.lane = l := Option.map_eq_some_iff.mp h

theorem lanes_congr (h : c'.channels = c.channels) : c'.lanes = c.lanes := by
  funext j
  rw [Connection.lanes, h, Connection.lanes]

theorem lanes_set (hch : c.channels.get? id = some ch)
    (hset : c'.channels = c.channels.set id ch') :
    c'.lanes = Function.update c.lanes id (some ch'.lane) := by
  funext j
  rw [Connection.lanes, hset]
  by_cases hj : j = id
  · subst hj
    rw [ChannelTable.get?_set_self hch, Function.update_self, Option.map_some]
  · rw [ChannelTable.get?_set_ne hj, Function.update_of_ne hj, Connection.lanes]

theorem lanes_release (hrel : c'.channels = c.channels.release id) :
    c'.lanes = Function.update c.lanes id none := by
  funext j
  rw [Connection.lanes, hrel]
  by_cases hj : j = id
  · subst hj
    rw [ChannelTable.get?_release_self, Function.update_self, Option.map_none]
  · rw [ChannelTable.get?_release_ne _ hj, Function.update_of_ne hj, Connection.lanes]

theorem lanes_alloc (ht : c.channels.Represents)
    (halloc : ChannelTable.alloc ch c.channels = .ok id c'.channels) :
    c.lanes id = none ∧ c'.lanes = Function.update c.lanes id (some { ch with localId := id }.lane) := by
  obtain ⟨-, hfree, hplaced, -⟩ := (ht.alloc ch).of_ok halloc
  refine ⟨by rw [Connection.lanes, hfree, Option.map_none], ?_⟩
  funext j
  rw [Connection.lanes]
  by_cases hj : j = id
  · subst hj
    rw [hplaced.self, Function.update_self, Option.map_some]
  · rw [hplaced.other j hj, Function.update_of_ne hj, Connection.lanes]

end Lanes

-- ============================================================================
-- Parcels
-- ============================================================================

/-- The parcel in a payload. -/
def parcel (payload : Bytes) : Option (Parcel UInt32) :=
  ((do
    let (t, p) ← Proc.call Parser.u8 (.new payload)
    match MsgType.ofCode t with
    | some .channelOpen => do
        let (typ, p) ← Proc.call Parser.str p
        let (sender, p) ← Proc.call Parser.u32 p
        let (window, _) ← Proc.call Parser.u32 p
        return if typ = "direct-tcpip" then some (.ask sender window.toNat) else none
    | some .channelOpenConfirmation => do
        let (id, p) ← Proc.call Parser.u32 p
        let (sender, p) ← Proc.call Parser.u32 p
        let (window, _) ← Proc.call Parser.u32 p
        return some (.confirm id sender window.toNat)
    | some .channelOpenFailure => do
        let (id, _) ← Proc.call Parser.u32 p
        return some (.refuse id)
    | some .channelWindowAdjust => do
        let (id, p) ← Proc.call Parser.u32 p
        let (add, _) ← Proc.call Parser.u32 p
        return some (.credit id add.toNat)
    | some .channelData => do
        let (id, p) ← Proc.call Parser.u32 p
        let (data, _) ← Proc.call Parser.bytes p
        return some (.data id data.length)
    | _ => return none : Proc Unit Error (Option (Parcel UInt32))) ()).value?.join

/-- No parcel. -/
def FlowFree (p : Bytes) : Prop := ∀ m ∈ MsgType.flow, ¬IsMsg m p

/-- A parcel, or a message that has nothing to do with opens, data and credit. -/
def Known (p : Bytes) : Prop := FlowFree p ∨ (parcel p).isSome = true

section Reading

variable {p r : Bytes} {m : MsgType}

theorem flowFree_of_isMsg (hm : IsMsg m p) (hnot : m ∉ MsgType.flow) : FlowFree p :=
  fun _ hmem hm' => hnot (hm.unique hm' ▸ hmem)

theorem flowFree_cons (hnot : m ∉ MsgType.flow) : FlowFree (m.code :: r) :=
  flowFree_of_isMsg (m := m) rfl hnot

/-- A message number, as `parcel` reads it. -/
theorem parcel_code (m : MsgType) (r : Bytes) : ∃ p' : Parser, p'.rest = r ∧
    (Proc.call Parser.u8 (.new (m.code :: r)) : Proc Unit Error (UInt8 × Parser)) ()
      = .ok (m.code, p') () := by
  obtain ⟨p', he, hr⟩ := Parser.call_code (σ := Unit) m r ()
  exact ⟨p', hr, he⟩

theorem parcel_flowFree (h : FlowFree p) : parcel p = none := by
  cases p with
  | nil => rfl
  | cons t r =>
    cases hm : MsgType.ofCode t with
    | none =>
      obtain ⟨p', e0, -⟩ := Parser.call_reads (Parser.reads_u8 t) (p := .new (t :: r)) (r := r) rfl ()
      unfold parcel
      rw [Proc.bind_of_ok e0]
      dsimp only
      rw [hm]
      rfl
    | some m =>
      obtain rfl := MsgType.code_of_ofCode hm
      have hnot : m ∉ MsgType.flow := fun hmem => h m hmem rfl
      obtain ⟨p', -, e0⟩ := parcel_code m r
      unfold parcel
      rw [Proc.bind_of_ok e0]
      dsimp only
      rw [hm]
      cases m with
      | channelOpen | channelOpenConfirmation | channelOpenFailure | channelWindowAdjust
      | channelData => exact absurd (by decide) hnot
      | _ => rfl

theorem parcel_extended (r : Bytes) : parcel (MsgType.channelExtendedData.code :: r) = none := by
  obtain ⟨p', -, e0⟩ := parcel_code .channelExtendedData r
  unfold parcel
  rw [Proc.bind_of_ok e0]
  rfl

theorem parcel_open {typ : String} (sender window : UInt32)
    (htyp : (strBytes typ).length < 2 ^ 32) :
    parcel (MsgType.channelOpen.code :: (putStr typ ++ putU32 sender ++ putU32 window ++ r))
      = if typ = "direct-tcpip" then some (.ask sender window.toNat) else none := by
  obtain ⟨p0, h0, e0⟩ := parcel_code .channelOpen (putStr typ ++ putU32 sender ++ putU32 window ++ r)
  simp only [List.append_assoc] at h0
  obtain ⟨p1, e1, h1⟩ := Parser.call_reads (Parser.reads_str htyp) h0 ()
  obtain ⟨p2, e2, h2⟩ := Parser.call_reads (Parser.reads_u32 sender) h1 ()
  obtain ⟨p3, e3, -⟩ := Parser.call_reads (Parser.reads_u32 window) h2 ()
  unfold parcel
  rw [Proc.bind_of_ok e0]
  dsimp only
  rw [MsgType.ofCode_code]
  simp only [Proc.bind_of_ok e1, Proc.bind_of_ok e2, Proc.bind_of_ok e3]
  rfl

/-- No parcel opens a channel of another type. -/
theorem parcel_unknownType {typ : String} (sender : UInt32)
    (htyp : (strBytes typ).length < 2 ^ 32) (ht : typ ≠ "direct-tcpip") :
    parcel (MsgType.channelOpen.code :: (putStr typ ++ putU32 sender ++ r)) = none := by
  obtain ⟨p0, h0, e0⟩ := parcel_code .channelOpen (putStr typ ++ putU32 sender ++ r)
  simp only [List.append_assoc] at h0
  obtain ⟨p1, e1, h1⟩ := Parser.call_reads (Parser.reads_str htyp) h0 ()
  obtain ⟨p2, e2, -⟩ := Parser.call_reads (Parser.reads_u32 sender) h1 ()
  unfold parcel
  rw [Proc.bind_of_ok e0]
  dsimp only
  rw [MsgType.ofCode_code]
  simp only [Proc.bind_of_ok e1, Proc.bind_of_ok e2, if_neg ht]
  -- the window may be missing
  generalize (Proc.call Parser.u32 p2 : Proc Unit Error (UInt32 × Parser)) = window
  rw [Proc.bind_apply]
  cases window () <;> rfl

theorem parcel_confirmation (id sender window : UInt32) :
    parcel (MsgType.channelOpenConfirmation.code ::
        (putU32 id ++ putU32 sender ++ putU32 window ++ r))
      = some (.confirm id sender window.toNat) := by
  obtain ⟨p0, h0, e0⟩ := parcel_code .channelOpenConfirmation
    (putU32 id ++ putU32 sender ++ putU32 window ++ r)
  simp only [List.append_assoc] at h0
  obtain ⟨p1, e1, h1⟩ := Parser.call_reads (Parser.reads_u32 id) h0 ()
  obtain ⟨p2, e2, h2⟩ := Parser.call_reads (Parser.reads_u32 sender) h1 ()
  obtain ⟨p3, e3, -⟩ := Parser.call_reads (Parser.reads_u32 window) h2 ()
  unfold parcel
  rw [Proc.bind_of_ok e0]
  dsimp only
  rw [MsgType.ofCode_code]
  simp only [Proc.bind_of_ok e1, Proc.bind_of_ok e2, Proc.bind_of_ok e3]
  rfl

theorem parcel_failure (id : UInt32) :
    parcel (MsgType.channelOpenFailure.code :: (putU32 id ++ r)) = some (.refuse id) := by
  obtain ⟨p0, h0, e0⟩ := parcel_code .channelOpenFailure (putU32 id ++ r)
  obtain ⟨p1, e1, -⟩ := Parser.call_reads (Parser.reads_u32 id) h0 ()
  unfold parcel
  rw [Proc.bind_of_ok e0]
  dsimp only
  rw [MsgType.ofCode_code]
  simp only [Proc.bind_of_ok e1]
  rfl

theorem parcel_adjust (id add : UInt32) :
    parcel (MsgType.channelWindowAdjust.code :: (putU32 id ++ putU32 add ++ r))
      = some (.credit id add.toNat) := by
  obtain ⟨p0, h0, e0⟩ := parcel_code .channelWindowAdjust (putU32 id ++ putU32 add ++ r)
  simp only [List.append_assoc] at h0
  obtain ⟨p1, e1, h1⟩ := Parser.call_reads (Parser.reads_u32 id) h0 ()
  obtain ⟨p2, e2, -⟩ := Parser.call_reads (Parser.reads_u32 add) h1 ()
  unfold parcel
  rw [Proc.bind_of_ok e0]
  dsimp only
  rw [MsgType.ofCode_code]
  simp only [Proc.bind_of_ok e1, Proc.bind_of_ok e2]
  rfl

theorem parcel_data (id : UInt32) {data : Bytes} (hlen : data.length < 2 ^ 32) :
    parcel (MsgType.channelData.code :: (putU32 id ++ putBytes data ++ r))
      = some (.data id data.length) := by
  obtain ⟨p0, h0, e0⟩ := parcel_code .channelData (putU32 id ++ putBytes data ++ r)
  simp only [List.append_assoc] at h0
  obtain ⟨p1, e1, h1⟩ := Parser.call_reads (Parser.reads_u32 id) h0 ()
  obtain ⟨p2, e2, -⟩ := Parser.call_reads (Parser.reads_bytes hlen) h1 ()
  unfold parcel
  rw [Proc.bind_of_ok e0]
  dsimp only
  rw [MsgType.ofCode_code]
  simp only [Proc.bind_of_ok e1, Proc.bind_of_ok e2]
  rfl

end Reading

-- ============================================================================
-- The parcels that are sent
-- ============================================================================

theorem parcel_channelOpen (id window maxPacket : UInt32) (host : String) (port : UInt32) :
    parcel (Msg.channelOpen id window maxPacket host port) = some (.ask id window.toNat) := by
  have htyp : (strBytes "direct-tcpip").length < 2 ^ 32 := by decide
  have h := parcel_open (r := putU32 maxPacket ++ putStr host ++ putU32 port ++ putStr "127.0.0.1"
    ++ putU32 0) id window htyp
  rw [if_pos rfl] at h
  rw [← h, Msg.channelOpen]
  simp only [List.append_assoc]

theorem parcel_openConfirmation (remote id window maxPacket : UInt32) :
    parcel (Msg.openConfirmation remote id window maxPacket)
      = some (.confirm remote id window.toNat) := parcel_confirmation remote id window

theorem parcel_openFailure (remote reason : UInt32) (msg : String) :
    parcel (Msg.openFailure remote reason msg) = some (.refuse remote) := by
  have h := parcel_failure (r := putU32 reason ++ putStr msg ++ putStr "") remote
  rw [← h, Msg.openFailure]
  simp only [List.append_assoc]

theorem parcel_windowAdjust (remote add : UInt32) :
    parcel (Msg.windowAdjust remote add) = some (.credit remote add.toNat) := by
  have h := parcel_adjust (r := []) remote add
  rw [List.append_nil] at h
  exact h

theorem parcel_channelData (remote : UInt32) {data : Bytes} (hlen : data.length < 2 ^ 32) :
    parcel (Msg.channelData remote data) = some (.data remote data.length) := by
  have h := parcel_data (r := []) remote hlen
  rw [List.append_nil] at h
  exact h

end Ssproxy
