/-
  Ssproxy.Message

  The seven messages by which two connections work on a channel.  `ChannelMsg`
  is what such a message says; the encoders of the channel calls put it into a
  payload, and `handle_payload` of the peer finds the same values in it.
-/

import Ssproxy.Codec
import Ssproxy.Laws
import Ssproxy.Refine.Channels
import Ssproxy.Refine.Run
import Ssproxy.Machine.Slots

namespace Ssproxy

open Lib Wire Connection Proc

open Traced (read update observe)

-- ============================================================================
-- What a channel message says
-- ============================================================================

/-- A message about a channel; `sender` and `recipient` are the channel ids of
    the two sides. -/
inductive ChannelMsg where
  | opening (sender window maxPacket : UInt32) (host : String) (port : UInt32)
  | confirmation (recipient sender window maxPacket : UInt32)
  | failure (recipient reason : UInt32) (message : String)
  | adjust (recipient add : UInt32)
  | data (recipient : UInt32) (bytes : Bytes)
  | eof (recipient : UInt32)
  | close (recipient : UInt32)

namespace ChannelMsg

def encode : ChannelMsg → Bytes
  | opening sender window maxPacket host port => Msg.channelOpen sender window maxPacket host port
  | confirmation recipient sender window maxPacket =>
      Msg.openConfirmation recipient sender window maxPacket
  | failure recipient reason message => Msg.openFailure recipient reason message
  | adjust recipient add => Msg.windowAdjust recipient add
  | data recipient bytes => Msg.channelData recipient bytes
  | eof recipient => Msg.channelEof recipient
  | close recipient => Msg.channelClose recipient

/-- Every string in it has a length that a `u32` holds. -/
def Fits : ChannelMsg → Prop
  | opening _ _ _ host _ => (strBytes host).length < 2 ^ 32
  | failure _ _ message => (strBytes message).length < 2 ^ 32
  | data _ bytes => bytes.length < 2 ^ 32
  | _ => True

/-- A peer that the message is meant for. -/
def Addresses (c : Connection) : ChannelMsg → Prop
  | opening _ _ _ _ _ => c.authed = true ∧
      (c.channels.free ≠ [] ∨ c.channels.slots.length < c.channels.maxChannels.toNat)
  | data recipient bytes => ∃ ch, c.channels.get? recipient = some ch ∧
      bytes.length ≤ ch.recvWindow.toNat
  | confirmation recipient _ _ _ | failure recipient _ _ | adjust recipient _ | eof recipient
  | close recipient => (c.channels.get? recipient).isSome = true

end ChannelMsg

/-- Of the deferred data of `ch` the part `sent` was taken and paid for out of
    the window `w`. -/
def Channel.Spent (ch ch' : Channel) (w : Nat) : Prop :=
  ∃ sent, ch.pendingOut.flatten = sent ++ ch'.pendingOut.flatten ∧
    ch'.sendWindow.toNat + sent.length = w

/-- What the message says is in the channel record of `c'` and in its last
    event; `c` is the peer before. -/
def ChannelMsg.Arrived (c c' : Connection) : ChannelMsg → Prop
  | opening sender window maxPacket host port => ∃ id ch, c'.channels.get? id = some ch ∧
      ch.remoteId = some sender ∧ ch.sendWindow = window ∧ ch.maxRemotePacket = maxPacket ∧
      ch.host = some host ∧ ch.port = port ∧ c'.events = c.events ++ [.openDirectTcpIp id host port]
  | confirmation recipient sender window maxPacket => ∃ ch ch',
      c.channels.get? recipient = some ch ∧ c'.channels.get? recipient = some ch' ∧
      ch'.remoteId = some sender ∧ ch'.maxRemotePacket = maxPacket ∧
      ch.Spent ch' window.toNat ∧ c'.events = c.events ++ [.channelOpenConfirmation recipient]
  | failure recipient reason message => c'.channels.get? recipient = none ∧
      c'.events = c.events ++ [.channelOpenFailure recipient reason message]
  | adjust recipient add => ∃ ch ch', c.channels.get? recipient = some ch ∧
      c'.channels.get? recipient = some ch' ∧
      ch.Spent ch' (min (ch.sendWindow.toNat + add.toNat) (2 ^ 32 - 1)) ∧ c'.events = c.events
  | data recipient bytes => ∃ ch ch', c.channels.get? recipient = some ch ∧
      c'.channels.get? recipient = some ch' ∧ ch'.inQ = ch.inQ ++ [bytes] ∧
      ch'.recvWindow.toNat + bytes.length = ch.recvWindow.toNat ∧
      c'.events = c.events ++ [.channelData recipient]
  | eof recipient => (∃ ch, c'.channels.get? recipient = some ch ∧ ch.gotEof = true) ∧
      c'.events = c.events ++ [.channelEof recipient]
  | close recipient => (∀ ch, c'.channels.get? recipient = some ch →
      ch.gotEof = true ∧ ch.gotClose = true) ∧ c'.events = c.events ++ [.channelClose recipient]

variable [CryptoLib] {c c' c1 : Conn} {id : UInt32}

-- ============================================================================
-- The flush behind a message that brings credit
-- ============================================================================

omit [CryptoLib] in
theorem Channel.Spent.refl (ch : Channel) : ch.Spent ch ch.sendWindow.toNat :=
  ⟨[], rfl, rfl⟩

omit [CryptoLib] in
/-- A round of `flush_pending` pays for what it takes. -/
theorem spent_flushed {ch : Channel} {front : Bytes} {queue : List Bytes}
    (hp : ch.pendingOut = front :: queue) :
    ch.Spent (flushed ch front queue (flushTake ch front)) ch.sendWindow.toNat := by
  have hlen : (front.take (flushTake ch front)).length ≤ ch.sendWindow.toNat := by
    rw [List.length_take]
    unfold flushTake
    omega
  refine ⟨front.take (flushTake ch front), ?_, ?_⟩
  · rw [hp, flushed]
    dsimp only
    split
    · rename_i hall
      rw [List.take_of_length_le hall, List.flatten_cons]
    · rw [List.flatten_cons, List.flatten_cons, ← List.append_assoc, List.take_append_drop]
  · have hlt := ch.sendWindow.toNat_lt
    have hnat : (UInt32.ofNat (front.take (flushTake ch front)).length).toNat
        = (front.take (flushTake ch front)).length := by
      rw [UInt32.toNat_ofNat', Nat.mod_eq_of_lt (by omega)]
    have hle : UInt32.ofNat (front.take (flushTake ch front)).length ≤ ch.sendWindow := by
      rw [UInt32.le_iff_toNat_le, hnat]
      exact hlen
    rw [flushed]
    dsimp only
    rw [UInt32.toNat_sub_of_le _ _ hle, hnat]
    omega

/-- From `c` to `c'` only deferred data of channel `id` was sent. -/
structure Flushes (id : UInt32) (c c' : Conn) : Prop where
  events : c'.now.events = c.now.events
  record : ∀ ch, c.now.channels.get? id = some ch → ∃ ch', c'.now.channels.get? id = some ch' ∧
    ch'.remoteId = ch.remoteId ∧ ch'.maxRemotePacket = ch.maxRemotePacket ∧
    ch.Spent ch' ch.sendWindow.toNat

namespace Flushes

omit [CryptoLib] in
theorem refl (id : UInt32) (c : Conn) : Flushes id c c :=
  ⟨rfl, fun ch hch => ⟨ch, hch, rfl, rfl, .refl ch⟩⟩

omit [CryptoLib] in
theorem trans (h : Flushes id c c1) (h' : Flushes id c1 c') : Flushes id c c' := by
  refine ⟨h'.events.trans h.events, fun ch hch => ?_⟩
  obtain ⟨ch1, hch1, hr1, hm1, sent1, hdata1, hpaid1⟩ := h.record ch hch
  obtain ⟨ch2, hch2, hr2, hm2, sent2, hdata2, hpaid2⟩ := h'.record ch1 hch1
  refine ⟨ch2, hch2, hr2.trans hr1, hm2.trans hm1, sent1 ++ sent2, ?_, ?_⟩
  · rw [hdata1, hdata2, List.append_assoc]
  · rw [List.length_append]
    omega

end Flushes

theorem flushOnce_flushes (id : UInt32) (c : Conn) (hgate : c.now.kexBlocksApp = false) :
    (flushOnce id c).Sat (fun _ c' => Flushes id c c' ∧ c'.now.kexBlocksApp = false)
      (fun _ _ => False) := by
  by_cases hsend : ∃ ch, c.now.channels.get? id = some ch ∧ Flushable c.now ch
  · obtain ⟨ch, hch, r, front, queue, hcan, hp, hne⟩ := hsend
    refine (flushOnce_send id hch hcan hp hne).mono ?_ fun _ _ h => h
    rintro again c' ⟨-, hgate', -, -, hevents, hchannels⟩
    refine ⟨⟨hevents, fun ch0 hch0 => ?_⟩, hgate'⟩
    cases hch.symm.trans hch0
    refine ⟨flushed ch front queue (flushTake ch front), ?_, rfl, rfl, spent_flushed hp⟩
    rw [hchannels, ChannelTable.get?_set_self hch]
  · rw [flushOnce_idle id hgate fun ch hch hf => hsend ⟨ch, hch, hf⟩]
    exact ⟨.refl id c, hgate⟩

theorem flushPending_flushes (id : UInt32) (c : Conn) :
    (flushPending id c).Sat (fun _ c' => Flushes id c c') (fun _ _ => False) := by
  unfold flushPending
  rw [Proc.bind_of_ok (Traced.read_apply c), Proc.ite_apply]
  split
  · exact .refl id c
  · rename_i hgate
    refine (Proc.sat_loop (I := fun c' => Flushes id c c' ∧ c'.now.kexBlocksApp = false)
      (E := fun _ _ => False) ?_ _ c ⟨.refl id c, eq_false_of_ne_true hgate⟩).mono
        (fun _ _ h => h.1) fun _ _ h => h
    rintro c1 ⟨hs, hg⟩
    exact (flushOnce_flushes id c1 hg).mono (fun _ _ h => ⟨hs.trans h.1, h.2⟩) fun _ _ h => h

-- ============================================================================
-- The decoders
-- ============================================================================

/-- The arms of `handle_payload` for the channel messages. -/
theorem handlePayload_channel (r : Bytes) :
    handlePayload (MsgType.channelOpen.code :: r) = onChannelOpen (MsgType.channelOpen.code :: r) ∧
    handlePayload (MsgType.channelOpenConfirmation.code :: r)
      = onOpenConfirm (MsgType.channelOpenConfirmation.code :: r) ∧
    handlePayload (MsgType.channelOpenFailure.code :: r)
      = onOpenFail (MsgType.channelOpenFailure.code :: r) ∧
    handlePayload (MsgType.channelWindowAdjust.code :: r)
      = onWindowAdjust (MsgType.channelWindowAdjust.code :: r) ∧
    handlePayload (MsgType.channelData.code :: r) = onChannelData (MsgType.channelData.code :: r) ∧
    handlePayload (MsgType.channelEof.code :: r) = onChannelEof (MsgType.channelEof.code :: r) ∧
    handlePayload (MsgType.channelClose.code :: r)
      = onChannelClose (MsgType.channelClose.code :: r) :=
  ⟨rfl, rfl, rfl, rfl, rfl, rfl, rfl⟩

/-- What `handle_payload` does with a message that is meant for the peer. -/
abbrev Takes (c : Conn) (m : ChannelMsg) : Prop :=
  ∃ c', handlePayload m.encode c = .ok () c' ∧ m.Arrived c.now c'.now

theorem takes_confirmation {ch : Channel} (recipient sender window maxPacket : UInt32)
    (hch : c.now.channels.get? recipient = some ch) :
    Takes c (.confirmation recipient sender window maxPacket) := by
  obtain ⟨p0, e0, h0⟩ := Parser.call_code .channelOpenConfirmation
    (putU32 recipient ++ putU32 sender ++ putU32 window ++ putU32 maxPacket) c
  simp only [List.append_assoc] at h0
  obtain ⟨p1, e1, h1⟩ := Parser.call_reads (Parser.reads_u32 recipient) h0 c
  obtain ⟨p2, e2, h2⟩ := Parser.call_reads (Parser.reads_u32 sender) h1 c
  obtain ⟨p3, e3, h3⟩ := Parser.call_reads (Parser.reads_u32 window) h2 c
  obtain ⟨p4, e4, -⟩ := Parser.call_reads (Parser.reads_u32 maxPacket)
    (h3.trans (List.append_nil _).symm) c
  -- the record is written, and what was deferred is flushed
  let c1 := withEvent (withChannel c recipient
    { ch with
      remoteId := some sender
      sendWindow := window
      maxRemotePacket := maxPacket
      openConfirmed := true }) (.channelOpenConfirmation recipient)
  obtain ⟨c', hflush, hflushes⟩ := (flushPending_flushes recipient c1).exists_ok
  obtain ⟨ch', hch', hr, hm, hspent⟩ := hflushes.record _ (ChannelTable.get?_set_self hch)
  refine ⟨c', ?_, ch, ch', hch, hch', hr, hm, hspent, hflushes.events⟩
  unfold ChannelMsg.encode Msg.openConfirmation
  rw [(handlePayload_channel _).2.1]
  unfold onOpenConfirm
  simp only [Proc.bind_apply, Outcome.bind_ok, e0, e1, e2, e3, e4, getChannel_some hch,
    setChannel_apply, pushEvent_apply]
  exact hflush

omit [CryptoLib] in
theorem saturatingAdd32_toNat (a b : UInt32) :
    (saturatingAdd32 a b).toNat = min (a.toNat + b.toNat) (2 ^ 32 - 1) := by
  unfold saturatingAdd32
  split
  · rename_i hlt
    rw [UInt32.toNat_add, Nat.mod_eq_of_lt hlt]
    omega
  · rename_i hge
    rw [show (2 ^ 32 - 1 : UInt32).toNat = 2 ^ 32 - 1 from rfl]
    omega

theorem takes_adjust {ch : Channel} (recipient add : UInt32)
    (hch : c.now.channels.get? recipient = some ch) : Takes c (.adjust recipient add) := by
  obtain ⟨p0, e0, h0⟩ := Parser.call_code .channelWindowAdjust (putU32 recipient ++ putU32 add) c
  obtain ⟨p1, e1, h1⟩ := Parser.call_reads (Parser.reads_u32 recipient) h0 c
  obtain ⟨p2, e2, -⟩ := Parser.call_reads (Parser.reads_u32 add) (h1.trans (List.append_nil _).symm) c
  let c1 := withChannel c recipient { ch with sendWindow := saturatingAdd32 ch.sendWindow add }
  obtain ⟨c', hflush, hflushes⟩ := (flushPending_flushes recipient c1).exists_ok
  obtain ⟨ch', hch', -, -, hspent⟩ := hflushes.record _ (ChannelTable.get?_set_self hch)
  dsimp only at hspent
  rw [saturatingAdd32_toNat] at hspent
  refine ⟨c', ?_, ch, ch', hch, hch', hspent, hflushes.events⟩
  unfold ChannelMsg.encode Msg.windowAdjust
  rw [(handlePayload_channel _).2.2.2.1]
  unfold onWindowAdjust
  simp only [Proc.bind_apply, Outcome.bind_ok, e0, e1, e2, getChannel_some hch, setChannel_apply]
  exact hflush

theorem takes_failure (recipient reason : UInt32) {message : String}
    (hlen : (strBytes message).length < 2 ^ 32) : Takes c (.failure recipient reason message) := by
  obtain ⟨p0, e0, h0⟩ := Parser.call_code .channelOpenFailure
    (putU32 recipient ++ putU32 reason ++ putStr message ++ putStr "") c
  simp only [List.append_assoc] at h0
  obtain ⟨p1, e1, h1⟩ := Parser.call_reads (Parser.reads_u32 recipient) h0 c
  obtain ⟨p2, e2, h2⟩ := Parser.call_reads (Parser.reads_u32 reason) h1 c
  obtain ⟨p3, e3, -⟩ := Parser.callOr_reads (d := "") (Parser.reads_str hlen) h2 c
  refine ⟨withEvent (withoutChannel c recipient) (.channelOpenFailure recipient reason message), ?_,
    ChannelTable.get?_release_self _ _, rfl⟩
  unfold ChannelMsg.encode Msg.openFailure
  rw [(handlePayload_channel _).2.2.1]
  unfold onOpenFail
  simp only [Proc.bind_apply, Outcome.bind_ok, e0, e1, e2, e3, freeChannel_apply, pushEvent_apply]

theorem takes_eof {ch : Channel} (recipient : UInt32)
    (hch : c.now.channels.get? recipient = some ch) : Takes c (.eof recipient) := by
  obtain ⟨p0, e0, h0⟩ := Parser.call_code .channelEof (putU32 recipient) c
  obtain ⟨p1, e1, -⟩ := Parser.call_reads (Parser.reads_u32 recipient)
    (h0.trans (List.append_nil _).symm) c
  refine ⟨withEvent (withChannel c recipient { ch with gotEof := true }) (.channelEof recipient), ?_,
    ⟨_, ChannelTable.get?_set_self hch, rfl⟩, rfl⟩
  unfold ChannelMsg.encode Msg.channelEof
  rw [(handlePayload_channel _).2.2.2.2.2.1]
  unfold onChannelEof
  simp only [Proc.bind_apply, Outcome.bind_ok, e0, e1, Traced.read_apply, hch, setChannel_apply,
    pushEvent_apply]

omit [CryptoLib] in
/-- With room in the table a slot is filled. -/
theorem allocChannel_ok (ch : Channel) (ht : TableOk c.now.channels)
    (hroom : c.now.channels.free ≠ [] ∨
      c.now.channels.slots.length < c.now.channels.maxChannels.toNat) :
    ∃ id c', allocChannel ch c = .ok id c' ∧
      c'.now.channels.get? id = some { ch with localId := id } ∧ c'.now.events = c.now.events := by
  have hsat := ChannelTable.alloc_sat ht ch
  unfold allocChannel
  cases ha : ChannelTable.alloc ch c.now.channels with
  | panic => exact absurd ha hsat.ne_panic
  | err e t =>
    rcases ChannelTable.alloc_cases ht ch with ⟨id, rest, -, h⟩ | ⟨id, -, -, -, h⟩ | ⟨hf, hfull, -⟩
    · cases ha.symm.trans h
    · cases ha.symm.trans h
    · exact absurd hroom (not_or.mpr ⟨fun hne => hne hf, by omega⟩)
  | ok id t =>
    refine ⟨id, ⟨{ c.now with channels := t }, c.log ++ [.opened id]⟩, ?_, (hsat.of_ok ha).self, rfl⟩
    rw [Proc.bind_apply]
    unfold Proc.focus
    rw [ha]
    rfl

theorem takes_opening (sender window maxPacket port : UInt32) {host : String}
    (hwf : WellFormed c) (hauth : c.now.authed = true)
    (hroom : c.now.channels.free ≠ [] ∨
      c.now.channels.slots.length < c.now.channels.maxChannels.toNat)
    (hlen : (strBytes host).length < 2 ^ 32) :
    Takes c (.opening sender window maxPacket host port) := by
  obtain ⟨p0, e0, h0⟩ := Parser.call_code .channelOpen (putStr "direct-tcpip" ++ putU32 sender
    ++ putU32 window ++ putU32 maxPacket ++ putStr host ++ putU32 port ++ putStr "127.0.0.1"
    ++ putU32 0) c
  simp only [List.append_assoc] at h0
  obtain ⟨p1, e1, h1⟩ := Parser.call_reads (Parser.reads_str (by decide)) h0 c
  obtain ⟨p2, e2, h2⟩ := Parser.call_reads (Parser.reads_u32 sender) h1 c
  obtain ⟨p3, e3, h3⟩ := Parser.call_reads (Parser.reads_u32 window) h2 c
  obtain ⟨p4, e4, h4⟩ := Parser.call_reads (Parser.reads_u32 maxPacket) h3 c
  obtain ⟨p5, e5, h5⟩ := Parser.call_reads (Parser.reads_str hlen) h4 c
  obtain ⟨p6, e6, h6⟩ := Parser.call_reads (Parser.reads_u32 port) h5 c
  obtain ⟨p7, e7, h7⟩ := Parser.call_reads (Parser.reads_str (by decide)) h6 c
  obtain ⟨p8, e8, -⟩ := Parser.call_reads (Parser.reads_u32 0) (h7.trans (List.append_nil _).symm) c
  obtain ⟨id, c1, halloc, hch, hevents⟩ := allocChannel_ok
    { Channel.new 0 .directTcpIp c.now.window c.now.maxPacket window maxPacket with
      remoteId := some sender, host := some host, port := port } hwf.table hroom
  have hready : (Proc.failIf (c.now.authed = false) (.protocol "channel before auth") : ConnM Unit) c
      = .ok () c := by
    rw [Proc.failIf_apply, if_neg (by simp [hauth])]
  refine ⟨withEvent c1 (.openDirectTcpIp id host port), ?_, id, _, hch, rfl, rfl, rfl, rfl, rfl, ?_⟩
  · unfold ChannelMsg.encode Msg.channelOpen
    rw [(handlePayload_channel _).1]
    unfold onChannelOpen
    refine (Proc.bind_of_ok (Traced.read_apply c)).trans ((Proc.bind_of_ok hready).trans ?_)
    refine (Proc.bind_of_ok e0).trans ((Proc.bind_of_ok e1).trans ((Proc.bind_of_ok e2).trans
      ((Proc.bind_of_ok e3).trans ((Proc.bind_of_ok e4).trans ?_))))
    dsimp only
    rw [if_neg (by decide), if_pos rfl]
    refine (Proc.bind_of_ok e5).trans ((Proc.bind_of_ok e6).trans ((Proc.bind_of_ok e7).trans
      ((Proc.bind_of_ok e8).trans ((Proc.bind_of_ok halloc).trans ?_))))
    exact pushEvent_apply _ _
  · show c1.now.events ++ _ = _
    rw [hevents]


/-- `on_channel_data` cuts the payload itself. -/
theorem takes_data {ch : Channel} (recipient : UInt32) {bytes : Bytes}
    (hch : c.now.channels.get? recipient = some ch) (hlen : bytes.length < 2 ^ 32)
    (hroom : bytes.length ≤ ch.recvWindow.toNat) : Takes c (.data recipient bytes) := by
  have hnat : (UInt32.ofNat bytes.length).toNat = bytes.length := toNat_length hlen
  have hle : UInt32.ofNat bytes.length ≤ ch.recvWindow := by
    rw [UInt32.le_iff_toNat_le, hnat]
    exact hroom
  generalize hpayload : Msg.channelData recipient bytes = payload
  have hsize : payload.length = 9 + bytes.length := by
    rw [← hpayload, length_channelData]
  have hid : (payload.drop 1).take (5 - 1) = beBytes recipient := by
    rw [← hpayload]
    exact List.take_left' rfl
  have hcount : (payload.drop 5).take (9 - 5) = beBytes (UInt32.ofNat bytes.length) := by
    rw [← hpayload]
    show (beBytes (UInt32.ofNat bytes.length) ++ bytes).take 4 = _
    exact List.take_left' rfl
  have hdata : (payload.drop 9).take (9 + bytes.length - 9) = bytes := by
    rw [Nat.add_sub_cancel_left, ← hpayload]
    exact List.take_length
  have hbe : ∀ v : UInt32, (beU32 (beBytes v) : ConnM UInt32) c = .ok v c := by
    intro v
    show Outcome.ok _ c = _
    rw [ofBe_beBytes]
  let taken : Channel :=
    { ch with
      recvWindow := ch.recvWindow - UInt32.ofNat bytes.length
      inQBytes := ch.inQBytes + bytes.length
      inQ := ch.inQ ++ [bytes] }
  have hpush : (Proc.call (Channel.pushIn bytes) ch : ConnM (Unit × Channel)) c
      = .ok ((), taken) c := by
    unfold Proc.call Channel.pushIn
    simp only [Proc.bind_apply, Proc.get_apply, Outcome.bind_ok, Proc.ite_apply,
      if_neg (UInt32.not_lt.mpr hle), Proc.checkedSub32_of_le hle, Proc.modify_apply]
    rfl
  have hpaid : taken.recvWindow.toNat + bytes.length = ch.recvWindow.toNat := by
    show (ch.recvWindow - UInt32.ofNat bytes.length).toNat + _ = _
    rw [UInt32.toNat_sub_of_le _ _ hle, hnat]
    omega
  refine ⟨withEvent (withChannel c recipient taken) (.channelData recipient), ?_, ch, taken, hch,
    ChannelTable.get?_set_self hch, rfl, hpaid, rfl⟩
  have harm : handlePayload payload = onChannelData payload := by
    rw [← hpayload]
    exact (handlePayload_channel _).2.2.2.2.1
  unfold ChannelMsg.encode
  dsimp only
  rw [hpayload, harm]
  have hlong : (Proc.failIf (payload.length < 9) (.protocol "short channel data") : ConnM Unit) c
      = .ok () c := by
    rw [Proc.failIf_apply, if_neg (by omega)]
  have hwhole : (Proc.failIf (payload.length < 9 + bytes.length)
      (.protocol "truncated channel data") : ConnM Unit) c = .ok () c := by
    rw [Proc.failIf_apply, if_neg (by omega)]
  have hslice : ∀ lo hi, lo ≤ hi → hi ≤ payload.length →
      (Proc.slice payload lo hi : ConnM Bytes) c = .ok ((payload.drop lo).take (hi - lo)) c :=
    fun _ _ hlo hhi => Proc.slice_of_le hlo hhi c
  unfold onChannelData
  refine (Proc.bind_of_ok hlong).trans ((Proc.bind_of_ok (hslice 1 5 (by omega) (by omega))).trans ?_)
  rw [hid]
  refine (Proc.bind_of_ok (hbe recipient)).trans ?_
  refine (Proc.bind_of_ok (hslice 5 9 (by omega) (by omega))).trans ?_
  rw [hcount]
  refine (Proc.bind_of_ok (hbe _)).trans ?_
  rw [hnat]
  refine (Proc.bind_of_ok hwhole).trans ?_
  refine (Proc.bind_of_ok (hslice 9 _ (Nat.le_add_right _ _) (Nat.le_of_eq hsize.symm))).trans ?_
  rw [hdata]
  unfold deliver
  refine (Proc.bind_of_ok (getChannel_some hch)).trans ((Proc.bind_of_ok hpush).trans ?_)
  exact (Proc.bind_of_ok (setChannel_apply _ _ c)).trans (pushEvent_apply _ _)

/-- No event was added to `evs`, and what is left of channel `id` is at its end. -/
structure PeerClosed (id : UInt32) (evs : List Event) (c : Conn) : Prop where
  events : c.now.events = evs
  record : ∀ ch, c.now.channels.get? id = some ch → ch.gotEof = true ∧ ch.gotClose = true

namespace PeerClosed

variable {evs : List Event} {ch ch' : Channel}

omit [CryptoLib] in
theorem set (h : c.now.events = evs) (hch : c.now.channels.get? id = some ch)
    (he : ch'.gotEof = true) (hc : ch'.gotClose = true) : PeerClosed id evs (withChannel c id ch') := by
  refine ⟨h, fun ch1 hch1 => ?_⟩
  cases (ChannelTable.get?_set_self hch).symm.trans hch1
  exact ⟨he, hc⟩

omit [CryptoLib] in
theorem release (h : c.now.events = evs) : PeerClosed id evs (withoutChannel c id) := by
  refine ⟨h, fun ch hch => ?_⟩
  cases (ChannelTable.get?_release_self c.now.channels id).symm.trans hch

theorem queues {owner : Option UInt32} {payload : Bytes} (h : PeerClosed id evs c)
    (hq : Queues owner payload c c') : PeerClosed id evs c' := by
  have hch := hq.channels
  have hev : c'.now.events = c.now.events := by
    cases hq
    rfl
  refine ⟨hev.trans h.events, fun ch hch' => h.record ch ?_⟩
  rwa [← hch]

theorem emitCloseIfReady (h : PeerClosed id evs c) :
    (Connection.emitCloseIfReady id c).Sat (fun _ c' => PeerClosed id evs c')
      (fun _ c' => PeerClosed id evs c') := by
  have hfree : ∀ c1 : Conn, PeerClosed id evs c1 → ((do
      let c ← Traced.read
      if (c.channels.get? id).any fun ch => ch.gotClose && ch.wireClose then freeChannel id
      else return () : ConnM Unit) c1).Sat (fun _ c' => PeerClosed id evs c')
        (fun _ c' => PeerClosed id evs c') := by
    intro c1 h1
    rw [Proc.bind_of_ok (Traced.read_apply c1), Proc.ite_apply]
    split
    · rw [freeChannel_apply]
      exact release h1.events
    · exact h1
  unfold Connection.emitCloseIfReady
  rw [Proc.bind_of_ok (Traced.read_apply c), Proc.ite_apply]
  split
  · exact h
  cases hch : c.now.channels.get? id with
  | none => exact h
  | some ch =>
    obtain ⟨he, hg⟩ := h.record ch hch
    dsimp only
    rw [Proc.ite_apply]
    split
    · exact h
    rw [Proc.ite_apply]
    split
    · rw [Proc.bind_of_ok (Proc.pure_apply _ c)]
      exact hfree c h
    · rw [Proc.bind_of_ok (setChannel_apply _ _ c), Proc.bind_of_ok (Proc.pure_apply _ _)]
      have h1 : PeerClosed id evs (withChannel c id { ch with wireClose := true, wireEof := true }) :=
        set h.events hch he hg
      refine Outcome.Sat.bind (R := fun _ c1 => PeerClosed id evs c1) (Proc.sat_ifSome ?_ ?_)
        fun _ c1 h1 => hfree c1 h1
      · exact fun _ => h1
      · intro r hr
        exact (queueMsg_short _ _ _ (by simp) (by simp)).mono (fun _ _ hq => h1.queues hq)
          fun _ _ h => h.elim

theorem sendClose (h : PeerClosed id evs c) :
    (Connection.sendClose id c).Sat (fun _ c' => PeerClosed id evs c')
      (fun _ c' => PeerClosed id evs c') := by
  unfold Connection.sendClose
  rw [Proc.bind_of_ok (Traced.read_apply c)]
  cases hch : c.now.channels.get? id with
  | none =>
    rw [Proc.bind_apply, getChannel_none hch]
    exact h
  | some ch =>
    obtain ⟨he, hg⟩ := h.record ch hch
    rw [Proc.bind_of_ok (getChannel_some hch), Proc.ite_apply]
    split
    · exact h
    · rw [Proc.bind_of_ok (setChannel_apply _ _ c), Proc.bind_of_ok (Traced.observe_apply _ _)]
      have h1 : PeerClosed id evs (withChannel c id { ch with sentClose := true, sentEof := true }) :=
        set h.events hch he hg
      exact emitCloseIfReady ⟨h1.events, h1.record⟩

end PeerClosed

theorem takes_close {ch : Channel} (recipient : UInt32)
    (hch : c.now.channels.get? recipient = some ch) : Takes c (.close recipient) := by
  obtain ⟨p0, e0, h0⟩ := Parser.call_code .channelClose (putU32 recipient) c
  obtain ⟨p1, e1, -⟩ := Parser.call_reads (Parser.reads_u32 recipient)
    (h0.trans (List.append_nil _).symm) c
  have h1 : PeerClosed recipient c.now.events
      (withChannel c recipient { ch with gotClose := true, gotEof := true }) :=
    .set rfl hch rfl rfl
  -- whichever call answers, it leaves the record as it has to be
  have hanswer : ∃ c2, PeerClosed recipient c.now.events c2 ∧
      (if !ch.sentClose then do
        Proc.ignore (sendClose recipient)
        pushEvent (.channelClose recipient)
      else do
        Proc.ignore (emitCloseIfReady recipient)
        pushEvent (.channelClose recipient) : ConnM Unit)
        (withChannel c recipient { ch with gotClose := true, gotEof := true })
        = .ok () (withEvent c2 (.channelClose recipient)) := by
    rw [Proc.ite_apply]
    split
    · have hreturns : Proc.Returns (fun _ c' => PeerClosed recipient c.now.events c')
          (Proc.ignore (sendClose recipient)) _ := Proc.Follows.ignore h1.sendClose
      obtain ⟨c2, hrun, h2⟩ := Outcome.Sat.exists_ok hreturns
      exact ⟨c2, h2, (Proc.bind_of_ok hrun).trans (pushEvent_apply _ _)⟩
    · have hreturns : Proc.Returns (fun _ c' => PeerClosed recipient c.now.events c')
          (Proc.ignore (emitCloseIfReady recipient)) _ := Proc.Follows.ignore h1.emitCloseIfReady
      obtain ⟨c2, hrun, h2⟩ := Outcome.Sat.exists_ok hreturns
      exact ⟨c2, h2, (Proc.bind_of_ok hrun).trans (pushEvent_apply _ _)⟩
  obtain ⟨c2, h2, hrun⟩ := hanswer
  refine ⟨withEvent c2 (.channelClose recipient), ?_, h2.record, ?_⟩
  · unfold ChannelMsg.encode Msg.channelClose
    rw [(handlePayload_channel _).2.2.2.2.2.2]
    unfold onChannelClose
    refine (Proc.bind_of_ok e0).trans ((Proc.bind_of_ok e1).trans
      ((Proc.bind_of_ok (Traced.read_apply c)).trans ?_))
    dsimp only
    rw [hch]
    exact (Proc.bind_of_ok (setChannel_apply _ _ c)).trans hrun
  · show c2.now.events ++ _ = _
    rw [h2.events]

-- ============================================================================
-- The encoders
-- ============================================================================

/-- The calls and emitters that build a channel message. -/
inductive Encoder where
  | openDirectTcpip (host : String) (port : UInt32)
  | confirmOpen (id : UInt32)
  | failOpen (id reason : UInt32) (msg : String)
  | sendChannelDataPkt (id remote : UInt32) (data : Bytes)
  | maybeAdjust (id : UInt32)
  | emitEofIfReady (id : UInt32)
  | emitCloseIfReady (id : UInt32)

namespace Encoder

/-- The call, with the id that `open_direct_tcpip` returns. -/
def run : Encoder → ConnM (Option UInt32)
  | openDirectTcpip host port => do
      let id ← Connection.openDirectTcpip host port
      return some id
  | confirmOpen id => do Connection.confirmOpen id; return none
  | failOpen id reason msg => do Connection.failOpen id reason msg; return none
  | sendChannelDataPkt id remote data => do
      Connection.sendChannelDataPkt id remote data
      return none
  | maybeAdjust id => do Connection.maybeAdjust id; return none
  | emitEofIfReady id => do Connection.emitEofIfReady id; return none
  | emitCloseIfReady id => do Connection.emitCloseIfReady id; return none

/-- The one message a call that returns `result` queues on connection `c`, or
    none where an emitter has nothing to send: the ids are the one returned, its
    own and the one the peer gave, the numbers are those of its record. -/
def message (c : Connection) (result : Option UInt32) : Encoder → Option ChannelMsg
  | openDirectTcpip host port =>
      result.map fun id => .opening id c.window c.maxPacket host port
  | confirmOpen id =>
      (c.channels.get? id).bind fun ch =>
        ch.remoteId.map fun r => .confirmation r id ch.recvMax ch.maxLocalPacket
  | failOpen id reason msg =>
      (c.channels.get? id).bind fun ch => ch.remoteId.map fun r => .failure r reason msg
  | sendChannelDataPkt _ remote data => some (.data remote data)
  | maybeAdjust id =>
      if c.kexBlocksApp then none
      else (c.channels.get? id).bind fun ch =>
        let add := ((ch.windowAdjustAmount () : Outcome Unit Error UInt32).value?).getD 0
        if add = 0 then none else ch.remoteId.map fun r => .adjust r add
  | emitEofIfReady id =>
      if c.kexBlocksApp then none
      else (c.channels.get? id).bind fun ch =>
        if !ch.sentEof || ch.wireEof then none else ch.remoteId.map .eof
  | emitCloseIfReady id =>
      if c.kexBlocksApp then none
      else (c.channels.get? id).bind fun ch =>
        if !ch.sentClose || ch.wireClose then none else ch.remoteId.map .close

/-- `open_direct_tcpip` returns the id of a slot that was empty, and of the
    channel it put there. -/
def Gives (c c' : Connection) (result : Option UInt32) : Encoder → Prop
  | openDirectTcpip host port => ∃ id ch, result = some id ∧ c.channels.get? id = none ∧
      c'.channels.get? id = some ch ∧ ch.recvMax = c.window ∧ ch.recvWindow = c.window ∧
      ch.maxLocalPacket = c.maxPacket ∧ ch.host = some host ∧ ch.port = port
  | _ => result = none

/-- Why the call may fail on connection `c`. -/
def FailsOn (c : Connection) : Encoder → Prop
  | openDirectTcpip host port => c.role ≠ .client ∨ c.authed = false ∨
      c.channels.lenActive = c.channels.maxChannels.toNat ∨
      ∃ id, c.TooLong (Msg.channelOpen id c.window c.maxPacket host port)
  | confirmOpen id => ∀ ch, c.channels.get? id = some ch → ch.remoteId = none
  | failOpen id reason msg => ∀ ch r, c.channels.get? id = some ch → ch.remoteId = some r →
      c.TooLong (Msg.openFailure r reason msg)
  | sendChannelDataPkt _ remote data => c.writeHard ≤ c.writeBytes ∨
      c.TooLong (Msg.channelData remote data)
  | maybeAdjust _ | emitEofIfReady _ | emitCloseIfReady _ => False

end Encoder

def Obs.queuedPayload : Obs → Option Bytes
  | .queued _ _ payload _ => some payload
  | _ => none

/-- The payloads queued, oldest first. -/
def queuedPayloads (log : List Obs) : List Bytes := log.filterMap Obs.queuedPayload

/-- Between `c` and `c'` the message `m` was queued, if there is one, and nothing
    else. -/
def Builds (m : Option ChannelMsg) (c c' : Conn) : Prop :=
  ∃ new, c'.log = c.log ++ new ∧ queuedPayloads new = (m.map ChannelMsg.encode).toList

namespace Builds

variable {m : Option ChannelMsg}

omit [CryptoLib] in
theorem of_log (h : c'.log = c.log) : Builds none c c' :=
  ⟨[], by rw [h, List.append_nil], rfl⟩

theorem queued {m : ChannelMsg} {owner : Option UInt32} (hq : Queues owner m.encode c1 c')
    (hlog : c1.log = c.log) : Builds (some m) c c' := by
  obtain ⟨wire, hw⟩ := hq.log
  exact ⟨_, by rw [hw, hlog], rfl⟩

omit [CryptoLib] in
theorem queuedPayloads_quiet {l : List Obs} (h : ∀ o ∈ l, o.isQueued = false) :
    queuedPayloads l = [] := by
  refine List.filterMap_eq_nil_iff.mpr fun o ho => ?_
  have hquiet := h o ho
  cases o with
  | queued => cases hquiet
  | _ => rfl

omit [CryptoLib] in
/-- What is no message may come before and after. -/
theorem amid {before after : List Obs} {c2 : Conn} (h : Builds m c1 c2)
    (hpre : c1.log = c.log ++ before) (hpost : c'.log = c2.log ++ after)
    (hbefore : ∀ o ∈ before, o.isQueued = false) (hafter : ∀ o ∈ after, o.isQueued = false) :
    Builds m c c' := by
  obtain ⟨new, hnew, hpayloads⟩ := h
  refine ⟨before ++ new ++ after, ?_, ?_⟩
  · rw [hpost, hnew, hpre]
    simp only [List.append_assoc]
  · unfold queuedPayloads at hpayloads ⊢
    rw [List.filterMap_append, List.filterMap_append, hpayloads]
    have hnone := queuedPayloads_quiet hbefore
    have hnone' := queuedPayloads_quiet hafter
    unfold queuedPayloads at hnone hnone'
    rw [hnone, hnone', List.nil_append, List.append_nil]

end Builds

omit [CryptoLib] in
theorem ChannelMsg.encode_ne_nil (m : ChannelMsg) : m.encode ≠ [] := by
  cases m <;> exact List.cons_ne_nil _ _

/-- `queue_msg` on the way of an encoder. -/
theorem queueMsg_builds {m : ChannelMsg} {owner : Option UInt32} {priority : Bool}
    (hlog : c1.log = c.log) :
    (queueMsg owner m.encode priority c1).Sat (fun _ c' => Builds (some m) c c')
      (fun _ c' => ((priority = false ∧ c1.now.writeHard ≤ c1.now.writeBytes) ∨
        c1.now.TooLong m.encode) ∧ Builds none c c') := by
  have hwhy : (queueMsg owner m.encode priority c1).Sat (fun _ _ => True) (fun _ _ =>
      (priority = false ∧ c1.now.writeHard ≤ c1.now.writeBytes) ∨ c1.now.TooLong m.encode) := by
    by_cases hroom : priority = true ∨ c1.now.writeBytes < c1.now.writeHard
    · rw [queueMsg_apply m.encode_ne_nil hroom]
      cases hseal : c1.now.sendCipher.sealBuf c1.now.sendSeq (c1.now.frame m.encode)
          (List.replicate c1.now.sendCipher.kind.tagLen 0) with
      | error e => exact .inr ((c1.now.seal_refuses m.encode).mp ⟨e, hseal⟩)
      | ok r => trivial
    · obtain ⟨hlow, hfull⟩ := not_or.mp hroom
      have hsat := queueMsg_sat owner m.encode priority c1
      exact hsat.mono (fun _ _ _ => trivial) fun _ _ _ =>
        .inl ⟨eq_false_of_ne_true hlow, Nat.le_of_not_lt hfull⟩
  exact (hwhy.and (queueMsg_sat owner m.encode priority c1)).mono
    (fun _ _ h => .queued h.2 hlog) fun _ _ h => ⟨h.1, .of_log (h.2.log.trans hlog)⟩

/-- A short message with priority is queued. -/
theorem queueMsg_builds_short {m : ChannelMsg} {owner : Option UInt32} (hlog : c1.log = c.log)
    (hlen : m.encode.length ≤ 2 ^ 20) :
    (queueMsg owner m.encode true c1).Sat (fun _ c' => Builds (some m) c c')
      (fun _ _ => False) :=
  (queueMsg_short owner m.encode c1 m.encode_ne_nil hlen).mono (fun _ _ hq => .queued hq hlog)
    fun _ _ h => h

omit [CryptoLib] in
/-- The log of a connection without channel `id` tells at most that it was freed. -/
theorem log_withoutChannel (c : Conn) (id : UInt32) : ∃ new,
    (withoutChannel c id).log = c.log ++ new ∧ ∀ o ∈ new, o.isQueued = false := by
  refine ⟨_, rfl, fun o ho => ?_⟩
  split at ho
  · rw [List.mem_singleton.mp ho]
    rfl
  · cases ho

omit [CryptoLib] in
/-- `alloc` fills an empty slot, or fails because no slot is left. -/
theorem allocChannel_fills (ch : Channel) (ht : c.now.channels.Represents) :
    (allocChannel ch c).Sat
      (fun id c1 => c.now.channels.get? id = none ∧
        c1.now.channels.get? id = some { ch with localId := id } ∧
        (∃ t, c1.now = { c.now with channels := t }) ∧ c1.log = c.log ++ [.opened id])
      (fun _ c1 => c1 = c ∧ c.now.channels.lenActive = c.now.channels.maxChannels.toNat) := by
  have hsat := ht.alloc ch
  unfold allocChannel
  rw [Proc.bind_apply]
  unfold Proc.focus
  cases halloc : ChannelTable.alloc ch c.now.channels with
  | panic => exact absurd halloc hsat.ne_panic
  | err e t =>
    obtain ⟨rfl, hfull⟩ := hsat.of_err halloc
    exact ⟨rfl, hfull⟩
  | ok id t =>
    obtain ⟨-, hempty, hp, -⟩ := hsat.of_ok halloc
    exact ⟨hempty, hp.self, ⟨t, rfl⟩, rfl⟩

theorem openDirectTcpip_builds (host : String) (port : UInt32) (c : Conn)
    (ht : c.now.channels.Represents) :
    (Connection.openDirectTcpip host port c).Sat
      (fun id c' => (Encoder.openDirectTcpip host port).Gives c.now c'.now (some id) ∧
        Builds ((Encoder.openDirectTcpip host port).message c.now (some id)) c c')
      (fun _ c' => (Encoder.openDirectTcpip host port).FailsOn c.now ∧ Builds none c c') := by
  unfold Connection.openDirectTcpip
  rw [Proc.bind_of_ok (Traced.read_apply c), Proc.bind_apply, Proc.failIf_apply]
  split
  · rename_i hready
    exact ⟨hready.imp id .inl, .of_log rfl⟩
  dsimp only [Outcome.bind_ok]
  refine ((allocChannel_fills _ ht).mono (fun _ _ h => h) fun _ c1 h =>
    ⟨.inr (.inr (.inl h.2)), .of_log (congrArg Traced.log h.1)⟩).bind ?_
  rintro id c1 ⟨hempty, hself, ⟨t, ht⟩, hlog⟩
  have hopened : ∀ o ∈ [Obs.opened id], o.isQueued = false := by
    intro o ho
    rw [List.mem_singleton.mp ho]
    rfl
  have hamid : ∀ m c', Builds m c1 c' → Builds m c c' := fun _ _ h =>
    h.amid hlog (List.append_nil _).symm hopened fun _ h => absurd h List.not_mem_nil
  have hqueue := (queueMsg_sat (some id)
    (Msg.channelOpen id c.now.window c.now.maxPacket host port) true c1).and
    (queueMsg_builds (m := .opening id c.now.window c.now.maxPacket host port) rfl)
  refine (hqueue.mono
    (R := fun _ c' => c'.now.channels = c1.now.channels ∧
      Builds (some (.opening id c.now.window c.now.maxPacket host port)) c c')
    (fun _ c' h => ⟨h.1.channels, hamid _ c' h.2⟩)
    fun _ c' h => ⟨.inr (.inr (.inr ⟨id, ?_⟩)), hamid _ c' h.2.2⟩).bind fun _ c' h => ?_
  · exact ⟨⟨id, _, rfl, hempty, (congrArg (·.get? id) h.1).trans hself, rfl, rfl, rfl, rfl, rfl⟩, h.2⟩
  · have hlong := h.2.1.resolve_left (by rintro ⟨hlow, -⟩; cases hlow)
    rw [ht] at hlong
    exact hlong

theorem confirmOpen_builds (id : UInt32) (c : Conn) :
    (Connection.confirmOpen id c).Sat
      (fun _ c' => Builds ((Encoder.confirmOpen id).message c.now none) c c')
      (fun _ c' => (Encoder.confirmOpen id).FailsOn c.now ∧ Builds none c c') := by
  unfold Connection.confirmOpen Encoder.message Encoder.FailsOn
  dsimp only
  cases hch : c.now.channels.get? id with
  | none =>
    rw [Proc.bind_apply, getChannel_none hch]
    refine ⟨fun _ h => ?_, .of_log rfl⟩
    cases h
  | some ch =>
    rw [Proc.bind_of_ok (getChannel_some hch), Proc.bind_of_ok (setChannel_apply _ _ c)]
    cases hr : ch.remoteId with
    | none =>
      refine ⟨fun ch' hch' => ?_, .of_log rfl⟩
      cases hch'
      exact hr
    | some r =>
      rw [Proc.bind_of_ok (Proc.okOr_some _ _ _), Option.bind_some, hr]
      exact (queueMsg_builds_short (m := .confirmation r id ch.recvMax ch.maxLocalPacket) rfl
        (by simp [ChannelMsg.encode, Msg.openConfirmation])).mono (fun _ _ h => h) fun _ _ h => h.elim

theorem failOpen_builds (id reason : UInt32) (msg : String) (c : Conn) :
    (Connection.failOpen id reason msg c).Sat
      (fun _ c' => Builds ((Encoder.failOpen id reason msg).message c.now none) c c')
      (fun _ c' => (Encoder.failOpen id reason msg).FailsOn c.now ∧ Builds none c c') := by
  unfold Connection.failOpen Encoder.message Encoder.FailsOn
  dsimp only
  cases hch : c.now.channels.get? id with
  | none =>
    rw [Proc.bind_apply, getChannel_none hch]
    refine ⟨fun _ _ h _ => ?_, .of_log rfl⟩
    cases h
  | some ch =>
    rw [Proc.bind_of_ok (getChannel_some hch)]
    cases hr : ch.remoteId with
    | none =>
      refine ⟨fun ch' r hch' hr' => ?_, .of_log rfl⟩
      cases hch'
      cases hr.symm.trans hr'
    | some r =>
      rw [Proc.bind_of_ok (Proc.okOr_some _ _ _), Proc.bind_of_ok (freeChannel_apply id c),
        Option.bind_some, hr]
      obtain ⟨new, hnew, hquiet⟩ := log_withoutChannel c id
      have hamid : ∀ m c', Builds m (withoutChannel c id) c' → Builds m c c' := fun _ _ h =>
        h.amid hnew (List.append_nil _).symm hquiet fun _ h => absurd h List.not_mem_nil
      refine (queueMsg_builds (m := .failure r reason msg) rfl).mono (fun _ c' h => hamid _ c' h)
        fun _ c' h => ⟨fun ch' r' hch' hr' => ?_, hamid _ c' h.2⟩
      cases hch'
      cases hr.symm.trans hr'
      refine h.1.resolve_left ?_
      rintro ⟨hlow, -⟩
      cases hlow

theorem sendChannelDataPkt_builds (id remote : UInt32) (data : Bytes) (c : Conn) :
    (Connection.sendChannelDataPkt id remote data c).Sat
      (fun _ c' => Builds ((Encoder.sendChannelDataPkt id remote data).message c.now none) c c')
      (fun _ c' => (Encoder.sendChannelDataPkt id remote data).FailsOn c.now ∧ Builds none c c') :=
  (queueMsg_builds (m := .data remote data) rfl).mono (fun _ _ h => h)
    fun _ _ h => ⟨h.1.imp And.right fun h => h, h.2⟩

omit [CryptoLib] in
/-- An emitter is silent while the gate is closed, and without its channel. -/
theorem gated_builds {id : UInt32} {m : Channel → Option ChannelMsg} {f : Channel → ConnM Unit}
    (hf : ∀ ch, c.now.channels.get? id = some ch →
      (f ch c).Sat (fun _ c' => Builds (m ch) c c') (fun _ _ => False)) :
    ((do
      let k ← Traced.read
      if k.kexBlocksApp then return ()
      else
        match k.channels.get? id with
        | none => return ()
        | some ch => f ch : ConnM Unit) c).Sat
      (fun _ c' =>
        Builds (if c.now.kexBlocksApp then none else (c.now.channels.get? id).bind m) c c')
      (fun _ _ => False) := by
  rw [Proc.bind_of_ok (Traced.read_apply c), Proc.ite_apply]
  by_cases hgate : c.now.kexBlocksApp = true
  · rw [if_pos hgate, if_pos hgate]
    exact .of_log rfl
  rw [if_neg hgate, if_neg hgate]
  cases hch : c.now.channels.get? id with
  | none => exact .of_log rfl
  | some ch => exact hf ch hch

theorem maybeAdjust_builds (id : UInt32) (c : Conn) :
    (Connection.maybeAdjust id c).Sat
      (fun _ c' => Builds ((Encoder.maybeAdjust id).message c.now none) c c')
      (fun _ _ => False) := by
  refine gated_builds fun ch _ => ?_
  obtain ⟨add, hadd, hfits⟩ := windowAdjustAmount_apply ch
  have hvalue : ((ch.windowAdjustAmount () : Outcome Unit Error UInt32).value?).getD 0 = add := by
    rw [hadd ()]
    rfl
  simp only [hvalue]
  rw [Proc.bind_of_ok (hadd c), Proc.ite_apply]
  by_cases hzero : add = 0
  · rw [if_pos hzero, if_pos hzero]
    exact .of_log rfl
  rw [if_neg hzero, if_neg hzero, Proc.bind_of_ok (Proc.checkedAdd32_of_lt hfits c),
    Proc.bind_of_ok (setChannel_apply _ _ c)]
  cases ch.remoteId with
  | none => exact .of_log rfl
  | some r =>
    refine Proc.sat_ignore ((queueMsg_builds_short (m := .adjust r add) rfl ?_).mono
      (fun _ _ h => h) fun _ _ h => h.elim)
    simp [ChannelMsg.encode, Msg.windowAdjust]

theorem emitEofIfReady_builds (id : UInt32) (c : Conn) :
    (Connection.emitEofIfReady id c).Sat
      (fun _ c' => Builds ((Encoder.emitEofIfReady id).message c.now none) c c')
      (fun _ _ => False) := by
  refine gated_builds fun ch _ => ?_
  rw [Proc.ite_apply]
  by_cases hdone : (!ch.sentEof || ch.wireEof) = true
  · rw [if_pos hdone, if_pos hdone]
    exact .of_log rfl
  rw [if_neg hdone, if_neg hdone, Proc.bind_of_ok (setChannel_apply _ _ c)]
  cases ch.remoteId with
  | none => exact .of_log rfl
  | some r =>
    exact queueMsg_builds_short (m := .eof r) rfl (by simp [ChannelMsg.encode, Msg.channelEof])

theorem emitCloseIfReady_builds (id : UInt32) (c : Conn) :
    (Connection.emitCloseIfReady id c).Sat
      (fun _ c' => Builds ((Encoder.emitCloseIfReady id).message c.now none) c c')
      (fun _ _ => False) := by
  -- the slot may be freed behind the message
  have hfree : ∀ (m : Option ChannelMsg) (c1 : Conn), Builds m c c1 → ((do
      let c ← Traced.read
      if (c.channels.get? id).any fun ch => ch.gotClose && ch.wireClose then freeChannel id
      else return () : ConnM Unit) c1).Sat (fun _ c' => Builds m c c') (fun _ _ => False) := by
    intro m c1 h1
    rw [Proc.bind_of_ok (Traced.read_apply c1), Proc.ite_apply]
    split
    · rw [freeChannel_apply]
      obtain ⟨new, hnew, hquiet⟩ := log_withoutChannel c1 id
      exact h1.amid (List.append_nil _).symm hnew (fun _ h => absurd h List.not_mem_nil) hquiet
    · exact h1
  refine gated_builds fun ch _ => ?_
  rw [Proc.ite_apply]
  cases hsent : ch.sentClose with
  | false => exact .of_log rfl
  | true =>
    rw [if_neg (by simp), Proc.ite_apply]
    cases hwire : ch.wireClose with
    | true =>
      rw [if_pos rfl, Proc.bind_of_ok (Proc.pure_apply _ c)]
      exact hfree none c (.of_log rfl)
    | false =>
      rw [if_neg Bool.false_ne_true, Proc.bind_of_ok (setChannel_apply _ _ c),
        Proc.bind_of_ok (Proc.pure_apply _ _)]
      refine Outcome.Sat.bind (R := fun _ c1 => Builds (ch.remoteId.map .close) c c1) ?_
        fun _ c1 h1 => hfree _ c1 h1
      cases ch.remoteId with
      | none => exact .of_log rfl
      | some r =>
        exact queueMsg_builds_short (m := .close r) rfl
          (by simp [ChannelMsg.encode, Msg.channelClose])

/-- What a call of an encoder returns and queues. -/
theorem Encoder.builds (e : Encoder) (c : Conn) (ht : c.now.channels.Represents) :
    (e.run c).Sat
      (fun result c' => e.Gives c.now c'.now result ∧ Builds (e.message c.now result) c c')
      (fun _ c' => e.FailsOn c.now ∧ Builds none c c') := by
  cases e with
  | openDirectTcpip host port =>
    exact Outcome.Sat.bind (openDirectTcpip_builds host port c ht) fun _ _ h => h
  | confirmOpen id => exact Outcome.Sat.bind (confirmOpen_builds id c) fun _ _ h => ⟨rfl, h⟩
  | failOpen id reason msg =>
    exact Outcome.Sat.bind (failOpen_builds id reason msg c) fun _ _ h => ⟨rfl, h⟩
  | sendChannelDataPkt id remote data =>
    exact Outcome.Sat.bind (sendChannelDataPkt_builds id remote data c) fun _ _ h => ⟨rfl, h⟩
  | maybeAdjust id =>
    exact Outcome.Sat.bind ((maybeAdjust_builds id c).mono (fun _ _ h => h) fun _ _ h => h.elim)
      fun _ _ h => ⟨rfl, h⟩
  | emitEofIfReady id =>
    exact Outcome.Sat.bind ((emitEofIfReady_builds id c).mono (fun _ _ h => h)
      fun _ _ h => h.elim) fun _ _ h => ⟨rfl, h⟩
  | emitCloseIfReady id =>
    exact Outcome.Sat.bind ((emitCloseIfReady_builds id c).mono (fun _ _ h => h)
      fun _ _ h => h.elim) fun _ _ h => ⟨rfl, h⟩

-- ============================================================================
-- From one connection to the other
-- ============================================================================

/-- A message that is meant for the peer is accepted, and its record and its
    event hold what the message says. -/
theorem ChannelMsg.takes (m : ChannelMsg) (hwf : WellFormed c) (hfits : m.Fits)
    (ha : m.Addresses c.now) : Takes c m := by
  cases m with
  | opening sender window maxPacket host port =>
    exact takes_opening sender window maxPacket port hwf ha.1 ha.2 hfits
  | confirmation recipient sender window maxPacket =>
    obtain ⟨ch, hch⟩ := Option.isSome_iff_exists.mp ha
    exact takes_confirmation recipient sender window maxPacket hch
  | failure recipient reason message => exact takes_failure recipient reason hfits
  | adjust recipient add =>
    obtain ⟨ch, hch⟩ := Option.isSome_iff_exists.mp ha
    exact takes_adjust recipient add hch
  | data recipient bytes =>
    obtain ⟨ch, hch, hroom⟩ := ha
    exact takes_data recipient hch hfits hroom
  | eof recipient =>
    obtain ⟨ch, hch⟩ := Option.isSome_iff_exists.mp ha
    exact takes_eof recipient hch
  | close recipient =>
    obtain ⟨ch, hch⟩ := Option.isSome_iff_exists.mp ha
    exact takes_close recipient hch

/-- In every state and with all arguments a call of an encoder queues its one
    message and no other, with the sender's values; every peer the message is
    meant for accepts it, and finds there just that.  A call that fails queues
    nothing. -/
theorem Encoder.run_arrives {sender receiver : Setup} {peer : Conn} (e : Encoder)
    (hc : sender.Reaches c) (hpeer : receiver.Reaches peer) :
    (e.run c).Sat
      (fun result c' => e.Gives c.now c'.now result ∧ Builds (e.message c.now result) c c' ∧
        ∀ m, e.message c.now result = some m → m.Fits → m.Addresses peer.now →
          ∃ peer', handlePayload m.encode peer = .ok () peer' ∧ m.Arrived peer.now peer'.now)
      (fun _ c' => e.FailsOn c.now ∧ Builds none c c') :=
  (e.builds c hc.represents).mono
    (fun _ _ h => ⟨h.1, h.2, fun m _ hfits ha => m.takes hpeer.wellFormed hfits ha⟩) fun _ _ h => h

/-- A server whose peer opened a channel. -/
def openedServer : List Call :=
  [.recv (Toy.identLine ++ Toy.clearPacket Msg.userauthSuccess
    ++ Toy.clearPacket (Msg.channelOpen 0 1000 1000 "h" 80)), .processIn]

/-- A client that opened a channel, and took a byte for it in the course of a
    second key exchange. -/
def openingClient : List Call :=
  [.recv (Toy.identLine ++ Toy.clearPacket (Toy.kexinit ["curve25519-sha256"] serverCiphers)
      ++ Toy.clearPacket (Msg.ecdhReply [1] Toy.point [2])
      ++ Toy.clearPacket Msg.newkeys ++ Toy.sealedPacket (Msg.serviceAccept "ssh-userauth")
      ++ Toy.sealedPacket Msg.userauthSuccess), .processIn, .openDirectTcpip "h" 80,
    .recv (Toy.sealedPacket (Toy.kexinit ["curve25519-sha256"] serverCiphers)), .processIn,
    .sendData 0 [97],
    .recv (Toy.sealedPacket (Msg.ecdhReply [1] Toy.point [2])
      ++ Toy.sealedPacket Msg.newkeys), .processIn]

/-- Nothing but the confirmation of channel 0 was queued. -/
def confirmsOnly : List Obs → Bool
  | [.queued _ owner p _] => decide (owner = some 0 ∧ p = Msg.openConfirmation 0 0 2097152 32768)
  | _ => false

omit [CryptoLib] in
theorem openedServer_confirms : ∃ c c' b w,
    @Setup.run Toy.lib (.server Toy.server) Toy.rng openedServer = .ok () c ∧
    ((c.now.channels.get? 0).bind (·.remoteId)) = some 0 ∧
    @confirmOpen Toy.lib 0 c = .ok () c' ∧ c'.log.drop c.log.length
      = [.queued b (some 0) (Msg.openConfirmation 0 0 2097152 32768) w] := by
  have hpass : (@Setup.run Toy.lib (.server Toy.server) Toy.rng openedServer).passes (fun c =>
      decide (((c.now.channels.get? 0).bind (·.remoteId)) = some 0) &&
      (@confirmOpen Toy.lib 0 c).passes fun c' => confirmsOnly (c'.log.drop c.log.length))
      = true := by
    decide +kernel
  obtain ⟨_, c, hrun, hc⟩ := Outcome.exists_of_passes hpass
  rw [Bool.and_eq_true] at hc
  obtain ⟨_, c', hconfirm, hc'⟩ := Outcome.exists_of_passes hc.2
  unfold confirmsOnly at hc'
  split at hc'
  · rename_i b owner p w hlog
    obtain ⟨rfl, rfl⟩ := of_decide_eq_true hc'
    exact ⟨c, c', b, w, hrun, of_decide_eq_true hc.1, hconfirm, hlog⟩
  · cases hc'

omit [CryptoLib] in
theorem openingClient_spends : ∃ peer peer' ch,
    @Setup.run Toy.lib (.client Toy.client) Toy.rng openingClient = .ok () peer ∧
    (peer.now.channels.get? 0).isSome = true ∧
    @handlePayload Toy.lib (Msg.openConfirmation 0 0 2097152 32768) peer = .ok () peer' ∧
    peer'.now.channels.get? 0 = some ch ∧ ch.sendWindow = 2097151 := by
  have hpass : (@Setup.run Toy.lib (.client Toy.client) Toy.rng openingClient).passes (fun peer =>
      (peer.now.channels.get? 0).isSome &&
      (@handlePayload Toy.lib (Msg.openConfirmation 0 0 2097152 32768) peer).passes fun peer' =>
        (peer'.now.channels.get? 0).any fun ch => decide (ch.sendWindow = 2097151)) = true := by
    decide +kernel
  obtain ⟨_, peer, hrun, hpeer⟩ := Outcome.exists_of_passes hpass
  rw [Bool.and_eq_true] at hpeer
  obtain ⟨_, peer', hhandle, hpeer'⟩ := Outcome.exists_of_passes hpeer.2
  obtain ⟨ch, hch, hw⟩ := (Option.any_eq_true _ _).mp hpeer'
  exact ⟨peer, peer', ch, hrun, hpeer.1, hhandle, hch, of_decide_eq_true hw⟩

omit [CryptoLib] in
/-- The server's confirmation, and its arrival at the client. -/
theorem confirmOpen_arrives : ∃ c c' peer peer' m,
    @Setup.run Toy.lib (.server Toy.server) Toy.rng openedServer = .ok () c ∧
    @confirmOpen Toy.lib 0 c = .ok () c' ∧
    @Setup.run Toy.lib (.client Toy.client) Toy.rng openingClient = .ok () peer ∧
    (Encoder.confirmOpen 0).message c.now none = some m ∧ Builds (some m) c c' ∧
    @handlePayload Toy.lib m.encode peer = .ok () peer' ∧ m.Arrived peer.now peer'.now := by
  obtain ⟨c, c', b, w, hrun, hremote, hconfirm, hlog⟩ := openedServer_confirms
  obtain ⟨peer, -, -, hpeer, hlive, -⟩ := openingClient_spends
  have hsat := @Encoder.run_arrives Toy.lib _ _ _ _ (.confirmOpen 0)
    (@Setup.Reaches.of_run Toy.lib _ _ _ _ hrun) (@Setup.Reaches.of_run Toy.lib _ _ _ _ hpeer)
  have hcall : @Encoder.run Toy.lib (.confirmOpen 0) c = .ok none c' := by
    show (@confirmOpen Toy.lib 0 c).bind _ = _
    rw [hconfirm]
    rfl
  obtain ⟨-, hbuilds, harrives⟩ := hsat.of_ok hcall
  obtain ⟨ch, hch, hr⟩ := Option.bind_eq_some_iff.mp hremote
  have hm : (Encoder.confirmOpen 0).message c.now none
      = some (.confirmation 0 0 ch.recvMax ch.maxLocalPacket) := by
    unfold Encoder.message
    dsimp only
    rw [hch, Option.bind_some, hr]
    rfl
  obtain ⟨peer', hhandle, harrived⟩ := harrives _ hm trivial hlive
  exact ⟨c, c', peer, peer', _, hrun, hconfirm, hpeer, hm, hm ▸ hbuilds, hhandle, harrived⟩

omit [CryptoLib] in
/-- The window of the record is not the one of the message: the deferred byte
    was sent at once. -/
theorem confirmation_flushed : ∃ c c' b w peer peer' ch,
    @Setup.run Toy.lib (.server Toy.server) Toy.rng openedServer = .ok () c ∧
    @confirmOpen Toy.lib 0 c = .ok () c' ∧
    Obs.queued b (some 0) (Msg.openConfirmation 0 0 2097152 32768) w ∈ c'.log ∧
    @Setup.run Toy.lib (.client Toy.client) Toy.rng openingClient = .ok () peer ∧
    (peer.now.channels.get? 0).isSome = true ∧
    @handlePayload Toy.lib (Msg.openConfirmation 0 0 2097152 32768) peer = .ok () peer' ∧
    peer'.now.channels.get? 0 = some ch ∧ ch.sendWindow = 2097151 := by
  obtain ⟨c, c', b, w, hrun, -, hconfirm, hlog⟩ := openedServer_confirms
  obtain ⟨peer, peer', ch, hpeer, hlive, hhandle, hch, hw⟩ := openingClient_spends
  refine ⟨c, c', b, w, peer, peer', ch, hrun, hconfirm, ?_, hpeer, hlive, hhandle, hch, hw⟩
  exact List.mem_of_mem_drop (hlog ▸ List.mem_singleton_self _)

end Ssproxy
