/-
  Ssproxy.Machine.Slots

  One slot of the channel table.  Every move of the connection, seen from slot
  `id`, is a sequence of

  - `Act`: something happens to the channel in it, with what enters the history;
  - `Fresh`: a channel is put into it;
  - `Leaves`: its channel is freed;

  and of steps that have nothing to do with the slot.  Whatever is true of every
  channel follows from this list by one induction (`Setup.run_slot`).
-/

import Ssproxy.Machine.Emits

namespace Ssproxy

open Lib Wire Connection Relation

variable [CryptoLib]

/-- The most that `pending_out` of a channel may hold. -/
def pendingMax : Nat := 256 * 1024

-- ============================================================================
-- What can happen to a channel
-- ============================================================================

/-- Channel `ch` in slot `id` becomes another, and `new` enters the history. -/
inductive Act (id : UInt32) (c : Connection) (ch : Channel) :
    Cause → Channel → List Obs → Prop where
  -- data on its way out
  | defer {data chunk : Bytes} (hne : chunk ≠ [])
      (hroom : ch.pendingOutBytes + chunk.length ≤ pendingMax)
      (hgate : c.kexBlocksApp = true ∨ ch.remoteId = none) :
      Act id c ch (.call (.sendData id data))
        { ch with
          pendingOutBytes := ch.pendingOutBytes + chunk.length
          pendingOut := ch.pendingOut ++ [chunk] } []
  | wire {data chunk w : Bytes} {r : UInt32} (hne : chunk ≠ [])
      (hallow : chunk.length ≤ ch.outboundAllowance) (hgate : c.kexBlocksApp = false)
      (hr : ch.remoteId = some r) :
      Act id c ch (.call (.sendData id data))
        { ch with sendWindow := ch.sendWindow - UInt32.ofNat chunk.length }
        [.queued (c.putChannel id
          { ch with sendWindow := ch.sendWindow - UInt32.ofNat chunk.length }) (some id)
          (Msg.channelData r chunk) w]
  | sendLost {data : Bytes} {n : Nat} (hlimits : c.writeHard < c.writeSoft)
      (hn : n ≤ ch.sendWindow.toNat) :
      Act id c ch (.call (.sendData id data))
        { ch with sendWindow := ch.sendWindow - UInt32.ofNat n } []
  | flush {r : UInt32} {front w : Bytes} {queue : List Bytes} (hcan : CanFlush c ch r)
      (hp : ch.pendingOut = front :: queue) (hne : front ≠ []) :
      Act id c ch .own (flushed ch front queue (flushTake ch front))
        [.queued (c.putChannel id (flushed ch front queue (flushTake ch front))) (some id)
          (Msg.channelData r (front.take (flushTake ch front))) w]
  | flushLost {r : UInt32} {front : Bytes} {queue : List Bytes} (hcan : CanFlush c ch r)
      (hp : ch.pendingOut = front :: queue) (hne : front ≠ [])
      (hlimits : c.writeHard < c.writeSoft) :
      Act id c ch .own (flushed ch front queue (flushTake ch front)) []
  -- the end of the stream
  | askEof (he : ch.sentEof = false) (hc : ch.sentClose = false) :
      Act id c ch (.call (.sendEof id)) { ch with sentEof := true } [.ended c id false]
  | askClose (hgate : c.kexBlocksApp = true) (hc : ch.sentClose = false) :
      Act id c ch .own { ch with sentClose := true, sentEof := true } [.ended c id true]
  | closeAgain (hc : ch.sentClose = false) (hw : ch.wireClose = true) :
      Act id c ch .own { ch with sentClose := true, sentEof := true } [.ended c id true]
  | closeSilent (hgate : c.kexBlocksApp = false) (hc : ch.sentClose = false)
      (hw : ch.wireClose = false) (hr : ch.remoteId = none) :
      Act id c ch .own
        { ch with sentClose := true, sentEof := true, wireClose := true, wireEof := true }
        [.ended c id true]
  | closeNow {r : UInt32} {w : Bytes} (hgate : c.kexBlocksApp = false)
      (hc : ch.sentClose = false) (hw : ch.wireClose = false) (hr : ch.remoteId = some r) :
      Act id c ch .own
        { ch with sentClose := true, sentEof := true, wireClose := true, wireEof := true }
        [.ended c id true,
          .queued (c.putChannel id
            { ch with sentClose := true, sentEof := true, wireClose := true, wireEof := true })
            (some id) (Msg.channelClose r) w]
  | emitEofSilent (hgate : c.kexBlocksApp = false) (he : ch.sentEof = true)
      (hw : ch.wireEof = false) (hr : ch.remoteId = none) :
      Act id c ch .own { ch with wireEof := true } []
  | emitEof {r : UInt32} {w : Bytes} (hgate : c.kexBlocksApp = false) (he : ch.sentEof = true)
      (hw : ch.wireEof = false) (hr : ch.remoteId = some r) :
      Act id c ch .own { ch with wireEof := true }
        [.queued (c.putChannel id { ch with wireEof := true }) (some id) (Msg.channelEof r) w]
  | emitCloseSilent (hgate : c.kexBlocksApp = false) (hc : ch.sentClose = true)
      (hw : ch.wireClose = false) (hr : ch.remoteId = none) :
      Act id c ch .own { ch with wireClose := true, wireEof := true } []
  | emitClose {r : UInt32} {w : Bytes} (hgate : c.kexBlocksApp = false)
      (hc : ch.sentClose = true) (hw : ch.wireClose = false) (hr : ch.remoteId = some r) :
      Act id c ch .own { ch with wireClose := true, wireEof := true }
        [.queued (c.putChannel id { ch with wireClose := true, wireEof := true }) (some id)
          (Msg.channelClose r) w]
  -- data on its way in, and credit for it
  | consume {front : Bytes} {queue : List Bytes} {m : Nat} (hq : ch.inQ = front :: queue) :
      Act id c ch (.call (.consumeInbound id m)) (consumed ch front queue m) []
  | grantSilent {add : UInt32} (hgate : c.kexBlocksApp = false)
      (hadd : ch.windowAdjustAmount () = .ok add ()) (hpos : add ≠ 0) (hr : ch.remoteId = none) :
      Act id c ch (.adjust id) { ch with recvWindow := ch.recvWindow + add } []
  | grant {add r : UInt32} {w : Bytes} (hgate : c.kexBlocksApp = false)
      (hadd : ch.windowAdjustAmount () = .ok add ()) (hpos : add ≠ 0)
      (hr : ch.remoteId = some r) :
      Act id c ch (.adjust id) { ch with recvWindow := ch.recvWindow + add }
        [.queued (c.putChannel id { ch with recvWindow := ch.recvWindow + add }) (some id)
          (Msg.windowAdjust r add) w]
  -- the application decides on an open
  | confirmSilent (hr : ch.remoteId = none) :
      Act id c ch (.call (.confirmOpen id)) { ch with openConfirmed := true } []
  | confirm {r : UInt32} {w : Bytes} (hr : ch.remoteId = some r) :
      Act id c ch (.call (.confirmOpen id)) { ch with openConfirmed := true }
        [.queued (c.putChannel id { ch with openConfirmed := true }) (some id)
          (Msg.openConfirmation r id ch.recvMax ch.maxLocalPacket) w]
  -- packets of the peer
  | peerConfirm {p : Bytes} {remote w m : UInt32}
      (hm : MsgType.channelOpenConfirmation.code ::
        (putU32 id ++ putU32 remote ++ putU32 w ++ putU32 m) <+: p) :
      Act id c ch .own
        { ch with
          remoteId := some remote
          sendWindow := w
          maxRemotePacket := m
          openConfirmed := true }
        [.handled c p, .emitted (.channelOpenConfirmation id)]
  | credit {p : Bytes} {add : UInt32} (hm : Msg.windowAdjust id add <+: p) :
      Act id c ch .own { ch with sendWindow := saturatingAdd32 ch.sendWindow add } [.handled c p]
  | deliver {p data : Bytes}
      (hm : Msg.channelData id data <+: p
        ∨ ∃ code, MsgType.channelExtendedData.code :: (putU32 id ++ putU32 code ++ putBytes data)
            <+: p)
      (hw : UInt32.ofNat data.length ≤ ch.recvWindow) :
      Act id c ch .own
        { ch with
          recvWindow := ch.recvWindow - UInt32.ofNat data.length
          inQBytes := ch.inQBytes + data.length
          inQ := ch.inQ ++ [data] }
        [.handled c p, .emitted (.channelData id)]
  | peerEof {p : Bytes} (hm : Msg.channelEof id <+: p) :
      Act id c ch .own { ch with gotEof := true } [.handled c p, .emitted (.channelEof id)]
  | peerClose {p : Bytes} (hm : Msg.channelClose id <+: p) :
      Act id c ch .own { ch with gotClose := true, gotEof := true } [.handled c p]
  | reply {p w : Bytes} {b : Connection} {m : MsgType} {r : UInt32}
      (hm : MsgType.channelRequest.code :: putU32 id <+: p) (hwant : requestWants p = true)
      (hr : ch.remoteId = some r) (ht : m = .channelSuccess ∨ m = .channelFailure)
      (hb : b.channels = c.channels) :
      Act id c ch .own ch [.handled c p, .queued b (some id) (m.code :: putU32 r) w]

/-- A channel is put into slot `id`. -/
inductive Fresh (id : UInt32) (c : Connection) : Cause → Channel → List Obs → Prop where
  | peer {p : Bytes} {kind : ChannelKind} {typ : String} {remote w m port : UInt32}
      {host : Option String} {ev : Event}
      (hm : MsgType.channelOpen.code ::
        (putStr typ ++ putU32 remote ++ putU32 w ++ putU32 m) <+: p)
      (hev : ∀ j, ev ≠ .channelData j) :
      Fresh id c .own { peerChannel c kind remote w m host port with localId := id }
        [.handled c p, .opened id, .emitted ev]
  | here {host : String} {port : UInt32} {new : List Obs} (hrole : c.role = .client)
      (hnew : ∀ o ∈ new, ∃ b w, o = .queued b (some id)
        (Msg.channelOpen id c.window c.maxPacket host port) w) :
      Fresh id c (.call (.openDirectTcpip host port))
        { Channel.new 0 .directTcpIp c.window c.maxPacket 0 0 with
          host := some host, port := port, localId := id } (.opened id :: new)

/-- Channel `ch` in slot `id` is freed. -/
inductive Leaves (id : UInt32) (c : Connection) (ch : Channel) : Cause → List Obs → Prop where
  | closed (hg : ch.gotClose = true) (hw : ch.wireClose = true) : Leaves id c ch .own [.freed id]
  | failed {r reason : UInt32} {msg : String} {new : List Obs} (hr : ch.remoteId = some r)
      (hnew : ∀ o ∈ new, ∃ b w, o = .queued b (some id) (Msg.openFailure r reason msg) w) :
      Leaves id c ch (.call (.failOpen id reason msg)) (.freed id :: new)
  | refused {p : Bytes} {reason : UInt32} {msg : String}
      (hm : MsgType.channelOpenFailure.code :: (putU32 id ++ putU32 reason) <+: p) :
      Leaves id c ch .own
        [.handled c p, .freed id, .emitted (.channelOpenFailure id reason msg)]

/-- The observation says nothing about slot `id`. -/
def Obs.Off (id : UInt32) : Obs → Prop
  | queued _ owner _ _ => owner ≠ some id
  | opened j => j ≠ id
  | freed j => j ≠ id
  | emitted ev => ev ≠ .channelData id
  | _ => True

/-- What a move does, seen from slot `id`. -/
inductive SlotStep (id : UInt32) (k : Cause) (c c' : Conn) : Prop where
  | idle {new : List Obs} (hget : c'.now.channels.get? id = c.now.channels.get? id)
      (hlog : c'.log = c.log ++ new) (hnew : ∀ o ∈ new, o.Off id)
  | act {ch ch' : Channel} {new : List Obs} (hch : c.now.channels.get? id = some ch)
      (hch' : c'.now.channels.get? id = some ch') (ha : Act id c.now ch k ch' new)
      (hlog : c'.log = c.log ++ new)
  | enter {ch' : Channel} {new : List Obs} (hch' : c'.now.channels.get? id = some ch')
      (hf : Fresh id c.now k ch' new) (hlog : c'.log = c.log ++ new)
  | leave {ch : Channel} {new : List Obs} (hch : c.now.channels.get? id = some ch)
      (hnone : c'.now.channels.get? id = none) (hl : Leaves id c.now ch k new)
      (hlog : c'.log = c.log ++ new)

/-- Sequences of such steps, with causes that satisfy `P`. -/
abbrev SlotSteps (id : UInt32) (P : Cause → Prop) : Conn → Conn → Prop :=
  ReflTransGen fun c c' => ∃ k, P k ∧ SlotStep id k c c'

variable {id j : UInt32} {c c' c1 : Conn} {p payload : Bytes} {owner : Option UInt32} {k : Cause}
  {P Q : Cause → Prop}

omit [CryptoLib] in
theorem SlotStep.log (h : SlotStep id k c c') : c.log <+: c'.log := by
  cases h with
  | idle hget hlog hnew => exact ⟨_, hlog.symm⟩
  | act hch hch' ha hlog => exact ⟨_, hlog.symm⟩
  | enter hch' hf hlog => exact ⟨_, hlog.symm⟩
  | leave hch hnone hl hlog => exact ⟨_, hlog.symm⟩

-- ============================================================================
-- Beside the slots
-- ============================================================================

/-- The messages by which a channel is opened and that carry data and credit. -/
def MsgType.flow : List MsgType :=
  [.channelOpen, .channelOpenConfirmation, .channelOpenFailure, .channelWindowAdjust, .channelData,
    .channelExtendedData]

/-- No such message, or one that asks for a type of channel that there is not. -/
inductive Foreign (p : Bytes) : Prop where
  | other (h : ∀ m ∈ MsgType.flow, ¬IsMsg m p)
  | unknownType {typ : String} {remote : UInt32}
      (hm : MsgType.channelOpen.code :: (putStr typ ++ putU32 remote) <+: p)
      (ht : typ ≠ "session" ∧ typ ≠ "direct-tcpip")

omit [CryptoLib] in
theorem foreign_of_isMsg {m : MsgType} (hm : IsMsg m p) (hnot : m ∉ MsgType.flow) : Foreign p :=
  .other fun _ hmem hm' => hnot (hm.unique hm' ▸ hmem)

/-- The observation is about no slot. -/
def Obs.Aloof : Obs → Prop
  | queued _ owner _ _ => owner = none
  | handled _ p => Foreign p
  | opened _ | freed _ => False
  | emitted ev => ∀ id, ev ≠ .channelData id
  | _ => True

omit [CryptoLib] in
theorem Obs.Aloof.off {o : Obs} (h : o.Aloof) (id : UInt32) : o.Off id := by
  cases o with
  | queued b owner payload wire =>
    have howner : owner = none := h
    subst howner
    exact nofun
  | opened j | freed j => exact h.elim
  | emitted ev => exact h id
  | _ => trivial

/-- The channels are as they were, and the history says nothing about a slot. -/
structure Bypasses (c c' : Conn) : Prop where
  channels : c'.now.channels = c.now.channels
  log : ∃ new, c'.log = c.log ++ new ∧ ∀ o ∈ new, o.Aloof

namespace Bypasses

omit [CryptoLib]

theorem refl (c : Conn) : Bypasses c c := ⟨rfl, [], by simp⟩

theorem trans (h : Bypasses c c1) (h' : Bypasses c1 c') : Bypasses c c' := by
  obtain ⟨new, hl, hnew⟩ := h.log
  obtain ⟨new', hl', hnew'⟩ := h'.log
  refine ⟨h'.channels.trans h.channels, new ++ new', by rw [hl', hl, List.append_assoc],
    fun o ho => ?_⟩
  exact (List.mem_append.mp ho).elim (hnew o) (hnew' o)

/-- Neither the channels nor the history changed. -/
theorem of_eq (ht : c'.now.channels = c.now.channels) (hl : c'.log = c.log) : Bypasses c c' :=
  ⟨ht, [], by simp [hl]⟩

/-- The same before a move. -/
theorem behind (h : Bypasses c1 c') (ht : c1.now.channels = c.now.channels)
    (hl : c1.log = c.log) : Bypasses c c' :=
  (of_eq ht hl).trans h

theorem note {o : Obs} {x : Connection} (ht : x.channels = c.now.channels) (ho : o.Aloof) :
    Bypasses c ⟨x, c.log ++ [o]⟩ :=
  ⟨ht, [o], rfl, fun o' ho' => by rw [List.mem_singleton.mp ho']; exact ho⟩

/-- One observation, and what follows it. -/
theorem after {o : Obs} {x : Connection} (h : Bypasses ⟨x, c.log ++ [o]⟩ c')
    (ht : x.channels = c.now.channels) (ho : o.Aloof) : Bypasses c c' :=
  (note ht ho).trans h

theorem event {ev : Event} (h : ∀ id, ev ≠ .channelData id) : Bypasses c (withEvent c ev) :=
  note rfl h

end Bypasses

theorem Queues.bypasses (h : Queues none payload c c') : Bypasses c c' := by
  obtain ⟨w, hlog⟩ := h.log
  refine ⟨h.channels, _, hlog, fun o hmem => ?_⟩
  rw [List.mem_singleton.mp hmem]
  exact (rfl : (none : Option UInt32) = none)

omit [CryptoLib] in
theorem Draws.bypasses (h : Draws c c') : Bypasses c c' := .of_eq h.channels h.log

theorem Sends.bypasses (h : Sends none payload c c') : Bypasses c c' := by
  rcases h with h | ⟨-, h⟩
  · exact h.bypasses
  · exact h.bypasses

theorem Starts.bypasses (h : Starts c c') : Bypasses c c' := by
  cases h with
  | mk hq =>
    have h : Bypasses _ _ := hq.bypasses
    exact ⟨h.channels, h.log⟩

theorem Joins.bypasses (h : Joins c c') : Bypasses c c' := by
  cases h with
  | running hk => exact .refl _
  | started hk hs => exact hs.bypasses

theorem Switches.bypasses {pk : PendingKeys} (h : Switches pk c c') : Bypasses c c' := by
  cases h with
  | mk hpk hq =>
    have h : Bypasses _ _ := hq.bypasses
    exact ⟨h.channels, h.log⟩

theorem HangsUp.bypasses {reason : UInt32} {msg : String} (h : HangsUp reason msg c c') :
    Bypasses c c' := by
  cases h with
  | again hc => exact .refl _
  | first hc hs => exact hs.bypasses.trans (.note rfl nofun)

theorem Denies.bypasses {cfg : ServerConfig} (h : Denies cfg c c') : Bypasses c c' := by
  cases h with
  | soft hlt hq => exact hq.bypasses
  | hard hge hh => exact hh.bypasses

theorem Greets.bypasses (h : Greets c c') : Bypasses c c' := by
  cases h with
  | silent hr he => exact .refl _
  | extInfo hr he hq => exact hq.bypasses
  | service hr hq => exact hq.bypasses

theorem Receives.bypasses (h : Receives p c c1) (hp : Foreign p) : Bypasses c c1 := by
  refine ⟨h.channels, _, h.log, fun o ho => ?_⟩
  rw [List.mem_singleton.mp ho]
  exact hp

-- ============================================================================
-- Moves, on the whole table
-- ============================================================================

/-- What a move does to the channels: nothing, or one thing to one of them. -/
inductive Touch (k : Cause) (c c' : Conn) : Prop where
  | rest (h : Bypasses c c')
  | act {id : UInt32} {ch ch' : Channel} {new : List Obs}
      (hch : c.now.channels.get? id = some ch) (ha : Act id c.now ch k ch' new)
      (hset : c'.now.channels = c.now.channels.set id ch') (hlog : c'.log = c.log ++ new)
  | enter {id : UInt32} {ch : Channel} {new : List Obs}
      (halloc : ChannelTable.alloc ch c.now.channels = .ok id c'.now.channels)
      (hf : Fresh id c.now k { ch with localId := id } new) (hlog : c'.log = c.log ++ new)
      (hone : new.countP Obs.isQueued ≤ 1)
  | leave {id : UInt32} {ch : Channel} {new : List Obs}
      (hch : c.now.channels.get? id = some ch) (hl : Leaves id c.now ch k new)
      (hrel : c'.now.channels = c.now.channels.release id) (hlog : c'.log = c.log ++ new)
      (hone : new.countP Obs.isQueued ≤ 1)
  /-- An OPEN_FAILURE for a slot that is empty. -/
  | missed {id reason : UInt32} {msg : String} {p : Bytes}
      (hnone : c.now.channels.get? id = none)
      (hm : MsgType.channelOpenFailure.code :: (putU32 id ++ putU32 reason) <+: p)
      (hsame : c'.now.channels = c.now.channels)
      (hlog : c'.log = c.log ++ [.handled c.now p, .emitted (.channelOpenFailure id reason msg)])

/-- Sequences of such moves, with causes that satisfy `P`. -/
abbrev TouchSteps (P : Cause → Prop) : Conn → Conn → Prop :=
  ReflTransGen fun c c' => ∃ k, P k ∧ Touch k c c' ∧ c'.now.settings = c.now.settings

omit [CryptoLib] in
theorem Touch.log (h : Touch k c c') : c.log <+: c'.log := by
  cases h with
  | rest h =>
    obtain ⟨new, hlog, -⟩ := h.log
    exact ⟨_, hlog.symm⟩
  | act hch ha hset hlog => exact ⟨_, hlog.symm⟩
  | enter halloc hf hlog hone => exact ⟨_, hlog.symm⟩
  | leave hch hl hrel hlog hone => exact ⟨_, hlog.symm⟩
  | missed hnone hm hsame hlog => exact ⟨_, hlog.symm⟩

omit [CryptoLib] in
theorem Touch.table (h : Touch k c c') (ht : TableOk c.now.channels) : TableOk c'.now.channels := by
  cases h with
  | rest h =>
    rw [h.channels]
    exact ht
  | act hch ha hset hlog =>
    rw [hset]
    exact ht.set _ _
  | enter halloc hf hlog hone => exact ((ChannelTable.alloc_sat ht _).of_ok halloc).table
  | leave hch hl hrel hlog hone =>
    rw [hrel]
    exact ht.release _
  | missed hnone hm hsame hlog =>
    rw [hsame]
    exact ht

omit [CryptoLib] in
theorem Act.localId {x : Connection} {ch ch' : Channel} {new : List Obs}
    (h : Act id x ch k ch' new) : ch'.localId = ch.localId := by
  cases h <;> rfl

omit [CryptoLib] in
/-- The table stays the table of its slots: ids that are handed out are free, and
    every channel knows its own. -/
theorem Touch.represents (h : Touch k c c') (ht : c.now.channels.Represents) :
    c'.now.channels.Represents := by
  cases h with
  | rest h =>
    rw [h.channels]
    exact ht
  | act hch ha hset hlog =>
    rw [hset]
    exact ht.set hch ha.localId
  | enter halloc hf hlog hone => exact ((ht.alloc _).of_ok halloc).1
  | leave hch hl hrel hlog hone =>
    rw [hrel]
    exact ht.release _
  | missed hnone hm hsame hlog =>
    rw [hsame]
    exact ht

omit [CryptoLib] in
theorem outboundAllowance_room {c : Connection} {ch : Channel} {chunk : Bytes}
    (hch : c.channels.get? id = some ch) (hne : chunk ≠ [])
    (hallow : chunk.length ≤ c.outboundAllowance id) :
    ch.pendingOutBytes + chunk.length ≤ pendingMax := by
  have hpos := List.length_pos_iff.mpr hne
  unfold outboundAllowance at hallow
  rw [hch] at hallow
  dsimp only at hallow
  unfold pendingMax
  split at hallow
  · omega
  · split at hallow <;> omega

omit [CryptoLib] in
/-- With the gate open the allowance is within that of the channel. -/
theorem outboundAllowance_open {c : Connection} {ch : Channel} {n : Nat}
    (hch : c.channels.get? id = some ch) (hgate : c.kexBlocksApp = false)
    (hallow : n ≤ c.outboundAllowance id) : n ≤ ch.outboundAllowance := by
  unfold outboundAllowance at hallow
  rw [hch] at hallow
  dsimp only at hallow
  rw [hgate, if_neg Bool.false_ne_true] at hallow
  split at hallow <;> omega

/-- The rounds of `send_data`, one act for each. -/
theorem SendsData.touches {chunks : List Bytes} (data : Bytes) (h : SendsData j c chunks c')
    (hP : P (.call (.sendData j data))) : TouchSteps P c c' := by
  induction h with
  | done c => exact .refl
  | defer hch hne hallow hgate htail ih =>
    refine .head ⟨_, hP, ?_, ?_⟩ ih
    · exact .act hch (.defer hne (outboundAllowance_room hch hne hallow) hgate) rfl
        (List.append_nil _).symm
    · rfl
  | wire hch hne hallow hgate hr hq htail ih =>
    obtain ⟨w, hlog⟩ := hq.log
    refine .head ⟨_, hP, ?_, hq.extends.settings⟩ ih
    exact .act hch (.wire hne (outboundAllowance_open hch hgate hallow) hgate hr) hq.channels hlog

omit [CryptoLib] in
theorem withoutChannel_log {ch : Channel} (hch : c.now.channels.get? j = some ch) :
    (withoutChannel c j).log = c.log ++ [.freed j] := by
  unfold withoutChannel
  rw [hch]
  rfl

theorem Sends.log (h : Sends owner payload c c') : ∃ new, c'.log = c.log ++ new ∧
    (∀ o ∈ new, ∃ b w, o = .queued b owner payload w) ∧ new.countP Obs.isQueued ≤ 1 := by
  rcases h with h | ⟨-, h⟩
  · obtain ⟨w, hlog⟩ := h.log
    exact ⟨_, hlog, fun o ho => ⟨_, w, List.mem_singleton.mp ho⟩, List.countP_le_length⟩
  · exact ⟨[], by rw [h.log, List.append_nil], fun _ ho => absurd ho List.not_mem_nil,
      Nat.zero_le _⟩

/-- A step other than `send_data` touches one channel at most. -/
theorem Step.touch (h : Step k c c') (hk : ∀ j data, k ≠ .call (.sendData j data)) :
    Touch k c c' := by
  have hnone : c.log = c.log ++ [] := (List.append_nil _).symm
  cases h with
  | pull =>
    obtain ⟨_, _, _, _, h⟩ := c.now.pullCurrentOut_eq
    refine .rest (.of_eq ?_ rfl)
    rw [h]
  | @drain _ b m hb hm =>
    obtain ⟨_, _, _, _, _, h⟩ := c.now.pullDrained_eq b (min m b.length)
    refine .rest (.of_eq ?_ rfl)
    rw [h]
  | popEvent | roundRobin | tick => exact .rest (.of_eq rfl rfl)
  | draw h => exact .rest h.bypasses
  | startKex hk hs h => exact .rest h.bypasses
  | hangUp h => exact .rest h.bypasses
  | closeEvent j => exact .rest (.event nofun)
  | consume hch hq => exact .act hch (.consume hq) rfl hnone
  | grantSilent hgate hch hadd hpos hr =>
    exact .act hch (.grantSilent hgate hadd hpos hr) rfl hnone
  | grant hgate hch hadd hpos hr hq =>
    obtain ⟨w, hlog⟩ := hq.log
    exact .act hch (.grant hgate hadd hpos hr) hq.channels hlog
  | sendData | sendLost => exact absurd rfl (hk _ _)
  | flush hch hcan hp hne hq =>
    obtain ⟨w, hlog⟩ := hq.log
    exact .act hch (.flush hcan hp hne) hq.channels hlog
  | flushLost hch hcan hp hne hhard =>
    have hlimits : c.now.writeHard < c.now.writeSoft := by
      have := writeBytes_le_queued c.now
      have := hcan.room
      omega
    exact .act hch (.flushLost hcan hp hne hlimits) rfl hnone
  | askEof hch he hc => exact .act hch (.askEof he hc) rfl rfl
  | askClose hgate hch hc => exact .act hch (.askClose hgate hc) rfl rfl
  | closeAgain hch hc hw => exact .act hch (.closeAgain hc hw) rfl rfl
  | closeSilent hgate hch hc hw hr => exact .act hch (.closeSilent hgate hc hw hr) rfl rfl
  | closeNow hgate hch hc hw hr hq =>
    obtain ⟨w, hlog⟩ := hq.log
    refine .act hch (.closeNow (w := w) hgate hc hw hr) hq.channels ?_
    rw [hlog, List.append_assoc]
    rfl
  | emitEofSilent hgate hch he hw hr =>
    exact .act hch (.emitEofSilent hgate he hw hr) rfl hnone
  | emitEof hgate hch he hw hr hq =>
    obtain ⟨w, hlog⟩ := hq.log
    exact .act hch (.emitEof hgate he hw hr) hq.channels hlog
  | emitCloseSilent hgate hch hc hw hr =>
    exact .act hch (.emitCloseSilent hgate hc hw hr) rfl hnone
  | emitClose hgate hch hc hw hr hq =>
    obtain ⟨w, hlog⟩ := hq.log
    exact .act hch (.emitClose hgate hc hw hr) hq.channels hlog
  | freeClosed hch hg hw =>
    exact .leave hch (.closed hg hw) rfl (withoutChannel_log hch) (Nat.zero_le _)
  | confirmSilent hch hr => exact .act hch (.confirmSilent hr) rfl hnone
  | confirm hch hr hq =>
    obtain ⟨w, hlog⟩ := hq.log
    exact .act hch (.confirm hr) hq.channels hlog
  | failOpen hch hr hs =>
    obtain ⟨new, hlog, hnew, hone⟩ := hs.log
    refine .leave hch (.failed hr hnew) hs.channels ?_ hone
    rw [hlog, withoutChannel_log hch, List.append_assoc]
    rfl
  | openLocal hrole hauth ha hs =>
    obtain ⟨new, hlog, hnew, hone⟩ := hs.log
    cases ha with
    | @mk t halloc =>
      have hsame : c'.now.channels = t := hs.channels
      rw [← hsame] at halloc
      refine .enter halloc (.here hrole hnew) ?_ hone
      rw [hlog, List.append_assoc]
      rfl

theorem Step.touches (h : Step k c c') (hP : P k) : TouchSteps P c c' := by
  by_cases hk : ∃ j data, k = .call (.sendData j data)
  · obtain ⟨j, data, rfl⟩ := hk
    cases h with
    | sendData h hn hdata =>
      exact (h.touches _ hP).tail ⟨_, hP, .rest (.note rfl trivial), rfl⟩
    | sendLost h hch hgate hr hsoft hhard hn =>
      refine (h.touches _ hP).tail ⟨_, hP, ?_, rfl⟩
      exact .act hch (.sendLost (Nat.lt_of_le_of_lt hhard hsoft) hn) rfl (List.append_nil _).symm
  · exact .single ⟨k, hP, h.touch fun j data hdata => hk ⟨j, data, hdata⟩, h.extends.settings⟩

omit [CryptoLib] in
/-- What is ignored opens no channel and carries no data or credit. -/
theorem Ignores.foreign {x : Connection} (h : Ignores x p) : Foreign p := by
  cases h with
  | @passive m hm hmem =>
    apply foreign_of_isMsg hm
    revert hmem
    cases m <;> decide
  | @notServer m hr hm hmem =>
    apply foreign_of_isMsg hm
    revert hmem
    cases m <;> decide
  | notClient hr hm => exact foreign_of_isMsg hm (by decide)
  | closeUnknown hm hch => exact foreign_of_isMsg (IsMsg.of_prefix hm) (by decide)

/-- A reply, on behalf of a channel or of none. -/
theorem Answers.touch {reply : Bytes} (hr : Receives p c c1) (h : Answers c1.now p owner reply)
    (hq : Queues owner reply c1 c') : Touch .own c c' := by
  cases h with
  | @request i r ch m hm hwant hch hremote ht =>
    rw [hr.channels] at hch
    obtain ⟨w, hlog⟩ := hq.log
    refine .act hch (.reply (w := w) hm hwant hremote ht hr.channels) ?_ ?_
    · rw [hq.channels, hr.channels, ChannelTable.set_get? hch]
    · rw [hlog, hr.log, List.append_assoc]
      rfl
  | service hs hm hn =>
    exact .rest ((hr.bypasses (foreign_of_isMsg (IsMsg.of_prefix hm) (by decide))).trans hq.bypasses)
  | credentials hs hc hm =>
    exact .rest ((hr.bypasses (foreign_of_isMsg hm (by decide))).trans hq.bypasses)
  | «global» hm hw hm' =>
    exact .rest ((hr.bypasses (foreign_of_isMsg hm (by decide))).trans hq.bypasses)
  | unknownType hauth hm ht =>
    exact .rest ((hr.bypasses (.unknownType hm ht)).trans hq.bypasses)
  | ping hm => exact .rest ((hr.bypasses (foreign_of_isMsg hm (by decide))).trans hq.bypasses)
  | @unknown t hm ht =>
    refine .rest ((hr.bypasses (.other fun m _ hm' => ?_)).trans hq.bypasses)
    have hcode : m.code = t := Option.some.inj (hm'.symm.trans hm)
    rw [← hcode, MsgType.ofCode_code] at ht
    cases ht

/-- A write to a channel on behalf of a packet. -/
theorem Receives.touch {ch ch' : Channel} {new : List Obs} (hr : Receives p c c1)
    (hch : c1.now.channels.get? j = some ch)
    (ha : Act j c.now ch .own ch' (.handled c.now p :: new))
    (hset : c'.now.channels = c1.now.channels.set j ch') (hlog : c'.log = c1.log ++ new) :
    Touch .own c c' := by
  rw [hr.channels] at hch hset
  refine .act hch ha hset ?_
  rw [hlog, hr.log, List.append_assoc]
  rfl

/-- A channel opened by the peer. -/
theorem Receives.touchOpens {c2 : Conn} {kind : ChannelKind} {typ : String}
    {remote w m port : UInt32} {host : Option String} {ev : Event} (hr : Receives p c c1)
    (hm : MsgType.channelOpen.code ::
      (putStr typ ++ putU32 remote ++ putU32 w ++ putU32 m) <+: p)
    (ha : Allocates (peerChannel c1.now kind remote w m host port) c1 j c2)
    (hev : ∀ i, ev ≠ .channelData i) : Touch .own c (withEvent c2 ev) := by
  have hset := hr.control
  have hpeer : peerChannel c1.now kind remote w m host port
      = peerChannel c.now kind remote w m host port := by
    unfold peerChannel
    rw [show c1.now.window = c.now.window from congrArg (·.conn.window) hset,
      show c1.now.maxPacket = c.now.maxPacket from congrArg (·.conn.maxPacket) hset]
  rw [hpeer] at ha
  cases ha with
  | mk halloc =>
    rw [hr.channels] at halloc
    refine .enter halloc (.peer hm hev) ?_ (Nat.zero_le _)
    show (c1.log ++ [.opened j]) ++ [.emitted ev] = _
    rw [hr.log, List.append_assoc, List.append_assoc]
    rfl

/-- A packet touches one channel at most. -/
theorem Handles.touch (h : Handles p c c') : Touch .own c c' := by
  -- what the packet layer leaves alone, then what the handler does
  have hrest : ∀ {c1 : Conn}, Receives p c c1 → Foreign p → Bypasses c1 c' → Touch .own c c' :=
    fun hr hp h => .rest ((hr.bypasses hp).trans h)
  cases h with
  | skip hr h => exact hrest hr h.foreign (.refl _)
  | answer hr h hq => exact h.touch hr hq
  | kexinitServer hr hm hrole hp hj hk hn =>
    have h := hj.bypasses
    exact hrest hr (foreign_of_isMsg hm (by decide)) ⟨h.channels, h.log⟩
  | kexinitClient hr hm hrole hp hj hk hn hpub hq =>
    have h := hj.bypasses
    have h' := hq.bypasses
    exact hrest hr (foreign_of_isMsg hm (by decide)) (h.trans (h'.behind rfl rfl))
  | ecdhInit hr hrole hm hcfg hx hz hq hs =>
    have h := hq.bypasses.trans hs.bypasses
    exact hrest hr (foreign_of_isMsg (IsMsg.of_prefix hm) (by decide)) (h.behind rfl rfl)
  | ecdhReply hr hrole hm hpub hsec hx hks hsig hz hs =>
    have h := hs.bypasses
    exact hrest hr (foreign_of_isMsg (IsMsg.of_prefix hm) (by decide)) (h.behind rfl rfl)
  | newkeysFirst hr hm hpk hf hg =>
    have h := hg.bypasses
    exact hrest hr (foreign_of_isMsg hm (by decide)) (h.after rfl trivial)
  | newkeysAgain hr hm hpk hf =>
    exact hrest hr (foreign_of_isMsg hm (by decide)) (.note rfl trivial)
  | userauthSuccess hr hm =>
    have h : ∀ {x : Conn} {user : String}, Bypasses x (withEvent x (.handshakeComplete user)) :=
      .event nofun
    exact hrest hr (foreign_of_isMsg hm (by decide)) (h.after rfl trivial)
  | authAccept hr hrole hcfg hm hok hq =>
    have h := hq.bypasses
    have h1 := h.after (o := .authenticated _)
      (c := ⟨_, _ ++ [.passwordChecked _ _ true]⟩) rfl trivial
    exact hrest hr (foreign_of_isMsg (IsMsg.of_prefix hm) (by decide))
      ((h1.after rfl trivial).trans (.event nofun))
  | authReject hr hrole hcfg hm hbad hd =>
    have h := hd.bypasses
    exact hrest hr (foreign_of_isMsg (IsMsg.of_prefix hm) (by decide)) (h.after rfl trivial)
  | authOther hr hrole hcfg hm hd =>
    exact hrest hr (foreign_of_isMsg hm (by decide)) hd.bypasses
  | disconnect hr hm =>
    refine hrest hr (foreign_of_isMsg hm (by decide)) (Bypasses.note rfl ?_)
    exact nofun
  | openSession hr hm hauth ha => exact hr.touchOpens hm ha nofun
  | @openDirect _ _ _ remote w m port host hr hm hauth ha =>
    have hshort : MsgType.channelOpen.code ::
        (putStr "direct-tcpip" ++ putU32 remote ++ putU32 w ++ putU32 m) <+: p := by
      refine List.IsPrefix.trans ?_ hm
      exact ⟨putStr host ++ putU32 port, by simp⟩
    exact hr.touchOpens hshort ha nofun
  | openConfirm hr hm hch => exact hr.touch hch (.peerConfirm hm) rfl rfl
  | @openFail c1 i reason msg hr hm =>
    cases hch : c.now.channels.get? i with
    | none =>
      have hch1 : c1.now.channels.get? i = none := hr.channels ▸ hch
      have hsame : c1.now.channels.release i = c.now.channels := by
        rw [ChannelTable.release_of_none hch1, hr.channels]
      have hlog : (c1.log ++ if (c1.now.channels.get? i).isSome then [.freed i] else [])
          ++ [.emitted (.channelOpenFailure i reason msg)]
          = c.log ++ [.handled c.now p, .emitted (.channelOpenFailure i reason msg)] := by
        rw [hch1, hr.log]
        simp
      exact .missed hch hm hsame hlog
    | some ch =>
      have hleave : Leaves i c.now ch .own
          [.handled c.now p, .freed i, .emitted (.channelOpenFailure i reason msg)] := .refused hm
      refine .leave hch hleave ?_ ?_ (Nat.zero_le _)
      · show ChannelTable.release _ _ = _
        rw [hr.channels]
      · show (withoutChannel _ _).log ++ _ = _
        rw [withoutChannel_log (hr.channels ▸ hch), hr.log, List.append_assoc, List.append_assoc]
        rfl
  | windowAdjust hr hm hch => exact hr.touch hch (.credit hm) rfl (List.append_nil _).symm
  | deliver hr hm hch hw => exact hr.touch hch (.deliver hm hw) rfl rfl
  | peerEof hr hm hch => exact hr.touch hch (.peerEof hm) rfl rfl
  | peerEofUnknown hr hm hch =>
    exact hrest hr (foreign_of_isMsg (IsMsg.of_prefix hm) (by decide)) (.event nofun)
  | peerClose hr hm hch => exact hr.touch hch (.peerClose hm) rfl (List.append_nil _).symm

-- ============================================================================
-- Moves, on one slot
-- ============================================================================

/-- The slot is as it was, and the history says nothing about it. -/
structure Skirts (id : UInt32) (c c' : Conn) : Prop where
  get : c'.now.channels.get? id = c.now.channels.get? id
  log : ∃ new, c'.log = c.log ++ new ∧ ∀ o ∈ new, o.Off id

namespace Skirts

omit [CryptoLib]

/-- Neither the channels nor the history changed. -/
theorem of_eq (ht : c'.now.channels = c.now.channels) (hl : c'.log = c.log) : Skirts id c c' :=
  ⟨by rw [ht], [], by simp [hl]⟩

theorem note {o : Obs} {x : Connection} (ht : x.channels = c.now.channels) (ho : o.Off id) :
    Skirts id c ⟨x, c.log ++ [o]⟩ :=
  ⟨by rw [ht], [o], rfl, fun o' ho' => by rw [List.mem_singleton.mp ho']; exact ho⟩

theorem step (h : Skirts id c c') : SlotStep id k c c' := by
  obtain ⟨new, hl, hnew⟩ := h.log
  exact .idle h.get hl hnew

theorem steps (h : Skirts id c c') (hk : P k) : SlotSteps id P c c' := .single ⟨k, hk, h.step⟩

end Skirts

omit [CryptoLib] in
theorem Bypasses.skirts (h : Bypasses c c') : Skirts id c c' := by
  obtain ⟨new, hl, hnew⟩ := h.log
  exact ⟨by rw [h.channels], new, hl, fun o ho => (hnew o ho).off id⟩

theorem Starts.skirts (h : Starts c c') : Skirts id c c' := h.bypasses.skirts

theorem Receives.skirts (h : Receives p c c1) : Skirts id c c1 := by
  refine ⟨by rw [h.channels], _, h.log, fun o ho => ?_⟩
  rw [List.mem_singleton.mp ho]
  trivial

theorem Faults.skirts (h : Faults c c') : Skirts id c c' := by
  cases h with
  | reject h => exact h.skirts
  | spoil h hm hrole hk hsec =>
    obtain ⟨new, hl, hnew⟩ := h.skirts.log
    exact ⟨h.skirts.get, new, hl, hnew⟩
  | drop hkind => exact .of_eq rfl rfl
  | identBad h => exact .of_eq rfl rfl

omit [CryptoLib] in
/-- What happens to one channel is off every other slot. -/
theorem Act.off {x : Connection} {ch ch' : Channel} {new : List Obs} (h : Act j x ch k ch' new)
    (hj : j ≠ id) : ∀ o ∈ new, o.Off id := by
  have howner : some j ≠ some id := fun h => hj (Option.some.inj h)
  cases h with
  | deliver hm hw =>
    have hev : Event.channelData j ≠ .channelData id := fun h => hj (Event.channelData.inj h)
    simp [Obs.Off, hev]
  | _ => simp [Obs.Off, howner]

omit [CryptoLib] in
/-- A write to channel `j`, seen from slot `id`. -/
theorem Act.slot {ch ch' : Channel} {new : List Obs} (ha : Act j c.now ch k ch' new)
    (hch : c.now.channels.get? j = some ch)
    (hset : c'.now.channels = c.now.channels.set j ch') (hlog : c'.log = c.log ++ new) :
    SlotStep id k c c' := by
  by_cases hj : j = id
  · subst hj
    refine .act hch ?_ ha hlog
    rw [hset, ChannelTable.get?_set_self hch]
  · refine .idle ?_ hlog (ha.off hj)
    rw [hset, ChannelTable.get?_set_ne (Ne.symm hj)]

omit [CryptoLib] in
/-- A channel put into slot `j`, seen from slot `id`. -/
theorem Fresh.slot {ch : Channel} {new : List Obs} (hf : Fresh j c.now k ch new)
    (hself : c'.now.channels.get? j = some ch)
    (hother : ∀ i, i ≠ j → c'.now.channels.get? i = c.now.channels.get? i)
    (hlog : c'.log = c.log ++ new) : SlotStep id k c c' := by
  by_cases hj : j = id
  · subst hj
    exact .enter hself hf hlog
  · refine .idle (hother id (Ne.symm hj)) hlog ?_
    have howner : some j ≠ some id := fun h => hj (Option.some.inj h)
    cases hf with
    | peer hm hev => simp [Obs.Off, hj, hev]
    | here hrole hnew =>
      intro o ho
      rcases List.mem_cons.mp ho with rfl | ho
      · exact hj
      · obtain ⟨b, w, rfl⟩ := hnew o ho
        exact howner

omit [CryptoLib] in
/-- Slot `j` emptied, seen from slot `id`. -/
theorem Leaves.slot {ch : Channel} {new : List Obs} (hl : Leaves j c.now ch k new)
    (hch : c.now.channels.get? j = some ch)
    (hrel : c'.now.channels = c.now.channels.release j) (hlog : c'.log = c.log ++ new) :
    SlotStep id k c c' := by
  by_cases hj : j = id
  · subst hj
    refine .leave hch ?_ hl hlog
    rw [hrel, ChannelTable.get?_release_self]
  · refine .idle ?_ hlog ?_
    · rw [hrel, ChannelTable.get?_release_ne _ (Ne.symm hj)]
    have howner : some j ≠ some id := fun h => hj (Option.some.inj h)
    cases hl with
    | closed hg hw => simp [Obs.Off, hj]
    | failed hr hnew =>
      intro o ho
      rcases List.mem_cons.mp ho with rfl | ho
      · exact hj
      · obtain ⟨b, w, rfl⟩ := hnew o ho
        exact howner
    | refused hm => simp [Obs.Off, hj]

omit [CryptoLib] in
/-- What a move does, seen from slot `id`. -/
theorem Touch.slot (h : Touch k c c') (ht : TableOk c.now.channels) : SlotStep id k c c' := by
  cases h with
  | rest h => exact h.skirts.step
  | act hch ha hset hlog => exact ha.slot hch hset hlog
  | enter halloc hf hlog hone =>
    have hp := (ChannelTable.alloc_sat ht _).of_ok halloc
    exact hf.slot hp.self hp.other hlog
  | leave hch hl hrel hlog hone => exact hl.slot hch hrel hlog
  | missed hnone hm hsame hlog =>
    refine .idle (by rw [hsame]) hlog fun o ho => ?_
    rcases List.mem_cons.mp ho with rfl | ho
    · trivial
    · rw [List.mem_singleton.mp ho]
      exact nofun

omit [CryptoLib] in
theorem TouchSteps.slots (h : TouchSteps P c c') (ht : TableOk c.now.channels) :
    SlotSteps id P c c' := by
  have hboth : SlotSteps id P c c' ∧ TableOk c'.now.channels := by
    induction h with
    | refl => exact ⟨.refl, ht⟩
    | tail _ hlast ih =>
      obtain ⟨k, hk, hs, -⟩ := hlast
      exact ⟨ih.1.tail ⟨k, hk, hs.slot ih.2⟩, hs.table ih.2⟩
  exact hboth.1

/-- A step other than `send_data` is one step of the slot. -/
theorem Step.slot (h : Step k c c') (ht : TableOk c.now.channels)
    (hk : ∀ j data, k ≠ .call (.sendData j data)) : SlotStep id k c c' := (h.touch hk).slot ht

/-- The steps of a slot that one step of the connection makes. -/
theorem Step.slots (h : Step k c c') (ht : TableOk c.now.channels) (hP : P k) :
    SlotSteps id P c c' := (h.touches hP).slots ht

theorem Handles.slot (h : Handles p c c') (ht : TableOk c.now.channels) :
    SlotStep id .own c c' := h.touch.slot ht

/-- A move is one step of the slot, unless it is `send_data`. -/
theorem Move.slot (h : Move c c') (ht : TableOk c.now.channels) :
    (∃ k, SlotStep id k c c') ∨ ∃ j data, Step (.call (.sendData j data)) c c' := by
  cases h with
  | quiet h =>
    cases h with
    | step h => exact .inl ⟨_, h.slot ht nofun⟩
    | handle h => exact .inl ⟨_, h.slot ht⟩
    | identWait h hno => exact .inl ⟨.own, Skirts.step (.of_eq rfl rfl)⟩
    | identDone h hs => exact .inl ⟨.own, Skirts.step (.of_eq rfl rfl)⟩
  | fault h => exact .inl ⟨.own, h.skirts.step⟩
  | recv bytes => exact .inl ⟨.own, Skirts.step (.of_eq rfl rfl)⟩
  | @own _ k h =>
    by_cases hk : ∃ j data, k = .call (.sendData j data)
    · obtain ⟨j, data, rfl⟩ := hk
      exact .inr ⟨j, data, h⟩
    · exact .inl ⟨k, h.slot ht fun j data hdata => hk ⟨j, data, hdata⟩⟩

theorem Move.slots (h : Move c c') (ht : TableOk c.now.channels) :
    SlotSteps id (fun _ => True) c c' := by
  rcases h.slot ht with ⟨k, hs⟩ | ⟨j, data, hs⟩
  · exact .single ⟨k, trivial, hs⟩
  · exact hs.slots ht trivial

theorem Trail.slots (h : Trail P c c') (hwf : WellFormed c) : SlotSteps id P c c' := by
  induction h with
  | refl => exact .refl
  | tail hpre hlast ih =>
    obtain ⟨k, hk, hs⟩ := hlast
    exact ih.trans (hs.slots (Trail.wellFormed hpre hwf).table hk)

theorem Quiet.slots (h : Quiet c c') (ht : TableOk c.now.channels) :
    SlotSteps id Cause.Inner c c' := by
  cases h with
  | step h => exact h.slots ht trivial
  | handle h => exact .single ⟨.own, trivial, h.slot ht⟩
  | identWait h hno => exact Skirts.steps (.of_eq rfl rfl) (k := .own) trivial
  | identDone h hs => exact Skirts.steps (.of_eq rfl rfl) (k := .own) trivial

theorem Turn.slots (h : Turn c c') (hwf : WellFormed c) : SlotSteps id Cause.Inner c c' := by
  cases h with
  | quiet h => exact h.slots hwf.table
  | packet h hs =>
    have hone : SlotSteps id Cause.Inner _ _ := .single ⟨.own, trivial, h.slot hwf.table⟩
    exact hone.trans (hs.trail.slots (h.wellFormed hwf))

theorem Turns.slots (h : Turns c c') (hwf : WellFormed c) : SlotSteps id Cause.Inner c c' := by
  induction h with
  | refl => exact .refl
  | tail hpre hlast ih => exact ih.trans (hlast.slots (Turns.wellFormed hpre hwf))

theorem Breaks.slots (h : Breaks c c') (hwf : WellFormed c) : SlotSteps id Cause.Inner c c' := by
  cases h with
  | mk ht hf hs =>
    have hwf1 := Turns.wellFormed ht hwf
    refine (Turns.slots ht hwf).trans ?_
    rcases hf with rfl | hf
    · exact (Steps.trail hs).slots hwf1
    · have hone : SlotSteps id Cause.Inner _ _ := hf.skirts.steps (k := .own) trivial
      exact hone.trans ((Steps.trail hs).slots (hf.wellFormed hwf1))

/-- A call, seen from slot `id`: what the application causes is that call. -/
theorem Call.run_slots {call : Call} (hwf : WellFormed c) (hend : (call.run c).state? = some c') :
    SlotSteps id (fun k => k.Inner ∨ k = .call call) c c' := by
  have hinner : SlotSteps id Cause.Inner c c' →
      SlotSteps id (fun k => k.Inner ∨ k = .call call) c c' :=
    fun h => ReflTransGen.mono (fun _ _ ⟨k, hk, hs⟩ => ⟨k, .inl hk, hs⟩) _ _ h
  by_cases hin : call = .processIn
  · subst hin
    have hsat := processIn_sat c hwf
    rcases Outcome.state?_eq_some hend with ⟨a, hok⟩ | ⟨e, herr⟩
    · exact hinner (Turns.slots (hsat.of_ok hok) hwf)
    · exact hinner ((hsat.of_err herr).slots hwf)
  by_cases hbytes : ∃ bytes, call = .recv bytes
  · obtain ⟨bytes, rfl⟩ := hbytes
    cases hend
    exact hinner (Skirts.steps (.of_eq rfl rfl) (k := .own) trivial)
  have hsat := call.run_called c hwf hin fun bytes hb => hbytes ⟨bytes, hb⟩
  rcases Outcome.state?_eq_some hend with ⟨a, hok⟩ | ⟨e, herr⟩
  · exact (hsat.of_ok hok).trail.slots hwf
  · exact (hsat.of_err herr).trail.slots hwf

omit [CryptoLib] in
theorem SlotSteps.log (h : SlotSteps id P c c') : c.log <+: c'.log := by
  induction h with
  | refl => exact List.prefix_rfl
  | tail _ hlast ih =>
    obtain ⟨k, -, hs⟩ := hlast
    exact ih.trans hs.log

omit [CryptoLib] in
/-- What every step of a slot keeps, a sequence of them keeps. -/
theorem SlotSteps.invariant {I : Conn → Prop} {G : Obs → Prop}
    (hstep : ∀ k c c', P k → I c → SlotStep id k c c' → (∀ o ∈ c'.log, G o) → I c')
    (h : SlotSteps id P c c') (hI : I c) (hG : ∀ o ∈ c'.log, G o) : I c' := by
  induction h with
  | refl => exact hI
  | tail hpre hlast ih =>
    obtain ⟨k, hk, hs⟩ := hlast
    exact hstep k _ _ hk (ih fun o ho => hG o (hs.log.subset ho)) hs hG

/-- The rule for a slot: `I` holds after the constructor, and every step of the
    slot keeps it, as long as the history stays within `G`. -/
theorem Setup.Reaches.slot {setup : Setup} {c : Conn} {I : Conn → Prop} {G : Obs → Prop}
    (id : UInt32) (h : setup.Reaches c)
    (h0 : ∀ rng c0, Starts ⟨setup.blank rng, []⟩ c0 → I c0)
    (hstep : ∀ k c c', I c → SlotStep id k c c' → (∀ o ∈ c'.log, G o) → I c')
    (hG : ∀ o ∈ c.log, G o) : I c := by
  obtain ⟨rng, c0, hstart, hmoves⟩ := h
  refine Moves.invariant ?_ hmoves (setup.starts_wellFormed hstart) (h0 rng c0 hstart) hG
  intro c c' hwf hI hm hG
  exact (hm.slots hwf.table).invariant (fun k c c' _ hI hs hG => hstep k c c' hI hs hG) hI hG

omit [CryptoLib] in
/-- What is true of a channel when it enters the slot, and kept by its acts, a
    step of the slot keeps. -/
theorem SlotStep.keeps {R : Channel → Prop} {G : Obs → Prop} (hs : SlotStep id k c c')
    (hfresh : ∀ x k ch new, Fresh id x k ch new → (∀ o ∈ new, G o) → R ch)
    (hact : ∀ x k ch ch' new, x.channels.get? id = some ch → R ch → Act id x ch k ch' new →
      (∀ o ∈ new, G o) → R ch')
    (hI : ∀ ch, c.now.channels.get? id = some ch → R ch) (hG : ∀ o ∈ c'.log, G o) :
    ∀ ch, c'.now.channels.get? id = some ch → R ch := by
  intro ch' hch'
  cases hs with
  | idle hget hlog hnew => exact hI ch' (hget ▸ hch')
  | act hch hch1 ha hlog =>
    cases hch1.symm.trans hch'
    refine hact _ _ _ _ _ hch (hI _ hch) ha fun o ho => hG o ?_
    rw [hlog]
    exact List.mem_append_right _ ho
  | enter hch1 hf hlog =>
    cases hch1.symm.trans hch'
    refine hfresh _ _ _ _ hf fun o ho => hG o ?_
    rw [hlog]
    exact List.mem_append_right _ ho
  | leave hch hnone hl hlog => cases hnone.symm.trans hch'

/-- After the constructor no slot is filled. -/
theorem Starts.no_channel {setup : Setup} {rng : Rng} {c0 : Conn} {ch : Channel}
    (h : Starts ⟨setup.blank rng, []⟩ c0) : c0.now.channels.get? id ≠ some ch := by
  rw [h.channels]
  cases setup <;> exact nofun

/-- The same for what is true of every channel. -/
theorem Setup.Reaches.channel {setup : Setup} {c : Conn} {R : Channel → Prop} {G : Obs → Prop}
    {id : UInt32} {ch : Channel} (h : setup.Reaches c) (hch : c.now.channels.get? id = some ch)
    (hfresh : ∀ x k ch new, Fresh id x k ch new → (∀ o ∈ new, G o) → R ch)
    (hact : ∀ x k ch ch' new, x.channels.get? id = some ch → R ch → Act id x ch k ch' new →
      (∀ o ∈ new, G o) → R ch')
    (hG : ∀ o ∈ c.log, G o) : R ch :=
  h.slot (I := fun c => ∀ ch, c.now.channels.get? id = some ch → R ch) (G := G) id
    (fun _ _ h0 _ hch => absurd hch h0.no_channel)
    (fun _ _ _ hI hs hG => hs.keeps hfresh hact hI hG) hG ch hch

-- ============================================================================
-- The table in a run
-- ============================================================================

theorem Faults.channels (h : Faults c c') : c'.now.channels = c.now.channels := by
  cases h with
  | reject h => exact h.channels
  | spoil h => exact h.channels
  | drop => rfl
  | identBad => rfl

omit [CryptoLib] in
theorem TouchSteps.represents (h : TouchSteps P c c') (ht : c.now.channels.Represents) :
    c'.now.channels.Represents := by
  induction h with
  | refl => exact ht
  | tail _ hlast ih =>
    obtain ⟨k, -, hs, -⟩ := hlast
    exact hs.represents ih

theorem Move.represents (h : Move c c') (ht : c.now.channels.Represents) :
    c'.now.channels.Represents := by
  cases h with
  | quiet h =>
    cases h with
    | step h => exact (h.touch nofun).represents ht
    | handle h => exact h.touch.represents ht
    | identWait h hno => exact ht
    | identDone h hs => exact ht
  | fault h =>
    rw [h.channels]
    exact ht
  | recv bytes => exact ht
  | own h => exact (h.touches (P := fun _ => True) trivial).represents ht

theorem Moves.represents (h : Moves c c') (ht : c.now.channels.Represents) :
    c'.now.channels.Represents := by
  induction h with
  | refl => exact ht
  | tail _ hlast ih => exact hlast.represents ih

/-- In every run the free list holds the empty slots, and every channel knows
    its own id. -/
theorem Setup.Reaches.represents {setup : Setup} {c : Conn} (h : setup.Reaches c) :
    c.now.channels.Represents := by
  obtain ⟨rng, c0, hstart, hmoves⟩ := h
  refine Moves.represents hmoves ?_
  rw [hstart.channels]
  cases setup with
  | server cfg => exact .new cfg.maxChannels
  | client cfg => exact .new 256

end Ssproxy
