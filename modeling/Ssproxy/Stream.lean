/-
  Ssproxy.Stream

  The outbound byte stream of a channel.  `send_data` accepts bytes and either
  puts them on the wire or defers them in `pending_out`; `flush_pending` sends
  what was deferred; EOF and CLOSE end the stream.

  `Effect` says once what a move can do to the stream of a channel.  The order
  of the bytes and the place of the EOF are invariants derived from it.
-/

import Ssproxy.Laws
import Ssproxy.Refine.Run

namespace Ssproxy

open Lib Wire Connection Relation

-- ============================================================================
-- The stream in the history
-- ============================================================================

/-- What `send_data` accepted for a channel, and what went out of it. -/
structure Stream where
  accepted : Bytes
  wired : Bytes
  deriving DecidableEq

/-- One observation.  A channel that is opened starts anew; the data field of a
    CHANNEL_DATA follows the message number, the recipient and its length. -/
def Stream.note (id : UInt32) (s : Stream) : Obs → Stream
  | .opened j => if j = id then ⟨[], []⟩ else s
  | .accepted _ j data n => if j = id then { s with accepted := s.accepted ++ data.take n } else s
  | .queued _ owner p _ =>
      if owner = some id ∧ IsMsg .channelData p then { s with wired := s.wired ++ p.drop 9 } else s
  | _ => s

/-- The stream of channel `id` since it was last opened. -/
def streamOf (id : UInt32) (log : List Obs) : Stream := log.foldl (Stream.note id) ⟨[], []⟩

/-- The observation is neither an EOF of channel `id` nor a call of `send_data`
    on it. -/
def Obs.Plain (id : UInt32) : Obs → Prop
  | accepted _ j _ _ => j ≠ id
  | queued _ owner p _ => owner = some id → ¬IsMsg .channelEof p
  | _ => True

/-- The observation does not touch the stream of channel `id`. -/
def Obs.Aside (id : UInt32) : Obs → Prop
  | opened j => j ≠ id
  | accepted _ j _ _ => j ≠ id
  | queued _ owner p _ => owner = some id → ¬IsMsg .channelData p ∧ ¬IsMsg .channelEof p
  | _ => True

section History

variable {id : UInt32} {l l' l'' : List Obs} {o : Obs} {data : Bytes}

theorem streamOf_append (id : UInt32) (l new : List Obs) :
    streamOf id (l ++ new) = new.foldl (Stream.note id) (streamOf id l) :=
  List.foldl_append

theorem Obs.Aside.note (h : o.Aside id) (s : Stream) : s.note id o = s := by
  cases o with
  | opened j => exact if_neg h
  | accepted before j data n => exact if_neg h
  | queued before owner p w => exact if_neg fun hp => (h hp.1).1 hp.2
  | _ => rfl

theorem Obs.Aside.plain (h : o.Aside id) : o.Plain id := by
  cases o with
  | accepted before j data n => exact h
  | queued before owner p w => exact fun hp => (h hp).2
  | _ => trivial

/-- The history grew by `data` of channel `id` and observations beside it. -/
structure Wires (id : UInt32) (l : List Obs) (data : Bytes) (l' : List Obs) : Prop where
  stream : (streamOf id l').accepted = (streamOf id l).accepted ∧
    (streamOf id l').wired = (streamOf id l).wired ++ data
  growth : ∃ new, l' = l ++ new ∧ ∀ o ∈ new, o.Plain id

/-- The history grew beside the stream of channel `id`. -/
def GrowsAside (id : UInt32) (l l' : List Obs) : Prop :=
  ∃ new, l' = l ++ new ∧ ∀ o ∈ new, o.Aside id

namespace GrowsAside

theorem refl (id : UInt32) (l : List Obs) : GrowsAside id l l := ⟨[], by simp⟩

theorem single (h : o.Aside id) : GrowsAside id l (l ++ [o]) :=
  ⟨[o], rfl, fun o' ho => by rw [List.mem_singleton.mp ho]; exact h⟩

theorem trans (h : GrowsAside id l l') (h' : GrowsAside id l' l'') : GrowsAside id l l'' := by
  obtain ⟨new, rfl, hnew⟩ := h
  obtain ⟨new', rfl, hnew'⟩ := h'
  refine ⟨new ++ new', by simp, fun o ho => ?_⟩
  exact (List.mem_append.mp ho).elim (hnew o) (hnew' o)

/-- The first of the new observations, split off. -/
theorem after (h : GrowsAside id (l ++ [o]) l') (ho : o.Aside id) : GrowsAside id l l' :=
  (single ho).trans h

theorem streamOf (h : GrowsAside id l l') : streamOf id l' = Ssproxy.streamOf id l := by
  obtain ⟨new, rfl, hnew⟩ := h
  rw [streamOf_append]
  induction new with
  | nil => rfl
  | cons o new ih =>
    obtain ⟨ho, hnew⟩ := List.forall_mem_cons.mp hnew
    rw [List.foldl_cons, ho.note]
    exact ih hnew

theorem wires (h : GrowsAside id l l') : Wires id l [] l' := by
  refine ⟨?_, ?_⟩
  · rw [h.streamOf, List.append_nil]
    exact ⟨rfl, rfl⟩
  · obtain ⟨new, hl, hnew⟩ := h
    exact ⟨new, hl, fun o ho => (hnew o ho).plain⟩

end GrowsAside

theorem Wires.trans {data' : Bytes} (h : Wires id l data l') (h' : Wires id l' data' l'') :
    Wires id l (data ++ data') l'' := by
  refine ⟨⟨h'.stream.1.trans h.stream.1, ?_⟩, ?_⟩
  · rw [h'.stream.2, h.stream.2, List.append_assoc]
  · obtain ⟨new, rfl, hnew⟩ := h.growth
    obtain ⟨new', rfl, hnew'⟩ := h'.growth
    refine ⟨new ++ new', by simp, fun o ho => ?_⟩
    exact (List.mem_append.mp ho).elim (hnew o) (hnew' o)

theorem isMsg_channelData (r : UInt32) (data : Bytes) :
    IsMsg .channelData (Msg.channelData r data) := rfl

theorem drop_channelData (r : UInt32) (data : Bytes) : (Msg.channelData r data).drop 9 = data := by
  unfold Msg.channelData
  rw [List.drop_succ_cons, putBytes, ← List.append_assoc]
  exact List.drop_left' (by simp)

theorem plain_channelData {before : Connection} {r : UInt32} {w : Bytes} :
    (Obs.queued before (some id) (Msg.channelData r data) w).Plain id :=
  fun _ h => absurd ((isMsg_channelData r data).unique h) (by decide)

end History

-- ============================================================================
-- The outlet of a channel
-- ============================================================================

/-- The part of a channel its outbound stream depends on. -/
structure Outlet where
  pending : List Bytes
  sentEof : Bool
  wireEof : Bool
  sentClose : Bool
  wireClose : Bool

def Channel.outlet (ch : Channel) : Outlet :=
  ⟨ch.pendingOut, ch.sentEof, ch.wireEof, ch.sentClose, ch.wireClose⟩

namespace Connection

def outlet? (c : Connection) (id : UInt32) : Option Outlet :=
  (c.channels.get? id).map Channel.outlet

/-- `send_eof` or `send_close` was called on channel `id`. -/
def Ended (c : Connection) (id : UInt32) : Prop :=
  ∃ ch, c.channels.get? id = some ch ∧ (ch.sentEof = true ∨ ch.sentClose = true)

/-- `send_data` on channel `id` would put its first bytes on the wire, ahead of
    bytes that are still deferred. -/
def Overtakes (c : Connection) (id : UInt32) : Prop :=
  c.kexBlocksApp = false ∧ 0 < c.outboundAllowance id ∧
    ∃ ch, c.channels.get? id = some ch ∧ ch.remoteId.isSome ∧ ch.pendingOut ≠ []

/-- `send_data` on channel `id` would defer bytes behind the end of the stream. -/
def Overruns (c : Connection) (id : UInt32) : Prop :=
  c.kexBlocksApp = true ∧ 0 < c.outboundAllowance id ∧ c.Ended id

/-- The stream of channel `id` would be ended, with an EOF to come, while bytes
    are deferred.  A CLOSE is preceded by an EOF only if the gate is closed. -/
def Truncates (c : Connection) (id : UInt32) (close : Bool) : Prop :=
  (close = false ∨ c.kexBlocksApp = true) ∧
    ∃ ch, c.channels.get? id = some ch ∧ ch.pendingOut ≠ []

section Outlet

variable {c : Connection} {id j : UInt32} {ch ch' : Channel}

theorem outlet?_of_get? (h : c.channels.get? id = some ch) : c.outlet? id = some ch.outlet := by
  rw [outlet?, h]
  rfl

theorem outlet?_congr {c' : Connection} (h : c'.channels = c.channels) :
    c'.outlet? id = c.outlet? id := by
  rw [outlet?, h]
  rfl

theorem outlet?_putChannel (h : c.channels.get? id = some ch) :
    (c.putChannel id ch').outlet? id = some ch'.outlet :=
  outlet?_of_get? (ChannelTable.get?_set_self h)

theorem outlet?_putChannel_ne (h : j ≠ id) : (c.putChannel j ch').outlet? id = c.outlet? id := by
  unfold outlet? putChannel
  rw [ChannelTable.get?_set_ne h.symm]

/-- A write that leaves the outlet of the channel alone. -/
theorem outlet?_putChannel_same (h : c.channels.get? j = some ch) (ho : ch'.outlet = ch.outlet) :
    (c.putChannel j ch').outlet? id = c.outlet? id := by
  by_cases hj : j = id
  · subst hj
    rw [outlet?_putChannel h, outlet?_of_get? h, ho]
  · exact outlet?_putChannel_ne hj

theorem outlet?_dropChannel (c : Connection) (id : UInt32) :
    (c.dropChannel id).outlet? id = none := by
  unfold outlet? dropChannel
  rw [ChannelTable.get?_release_self]
  rfl

theorem outlet?_dropChannel_ne (h : j ≠ id) : (c.dropChannel j).outlet? id = c.outlet? id := by
  unfold outlet? dropChannel
  rw [ChannelTable.get?_release_ne _ h.symm]

end Outlet

end Connection

-- ============================================================================
-- What a move does to a stream
-- ============================================================================

/-- The flags of an outlet that a move can set. -/
inductive Mark (id : UInt32) (c c' : Conn) (o : Outlet) : Outlet → Prop where
  | eof (hlog : .ended c.now id false ∈ c'.log) : Mark id c c' o { o with sentEof := true }
  | close (hgate : c.now.kexBlocksApp = true) (hlog : .ended c.now id true ∈ c'.log) :
      Mark id c c' o { o with sentEof := true, sentClose := true }
  /-- No run gets here: a CLOSE is sent only after `send_close`. -/
  | again (hc : o.sentClose = false) (hw : o.wireClose = true) {o' : Outlet}
      (hp : o'.pending = o.pending) : Mark id c c' o o'
  | closeNow : Mark id c c' o ⟨o.pending, true, true, true, true⟩
  | wireEof : Mark id c c' o { o with wireEof := true }
  | wireClose (hc : o.sentClose = true) :
      Mark id c c' o { o with wireClose := true, wireEof := true }

/-- What a move can do to the stream of channel `id`. -/
inductive Effect (id : UInt32) (c c' : Conn) : Prop where
  | aside (ho : c'.now.outlet? id = c.now.outlet? id) (hl : GrowsAside id c.log c'.log)
  | gone (ho : c'.now.outlet? id = none) (hl : GrowsAside id c.log c'.log)
  | fresh {l : List Obs} (ho : c'.now.outlet? id = some ⟨[], false, false, false, false⟩)
      (hl : GrowsAside id c.log l) (hl' : GrowsAside id (l ++ [.opened id]) c'.log)
  | refuse {data : Bytes} {n : Nat} (ho : c'.now.outlet? id = c.now.outlet? id)
      (hn : n = 0) (hl : c'.log = c.log ++ [.accepted c.now id data n])
  | defer {ch : Channel} {data : Bytes} {n : Nat} {chunks : List Bytes}
      (hch : c.now.channels.get? id = some ch) (hne : data ≠ [])
      (hallow : 0 < c.now.outboundAllowance id)
      (hmode : c.now.kexBlocksApp = true ∨ ch.remoteId = none)
      (ho : c'.now.outlet? id = some { ch.outlet with pending := ch.pendingOut ++ chunks })
      (hdata : chunks.flatten = data.take n)
      (hl : c'.log = c.log ++ [.accepted c.now id data n])
  | wire {ch : Channel} {data : Bytes} {n : Nat} {l : List Obs} {r : UInt32}
      (hch : c.now.channels.get? id = some ch) (hne : data ≠ [])
      (hallow : 0 < c.now.outboundAllowance id)
      (hgate : c.now.kexBlocksApp = false) (hr : ch.remoteId = some r)
      (ho : c'.now.outlet? id = some ch.outlet) (hw : Wires id c.log (data.take n) l)
      (hl : c'.log = l ++ [.accepted c.now id data n])
  | flush {ch : Channel} {front data : Bytes} {queue : List Bytes} {n : Nat}
      (hch : c.now.channels.get? id = some ch) (hlive : ch.sentEof = false)
      (hp : ch.pendingOut = front :: queue)
      (ho : c'.now.outlet? id = some (flushed ch front queue n).outlet)
      (hw : Wires id c.log data c'.log)
      (hdata : data = front.take n ∨ c.now.writeHard < c.now.writeSoft)
  | lost {ch : Channel} {data : Bytes} (hch : c.now.channels.get? id = some ch)
      (ho : c'.now.outlet? id = some ch.outlet) (hw : Wires id c.log data c'.log)
      (hlimits : c.now.writeHard < c.now.writeSoft)
  | mark {o o' : Outlet} (ho : c.now.outlet? id = some o) (ho' : c'.now.outlet? id = some o')
      (hm : Mark id c c' o o') (hl : GrowsAside id c.log c'.log)
  | eof {o : Outlet} {before : Connection} {payload w : Bytes}
      (ho : c.now.outlet? id = some o) (ho' : c'.now.outlet? id = some { o with wireEof := true })
      (he : o.sentEof = true) (hw : o.wireEof = false)
      (hbo : before.outlet? id = some { o with wireEof := true })
      (hb : before.settings = c.now.settings)
      (hl : c'.log = c.log ++ [.queued before (some id) payload w])
      (hm : IsMsg .channelEof payload)

variable [CryptoLib] {id j : UInt32} {c c' c1 : Conn} {p payload : Bytes} {owner : Option UInt32}

-- ----------------------------------------------------------------------------
-- Effects beside every stream
-- ----------------------------------------------------------------------------

/-- The stream of channel `id` is as it was. -/
structure Beside (id : UInt32) (c c' : Conn) : Prop where
  outlet : c'.now.outlet? id = c.now.outlet? id
  log : GrowsAside id c.log c'.log

namespace Beside

omit [CryptoLib]

theorem refl (id : UInt32) (c : Conn) : Beside id c c := ⟨rfl, .refl _ _⟩

theorem trans (h : Beside id c c1) (h' : Beside id c1 c') : Beside id c c' :=
  ⟨h'.outlet.trans h.outlet, h.log.trans h'.log⟩

theorem effect (h : Beside id c c') : Effect id c c' := .aside h.outlet h.log

/-- Neither the channels nor the history changed. -/
theorem of_eq (ht : c'.now.channels = c.now.channels) (hl : c'.log = c.log) : Beside id c c' := by
  refine ⟨outlet?_congr ht, ?_⟩
  rw [hl]
  exact .refl _ _

/-- A write to a channel that leaves its outlet alone. -/
theorem channel {ch ch' : Channel} (hch : c.now.channels.get? j = some ch)
    (ho : ch'.outlet = ch.outlet) : Beside id c (withChannel c j ch') :=
  ⟨outlet?_putChannel_same hch ho, .refl _ _⟩

theorem channel_ne {ch' : Channel} (h : j ≠ id) : Beside id c (withChannel c j ch') :=
  ⟨outlet?_putChannel_ne h, .refl _ _⟩

theorem event (c : Conn) (ev : Event) : Beside id c (withEvent c ev) :=
  ⟨rfl, .single trivial⟩

theorem note {o : Obs} (h : o.Aside id) : Beside id c ⟨c.now, c.log ++ [o]⟩ :=
  ⟨rfl, .single h⟩

end Beside

/-- A message for another channel, or for none. -/
theorem Queues.beside_ne (h : Queues owner payload c c') (ho : owner ≠ some id) :
    Beside id c c' := by
  refine ⟨outlet?_congr h.channels, ?_⟩
  cases h
  exact .single fun h => absurd h ho

theorem Queues.beside_none (h : Queues none payload c c') : Beside id c c' :=
  h.beside_ne nofun

/-- A message that is neither data nor an EOF. -/
theorem Queues.beside (h : Queues owner payload c c') (m : MsgType) (hm : IsMsg m payload)
    (hother : m ≠ .channelData ∧ m ≠ .channelEof) : Beside id c c' := by
  refine ⟨outlet?_congr h.channels, ?_⟩
  cases h
  exact .single fun _ => ⟨fun h => hother.1 (hm.unique h), fun h => hother.2 (hm.unique h)⟩

omit [CryptoLib] in
theorem Draws.beside (h : Draws c c') : Beside id c c' := by
  cases h
  exact .of_eq rfl rfl

theorem Sends.beside (h : Sends owner payload c c') (m : MsgType) (hm : IsMsg m payload)
    (hother : m ≠ .channelData ∧ m ≠ .channelEof) : Beside id c c' := by
  rcases h with h | ⟨-, h⟩
  · exact h.beside m hm hother
  · exact h.beside

theorem Starts.beside (h : Starts c c') : Beside id c c' := by
  cases h with
  | mk hq =>
    have h : Beside id _ _ := hq.beside_none
    exact ⟨h.outlet, h.log⟩

theorem Joins.beside (h : Joins c c') : Beside id c c' := by
  cases h with
  | running hk => exact .refl _ _
  | started hk hs => exact hs.beside

theorem Switches.beside {pk : PendingKeys} (h : Switches pk c c') : Beside id c c' := by
  cases h with
  | mk hpk hq =>
    have h : Beside id _ _ := hq.beside_none
    exact ⟨h.outlet, h.log⟩

theorem HangsUp.beside {reason : UInt32} {msg : String} (h : HangsUp reason msg c c') :
    Beside id c c' := by
  cases h with
  | again hc => exact .refl _ _
  | first hc hs =>
    have h : Beside id _ _ := hs.beside .disconnect rfl (by decide)
    exact ⟨h.outlet, h.log.trans (.single trivial)⟩

theorem Denies.beside {cfg : ServerConfig} (h : Denies cfg c c') : Beside id c c' := by
  cases h with
  | soft hlt hq => exact hq.beside_none
  | hard hge hh => exact hh.beside

theorem Greets.beside (h : Greets c c') : Beside id c c' := by
  cases h with
  | silent hr he => exact .refl _ _
  | extInfo hr he hq => exact hq.beside_none
  | service hr hq => exact hq.beside_none

theorem Receives.beside (h : Receives p c c1) : Beside id c c1 := by
  refine ⟨outlet?_congr h.channels, ?_⟩
  rw [h.log]
  exact .single trivial

omit [CryptoLib] in
/-- A slot that is filled starts a stream, its own only. -/
theorem Allocates.effect {c0 : Conn} {ch : Channel} (h0 : Beside id c c0)
    (h : Allocates ch c0 j c1) (ht : TableOk c0.now.channels)
    (hnew : ch.outlet = ⟨[], false, false, false, false⟩) (h' : Beside id c1 c') :
    Effect id c c' := by
  cases h with
  | mk halloc =>
    have hp := (ChannelTable.alloc_sat ht ch).of_ok halloc
    by_cases hj : j = id
    · subst hj
      refine .fresh (h'.outlet.trans ?_) h0.log h'.log
      rw [outlet?_of_get? hp.self, ← hnew]
      rfl
    · have hother : (Obs.opened j).Aside id := hj
      refine .aside (h'.outlet.trans ?_) ((h0.log.trans (.single hother)).trans h'.log)
      rw [← h0.outlet]
      unfold outlet?
      rw [hp.other id (Ne.symm hj)]

omit [CryptoLib] in
/-- A slot that is emptied ends a stream, its own only. -/
theorem withoutChannel_effect {c0 : Conn} (h0 : Beside id c c0)
    (h : Beside id (withoutChannel c0 j) c') : Effect id c c' := by
  have hlog : GrowsAside id c0.log (withoutChannel c0 j).log := by
    unfold withoutChannel
    dsimp only
    split
    · exact .single trivial
    · rw [List.append_nil]
      exact .refl _ _
  have hlog := (h0.log.trans hlog).trans h.log
  by_cases hj : j = id
  · subst hj
    exact .gone (h.outlet.trans (outlet?_dropChannel _ _)) hlog
  · exact .aside ((h.outlet.trans (outlet?_dropChannel_ne hj)).trans h0.outlet) hlog

-- ----------------------------------------------------------------------------
-- Data
-- ----------------------------------------------------------------------------

/-- A CHANNEL_DATA adds its data field to the stream. -/
theorem Queues.wires {r : UInt32} {data : Bytes}
    (h : Queues (some id) (Msg.channelData r data) c c') : Wires id c.log data c'.log := by
  cases h
  refine ⟨?_, ⟨_, rfl, fun o ho => ?_⟩⟩
  · rw [streamOf_append, List.foldl_cons, List.foldl_nil, Stream.note,
      if_pos ⟨rfl, isMsg_channelData r data⟩, drop_channelData]
    exact ⟨rfl, rfl⟩
  · rw [List.mem_singleton.mp ho]
    exact plain_channelData

theorem SendsData.beside {chunks : List Bytes} (h : SendsData j c chunks c') (hj : j ≠ id) :
    Beside id c c' := by
  induction h with
  | done c => exact .refl _ _
  | defer hch hne hallow hgate htail ih => exact (Beside.channel_ne hj).trans ih
  | wire hch hne hallow hgate hr hq htail ih =>
    exact ((Beside.channel_ne hj).trans (hq.beside_ne fun h => hj (Option.some.inj h))).trans ih

theorem SendsData.first {chunks : List Bytes} (h : SendsData id c chunks c') (hne : chunks ≠ []) :
    0 < c.now.outboundAllowance id ∧ ∃ ch, c.now.channels.get? id = some ch := by
  cases h with
  | done => exact absurd rfl hne
  | defer hch hchunk hallow hgate htail =>
    exact ⟨Nat.lt_of_lt_of_le (List.length_pos_iff.mpr hchunk) hallow, _, hch⟩
  | wire hch hchunk hallow hgate hr hq htail =>
    exact ⟨Nat.lt_of_lt_of_le (List.length_pos_iff.mpr hchunk) hallow, _, hch⟩

/-- With the gate closed, or without a recipient, every round defers its chunk. -/
theorem SendsData.defers {ch : Channel} {chunks : List Bytes} (h : SendsData id c chunks c')
    (hch : c.now.channels.get? id = some ch)
    (hmode : c.now.kexBlocksApp = true ∨ ch.remoteId = none) :
    c'.log = c.log ∧
      c'.now.outlet? id = some { ch.outlet with pending := ch.pendingOut ++ chunks } := by
  induction h generalizing ch with
  | done c =>
    refine ⟨rfl, ?_⟩
    rw [outlet?_of_get? hch, List.append_nil]
    rfl
  | @defer c c' ch0 chunk chunks hch0 hne hallow hgate htail ih =>
    cases hch0.symm.trans hch
    obtain ⟨hl, ho⟩ := ih (ChannelTable.get?_set_self hch) hmode
    refine ⟨hl, ho.trans ?_⟩
    rw [List.append_assoc]
    rfl
  | wire hch0 hne hallow hgate hr hq htail ih =>
    cases hch0.symm.trans hch
    rw [hgate, hr] at hmode
    rcases hmode with h | h <;> cases h

/-- With the gate open and a recipient, every round sends its chunk. -/
theorem SendsData.sends {ch : Channel} {r : UInt32} {chunks : List Bytes}
    (h : SendsData id c chunks c') (hch : c.now.channels.get? id = some ch)
    (hgate : c.now.kexBlocksApp = false) (hr : ch.remoteId = some r) :
    c'.now.outlet? id = some ch.outlet ∧ Wires id c.log chunks.flatten c'.log := by
  induction h generalizing ch with
  | done c => exact ⟨outlet?_of_get? hch, (GrowsAside.refl id c.log).wires⟩
  | defer hch0 hne hallow hmode htail ih =>
    cases hch0.symm.trans hch
    rw [hgate, hr] at hmode
    rcases hmode with h | h <;> cases h
  | @wire c c1 c' ch0 r0 chunk chunks hch0 hne hallow hgate0 hr0 hq htail ih =>
    cases hch0.symm.trans hch
    have hch1 : c1.now.channels.get? id
        = some { ch0 with sendWindow := ch0.sendWindow - UInt32.ofNat chunk.length } := by
      rw [hq.channels]
      exact ChannelTable.get?_set_self hch
    have hgate1 : c1.now.kexBlocksApp = false :=
      (congrArg (·.conn.kexBlocksApp) hq.control).trans hgate
    obtain ⟨ho, hw⟩ := ih hch1 hgate1 hr
    exact ⟨ho, hq.wires.trans hw⟩

theorem sendData_effect {chunks : List Bytes} {data : Bytes} {n : Nat}
    (h : SendsData j c chunks c1) (hn : n ≤ data.length) (hdata : chunks.flatten = data.take n) :
    Effect id c ⟨c1.now, c1.log ++ [.accepted c.now j data n]⟩ := by
  by_cases hj : j = id
  · subst hj
    by_cases hnil : chunks = []
    · subst hnil
      have hlen := congrArg List.length hdata
      rw [List.length_take, List.flatten_nil, List.length_nil] at hlen
      cases h
      exact .refuse rfl (by omega) rfl
    · obtain ⟨hallow, ch, hch⟩ := h.first hnil
      have hne : data ≠ [] := by
        rintro rfl
        cases h with
        | done => exact hnil rfl
        | defer _ hne => simp [hne] at hdata
        | wire _ hne => simp [hne] at hdata
      by_cases hmode : c.now.kexBlocksApp = true ∨ ch.remoteId = none
      · obtain ⟨hl, ho⟩ := h.defers hch hmode
        exact .defer hch hne hallow hmode ho hdata (by rw [hl])
      · obtain ⟨hgate, hremote⟩ := not_or.mp hmode
        obtain ⟨r, hr⟩ := Option.ne_none_iff_exists'.mp hremote
        have hgate := eq_false_of_ne_true hgate
        obtain ⟨ho, hw⟩ := h.sends hch hgate hr
        exact .wire hch hne hallow hgate hr ho (hdata ▸ hw) rfl
  · have hother : (Obs.accepted c.now j data n).Aside id := hj
    exact ((h.beside hj).trans (.note hother)).effect

theorem SendsData.remoteId {ch' : Channel} {chunks : List Bytes} (h : SendsData id c chunks c')
    (hch' : c'.now.channels.get? id = some ch') :
    ∃ ch, c.now.channels.get? id = some ch ∧ ch.remoteId = ch'.remoteId := by
  induction h with
  | done c => exact ⟨ch', hch', rfl⟩
  | defer hch hne hallow hgate htail ih =>
    obtain ⟨ch1, hch1, hr⟩ := ih hch'
    cases hch1.symm.trans (ChannelTable.get?_set_self hch)
    exact ⟨_, hch, hr⟩
  | wire hch hne hallow hgate hr hq htail ih =>
    obtain ⟨ch1, hch1, hr⟩ := ih hch'
    rw [hq.channels] at hch1
    cases hch1.symm.trans (ChannelTable.get?_set_self hch)
    exact ⟨_, hch, hr⟩

/-- `send_data` fails only where the hard limit is below the soft one. -/
theorem sendLost_effect {ch ch' : Channel} {chunks : List Bytes} {r : UInt32} {rng : Rng}
    (h : SendsData j c chunks c1) (hch : c1.now.channels.get? j = some ch)
    (hgate : c1.now.kexBlocksApp = false) (hr : ch.remoteId = some r)
    (hlimits : c1.now.writeHard < c1.now.writeSoft) (hsame : ch'.outlet = ch.outlet) :
    Effect id c (withChannel ⟨{ c1.now with rng := rng }, c1.log⟩ j ch') := by
  by_cases hj : j = id
  · subst hj
    obtain ⟨ch0, hch0, hr0⟩ := h.remoteId hch
    have hgate0 : c.now.kexBlocksApp = false :=
      (congrArg (·.conn.kexBlocksApp) h.control).symm.trans hgate
    obtain ⟨ho, hw⟩ := h.sends hch0 hgate0 (hr0.trans hr)
    have hset := h.extends.settings
    refine .lost hch0 ?_ hw ?_
    · rw [← ho, outlet?_of_get? hch]
      exact (outlet?_putChannel hch).trans (congrArg some hsame)
    · rw [← show c1.now.writeHard = c.now.writeHard from congrArg (·.writeHard) hset,
        ← show c1.now.writeSoft = c.now.writeSoft from congrArg (·.writeSoft) hset]
      exact hlimits
  · refine ((h.beside hj).trans ?_).effect
    exact ⟨outlet?_putChannel_ne hj, .refl _ _⟩

-- ----------------------------------------------------------------------------
-- Moves
-- ----------------------------------------------------------------------------

omit [CryptoLib] in
/-- A write to one channel that marks its outlet, followed by messages that are
    neither data nor an EOF. -/
theorem mark_effect {ch ch' : Channel} (hch : c.now.channels.get? j = some ch)
    (h : ∀ i, Beside i (withChannel c j ch') c') (hm : Mark j c c' ch.outlet ch'.outlet) :
    Effect id c c' := by
  by_cases hj : j = id
  · subst hj
    exact .mark (outlet?_of_get? hch) ((h j).outlet.trans (outlet?_putChannel hch)) hm (h j).log
  · exact ((Beside.channel_ne hj).trans (h id)).effect

omit [CryptoLib] in
/-- The same, with the end of the stream in the history. -/
theorem end_effect {ch ch' : Channel} {close : Bool} (hch : c.now.channels.get? j = some ch)
    (h : ∀ i, Beside i ⟨c.now.putChannel j ch', c.log ++ [.ended c.now j close]⟩ c')
    (hm : .ended c.now j close ∈ c'.log → Mark j c c' ch.outlet ch'.outlet) : Effect id c c' := by
  have hend : ∀ i, Beside i (withChannel c j ch')
      ⟨c.now.putChannel j ch', c.log ++ [.ended c.now j close]⟩ :=
    fun i => .note (show (Obs.ended c.now j close).Aside i from trivial)
  refine mark_effect hch (fun i => (hend i).trans (h i)) (hm ?_)
  obtain ⟨new, hl, -⟩ := (h j).log
  rw [hl]
  simp

theorem flush_effect {ch : Channel} {front : Bytes} {queue : List Bytes} {n : Nat} {r : UInt32}
    (hch : c.now.channels.get? j = some ch) (hcan : CanFlush c.now ch r)
    (hp : ch.pendingOut = front :: queue)
    (hq : Queues (some j) (Msg.channelData r (front.take n))
      (withChannel c j (flushed ch front queue n)) c') : Effect id c c' := by
  by_cases hj : j = id
  · subst hj
    refine .flush hch hcan.live hp ?_ hq.wires (.inl rfl)
    exact (outlet?_congr hq.channels).trans (outlet?_putChannel hch)
  · exact ((Beside.channel_ne hj).trans (hq.beside_ne fun h => hj (Option.some.inj h))).effect

omit [CryptoLib] in
theorem flushLost_effect {ch : Channel} {front : Bytes} {queue : List Bytes} {n : Nat} {r : UInt32}
    {rng : Rng} (hch : c.now.channels.get? j = some ch) (hcan : CanFlush c.now ch r)
    (hp : ch.pendingOut = front :: queue) (hhard : c.now.writeHard ≤ c.now.writeBytes) :
    Effect id c (withChannel ⟨{ c.now with rng := rng }, c.log⟩ j (flushed ch front queue n)) := by
  by_cases hj : j = id
  · subst hj
    refine .flush hch hcan.live hp (outlet?_putChannel hch) (GrowsAside.refl j c.log).wires ?_
    have := writeBytes_le_queued c.now
    have := hcan.room
    omega
  · exact .aside (outlet?_putChannel_ne hj) (.refl _ _)

theorem emitEof_effect {ch : Channel} {r : UInt32} (hch : c.now.channels.get? j = some ch)
    (he : ch.sentEof = true) (hw : ch.wireEof = false)
    (hq : Queues (some j) (Msg.channelEof r) (withChannel c j { ch with wireEof := true }) c') :
    Effect id c c' := by
  by_cases hj : j = id
  · subst hj
    have hout : (withChannel c j { ch with wireEof := true }).now.outlet? j
        = some { ch.outlet with wireEof := true } := outlet?_putChannel hch
    have hout' := (outlet?_congr hq.channels).trans hout
    cases hq with
    | mk hne hseal => exact .eof (outlet?_of_get? hch) hout' he hw hout rfl rfl rfl
  · exact ((Beside.channel_ne hj).trans (hq.beside_ne fun h => hj (Option.some.inj h))).effect

theorem Step.effect {k : Cause} (h : Step k c c') (ht : TableOk c.now.channels) : Effect id c c' := by
  cases h with
  | pull =>
    obtain ⟨_, _, _, _, h⟩ := c.now.pullCurrentOut_eq
    rw [h]
    exact .aside rfl (.refl _ _)
  | @drain _ b m hb hm =>
    obtain ⟨_, _, _, _, _, h⟩ := c.now.pullDrained_eq b (min m b.length)
    rw [h]
    exact .aside rfl (.refl _ _)
  | popEvent => exact .aside rfl (.refl _ _)
  | roundRobin => exact .aside rfl (.refl _ _)
  | tick => exact .aside rfl (.refl _ _)
  | draw h => exact h.beside.effect
  | startKex hk hs h => exact h.beside.effect
  | hangUp h => exact h.beside.effect
  | closeEvent j => exact (Beside.event c _).effect
  | consume hch hq => exact .aside (outlet?_putChannel_same hch rfl) (.refl _ _)
  | grantSilent hgate hch hadd hpos hr =>
    exact .aside (outlet?_putChannel_same hch rfl) (.refl _ _)
  | grant hgate hch hadd hpos hr hq =>
    have h : Beside id _ _ := hq.beside .channelWindowAdjust rfl (by decide)
    exact .aside (h.outlet.trans (outlet?_putChannel_same hch rfl)) h.log
  | confirmSilent hch hr => exact .aside (outlet?_putChannel_same hch rfl) (.refl _ _)
  | confirm hch hr hq =>
    have h : Beside id _ _ := hq.beside .channelOpenConfirmation rfl (by decide)
    exact .aside (h.outlet.trans (outlet?_putChannel_same hch rfl)) h.log
  | sendData h hn hdata => exact sendData_effect h hn hdata
  | sendLost h hch hgate hr hsoft hhard =>
    exact sendLost_effect h hch hgate hr (Nat.lt_of_le_of_lt hhard hsoft) rfl
  | flush hch hcan hp hne hq => exact flush_effect hch hcan hp hq
  | flushLost hch hcan hp hne hhard => exact flushLost_effect hch hcan hp hhard
  | askEof hch he hc => exact end_effect hch (fun _ => .refl _ _) .eof
  | askClose hgate hch hc => exact end_effect hch (fun _ => .refl _ _) (.close hgate)
  | closeAgain hch hc hw => exact end_effect hch (fun _ => .refl _ _) fun _ => .again hc hw rfl
  | closeSilent hgate hch hc hw hr =>
    exact end_effect hch (fun _ => .refl _ _) fun _ => .closeNow
  | closeNow hgate hch hc hw hr hq =>
    exact end_effect hch (fun _ => hq.beside .channelClose rfl (by decide)) fun _ => .closeNow
  | emitEofSilent hgate hch he hw hr => exact mark_effect hch (fun _ => .refl _ _) .wireEof
  | emitEof hgate hch he hw hr hq => exact emitEof_effect hch he hw hq
  | emitCloseSilent hgate hch hc hw hr =>
    exact mark_effect hch (fun _ => .refl _ _) (.wireClose hc)
  | emitClose hgate hch hc hw hr hq =>
    exact mark_effect hch (fun _ => hq.beside .channelClose rfl (by decide)) (.wireClose hc)
  | freeClosed hch hg hw => exact withoutChannel_effect (.refl _ _) (.refl _ _)
  | failOpen hch hr hs =>
    exact withoutChannel_effect (.refl _ _) (hs.beside .channelOpenFailure rfl (by decide))
  | openLocal hrole hauth ha hs =>
    exact ha.effect (.refl _ _) ht rfl (hs.beside .channelOpen rfl (by decide))

/-- The replies are neither data nor an EOF. -/
theorem Answers.beside {reply : Bytes} (h : Answers c.now p owner reply)
    (hq : Queues owner reply c c') : Beside id c c' := by
  cases h with
  | service hr hm hn => exact hq.beside_none
  | credentials hr hc hm => exact hq.beside_none
  | global hm hw hr => exact hq.beside_none
  | unknownType ha hm ht => exact hq.beside_none
  | @request j r ch m hm hw hch hr ht =>
    refine hq.beside m rfl ?_
    rcases ht with rfl | rfl
    · decide
    · decide
  | ping hm => exact hq.beside_none
  | unknown hm ht => exact hq.beside_none

theorem Handles.effect (h : Handles p c c') (ht : TableOk c.now.channels) : Effect id c c' := by
  -- what the packet layer leaves alone, then what the handler does
  have hrecv : ∀ {c1 : Conn}, Receives p c c1 → Beside id c1 c' → Effect id c c' :=
    fun hr h => (hr.beside.trans h).effect
  cases h with
  | skip hr h => exact hrecv hr (.refl _ _)
  | answer hr h hq => exact hrecv hr (h.beside hq)
  | kexinitServer hr hm hrole hp hj hk hn =>
    have h : Beside id _ _ := hj.beside
    exact hrecv hr ⟨h.outlet, h.log⟩
  | kexinitClient hr hm hrole hp hj hk hn hpub hq =>
    have h : Beside id _ _ := hj.beside
    have h' : Beside id _ _ := hq.beside_none
    exact hrecv hr ⟨h'.outlet.trans h.outlet, h.log.trans h'.log⟩
  | ecdhInit hr hrole hm hcfg hx hz hq hs =>
    have h : Beside id _ _ := hq.beside_none.trans hs.beside
    exact hrecv hr ⟨h.outlet, h.log⟩
  | ecdhReply hr hrole hm hpub hsec hx hks hsig hz hs =>
    have h : Beside id _ _ := hs.beside
    exact hrecv hr ⟨h.outlet, h.log⟩
  | newkeysFirst hr hm hpk hf hg =>
    have h : Beside id _ _ := hg.beside
    exact hrecv hr ⟨h.outlet, h.log.after trivial⟩
  | newkeysAgain hr hm hpk hf => exact hrecv hr ⟨rfl, .single trivial⟩
  | userauthSuccess hr hm =>
    refine hrecv hr ⟨rfl, ?_⟩
    exact GrowsAside.after (.single trivial) trivial
  | authAccept hr hrole hcfg hm hok hq =>
    have h : Beside id _ _ := hq.beside_none
    exact hrecv hr ⟨h.outlet, ((h.log.after trivial).after trivial).trans (.single trivial)⟩
  | authReject hr hrole hcfg hm hbad hd =>
    have h : Beside id _ _ := hd.beside
    exact hrecv hr ⟨h.outlet, h.log.after trivial⟩
  | authOther hr hrole hcfg hm hd => exact hrecv hr hd.beside
  | disconnect hr hm => exact hrecv hr ⟨rfl, .single trivial⟩
  | openSession hr hm hauth ha =>
    exact ha.effect hr.beside (hr.channels ▸ ht) rfl (.event _ _)
  | openDirect hr hm hauth ha =>
    exact ha.effect hr.beside (hr.channels ▸ ht) rfl (.event _ _)
  | openConfirm hr hm hch =>
    exact hrecv hr ⟨outlet?_putChannel_same hch rfl, .single trivial⟩
  | openFail hr hm => exact withoutChannel_effect hr.beside (.event _ _)
  | windowAdjust hr hm hch => exact hrecv hr (.channel hch rfl)
  | deliver hr hm hch hw =>
    exact hrecv hr ⟨outlet?_putChannel_same hch rfl, .single trivial⟩
  | peerEof hr hm hch =>
    exact hrecv hr ⟨outlet?_putChannel_same hch rfl, .single trivial⟩
  | peerEofUnknown hr hm hch => exact hrecv hr (.event _ _)
  | peerClose hr hm hch => exact hrecv hr (.channel hch rfl)

theorem Move.effect (h : Move c c') (ht : TableOk c.now.channels) : Effect id c c' := by
  cases h with
  | quiet h =>
    cases h with
    | step h => exact h.effect ht
    | handle h => exact h.effect ht
    | identWait h hno => exact .aside rfl (.refl _ _)
    | identDone h hs => exact .aside rfl (.refl _ _)
  | fault h =>
    cases h with
    | reject h => exact h.beside.effect
    | spoil h hm =>
      have h : Beside id _ _ := h.beside
      exact .aside h.outlet h.log
    | drop hkind => exact .aside rfl (.refl _ _)
    | identBad h => exact .aside rfl (.refl _ _)
  | recv bytes => exact .aside rfl (.refl _ _)
  | own h => exact h.effect ht

-- ============================================================================
-- The order of the bytes
-- ============================================================================

/-- What went out of channel `id`, followed by what is deferred, against what
    was accepted. -/
def Accounted (R : Bytes → Bytes → Prop) (id : UInt32) (c : Conn) : Prop :=
  ∀ o, c.now.outlet? id = some o →
    R ((streamOf id c.log).wired ++ o.pending.flatten) (streamOf id c.log).accepted

omit [CryptoLib] in
theorem streamOf_accepted (id : UInt32) (l : List Obs) (before : Connection) (data : Bytes)
    (n : Nat) : streamOf id (l ++ [.accepted before id data n])
      = { streamOf id l with accepted := (streamOf id l).accepted ++ data.take n } := by
  rw [streamOf_append, List.foldl_cons, List.foldl_nil, Stream.note, if_pos rfl]

omit [CryptoLib] in
theorem streamOf_eof {before : Connection} {w : Bytes} (h : IsMsg .channelEof payload)
    (l : List Obs) : streamOf id (l ++ [.queued before (some id) payload w]) = streamOf id l := by
  rw [streamOf_append, List.foldl_cons, List.foldl_nil, Stream.note,
    if_neg fun hd => absurd (hd.2.unique h) (by decide)]

omit [CryptoLib] in
/-- The bytes of a chunk are sent or stay deferred. -/
theorem flushed_flatten (ch : Channel) (front : Bytes) (queue : List Bytes) (n : Nat) :
    front.take n ++ (flushed ch front queue n).pendingOut.flatten = front ++ queue.flatten := by
  unfold flushed
  dsimp only
  split
  · rename_i hge
    rw [List.take_of_length_le hge]
  · rw [List.flatten_cons, ← List.append_assoc, List.take_append_drop]

omit [CryptoLib] in
theorem Mark.pending {o o' : Outlet} (h : Mark id c c' o o') : o'.pending = o.pending := by
  cases h with
  | again hc hw hp => exact hp
  | _ => rfl

omit [CryptoLib] in
/-- Every move keeps the account, if data may overtake deferred data (`R` does
    not mind) or never does. -/
theorem Effect.accounted {R : Bytes → Bytes → Prop} (h : Effect id c c') (hR : R [] [])
    (happ : ∀ a b x, R a b → R (a ++ x) (b ++ x))
    (hover : (∀ w p a x, R (w ++ p) a → R (w ++ x ++ p) (a ++ x)) ∨
      ∀ before data n, .accepted before id data n ∈ c'.log → data ≠ [] → ¬before.Overtakes id)
    (hlimits : c.now.writeSoft ≤ c.now.writeHard) (hI : Accounted R id c) :
    Accounted R id c' := by
  intro o' ho'
  cases h with
  | aside ho hl =>
    rw [hl.streamOf]
    exact hI o' (ho.symm.trans ho')
  | gone ho hl => cases ho.symm.trans ho'
  | fresh ho hl hl' =>
    cases ho.symm.trans ho'
    rw [hl'.streamOf, streamOf_append, List.foldl_cons, List.foldl_nil, Stream.note, if_pos rfl]
    exact hR
  | refuse ho hn hl =>
    rw [hl, streamOf_accepted, hn, List.take_zero, List.append_nil]
    exact hI o' (ho.symm.trans ho')
  | defer hch hne hallow hmode ho hdata hl =>
    cases ho.symm.trans ho'
    rw [hl, streamOf_accepted, List.flatten_append, hdata, ← List.append_assoc]
    exact happ _ _ _ (hI _ (outlet?_of_get? hch))
  | @wire ch data n l r hch hne hallow hgate hr ho hw hl =>
    cases ho.symm.trans ho'
    have hacc := hI _ (outlet?_of_get? hch)
    rw [hl, streamOf_accepted, hw.stream.1, hw.stream.2]
    rcases hover with hins | hnot
    · exact hins _ _ _ _ hacc
    · have hpend : ch.outlet.pending = [] := by
        by_contra hp
        refine hnot _ data n ?_ hne ⟨hgate, hallow, ch, hch, by rw [hr]; rfl, hp⟩
        rw [hl]
        simp
      rw [hpend, List.flatten_nil, List.append_nil] at hacc ⊢
      exact happ _ _ _ hacc
  | @flush ch front data queue n hch hlive hp ho hw hdata =>
    cases ho.symm.trans ho'
    have hacc := hI _ (outlet?_of_get? hch)
    rcases hdata with rfl | hlt
    · have hflat : front.take n ++ (flushed ch front queue n).outlet.pending.flatten
          = ch.outlet.pending.flatten := by
        rw [show ch.outlet.pending = front :: queue from hp]
        exact flushed_flatten ch front queue n
      rw [hw.stream.1, hw.stream.2, List.append_assoc, hflat]
      exact hacc
    · omega
  | lost hch ho hw hlt => omega
  | mark ho ho1 hm hl =>
    cases ho1.symm.trans ho'
    rw [hl.streamOf, hm.pending]
    exact hI _ ho
  | eof ho ho1 he hw hbo hb hl hm =>
    cases ho1.symm.trans ho'
    have hacc := hI _ ho
    rw [hl, streamOf_eof hm]
    exact hacc

/-- The soft write limit is not above the hard one. -/
def Setup.LimitsOk : Setup → Prop
  | server cfg => cfg.writeBufSoft ≤ cfg.writeBufHard
  | client cfg => cfg.writeBufSoft ≤ cfg.writeBufHard

instance : DecidablePred Setup.LimitsOk
  | .server cfg => inferInstanceAs (Decidable (cfg.writeBufSoft ≤ cfg.writeBufHard))
  | .client cfg => inferInstanceAs (Decidable (cfg.writeBufSoft ≤ cfg.writeBufHard))

namespace Setup

variable {setup : Setup} {rng : Rng} {calls : List Call}

omit [CryptoLib] in
theorem blank_outlet? (setup : Setup) (rng : Rng) (id : UInt32) :
    (setup.blank rng).outlet? id = none := by
  cases setup <;> rfl

theorem starts_limits (hlimits : setup.LimitsOk) (h : Starts ⟨setup.blank rng, []⟩ c) :
    c.now.writeSoft ≤ c.now.writeHard := by
  have hset := h.extends.settings
  rw [show c.now.writeSoft = (setup.blank rng).writeSoft from congrArg (·.writeSoft) hset,
    show c.now.writeHard = (setup.blank rng).writeHard from congrArg (·.writeHard) hset]
  cases setup <;> exact hlimits

/-- In a run in which no data overtakes deferred data, the stream of every live
    channel is in order and complete. -/
theorem run_ordered (hlimits : setup.LimitsOk) (hrun : setup.run rng calls = .ok () c)
    (id : UInt32)
    (hover : ∀ before data n, .accepted before id data n ∈ c.log → data ≠ [] →
      ¬before.Overtakes id)
    {ch : Channel} (hch : c.now.channels.get? id = some ch) :
    (streamOf id c.log).wired ++ ch.pendingOut.flatten = (streamOf id c.log).accepted := by
  have hinv : c.now.writeSoft ≤ c.now.writeHard ∧ Accounted Eq id c := by
    refine run_invariant (I := fun c => c.now.writeSoft ≤ c.now.writeHard ∧ Accounted Eq id c)
      (G := fun o => ∀ before data n, o = .accepted before id data n → data ≠ [] →
        ¬before.Overtakes id) ?_ ?_ hrun ?_
    · intro c0 h0
      refine ⟨starts_limits hlimits h0, fun o ho => ?_⟩
      rw [h0.beside.outlet, blank_outlet?] at ho
      cases ho
    · rintro c c' hwf ⟨hle, hI⟩ hm hG
      have hset := hm.settings
      refine ⟨?_, ?_⟩
      · rw [show c'.now.writeSoft = c.now.writeSoft from congrArg (·.writeSoft) hset,
          show c'.now.writeHard = c.now.writeHard from congrArg (·.writeHard) hset]
        exact hle
      · refine (hm.effect hwf.table).accounted rfl (fun a b x h => by rw [h]) (.inr ?_) hle hI
        exact fun before data n ho => hG _ ho before data n rfl
    · rintro _ ho before data n rfl
      exact hover before data n ho
  exact hinv.2 _ (outlet?_of_get? hch)

/-- A peer that opens a channel with the window `w` and completes the first key
    exchange. -/
def channelPeer (w : UInt32) : Bytes :=
  Toy.identLine ++ Toy.clearPacket Msg.userauthSuccess
    ++ Toy.clearPacket (MsgType.channelOpen.code ::
      (putStr "session" ++ putU32 5 ++ putU32 w ++ putU32 1000))
    ++ Toy.clearPacket (Toy.kexinit ["curve25519-sha256"] serverCiphers)
    ++ Toy.clearPacket (Msg.ecdhInit Toy.point) ++ Toy.clearPacket Msg.newkeys

/-- Data while the gate is closed; then the gate opens and more data follows.
    It is closed by the exchange that starts once the socket has taken the ident
    line. -/
def deferredThenDirect (drain : List Call) : List Call :=
  [.recv (channelPeer 1000), .processIn, .confirmOpen 0, .consumeOut 21, .sendData 0 [97],
    .recv (Toy.sealedPacket Msg.userauthSuccess), .processIn] ++ drain ++ [.sendData 0 [98]]

omit [CryptoLib] in
/-- The deferred byte is flushed when the gate opens, and the next one follows. -/
theorem run_ordered_deferredThenDirect : ∃ c ch,
    @Setup.run Toy.lib (.server Toy.server) Toy.rng (deferredThenDirect []) = .ok () c ∧
      c.now.channels.get? 0 = some ch ∧ (streamOf 0 c.log).accepted = [97, 98] ∧
      (streamOf 0 c.log).wired ++ ch.pendingOut.flatten = (streamOf 0 c.log).accepted := by
  have hpass : (@Setup.run Toy.lib (.server Toy.server) Toy.rng (deferredThenDirect [])).passes
      (fun c => (c.now.channels.get? 0).isSome && decide ((streamOf 0 c.log).accepted = [97, 98]) &&
        c.log.all (Obs.everyAccepted fun before =>
          (before.channels.get? 0).all fun ch => decide (ch.pendingOut = []))) = true := by
    decide +kernel
  obtain ⟨_, c, hrun, hc⟩ := Outcome.exists_of_passes hpass
  simp only [Bool.and_eq_true, decide_eq_true_iff] at hc
  obtain ⟨⟨hlive, hacc⟩, hall⟩ := hc
  obtain ⟨ch, hch⟩ := Option.isSome_iff_exists.mp hlive
  refine ⟨c, ch, hrun, hch, hacc, @run_ordered Toy.lib c _ _ _ (by decide) hrun 0 ?_ ch hch⟩
  rintro before data n hmem - ⟨-, -, ch0, hch0, -, hp⟩
  have hempty := List.all_eq_true.mp hall _ hmem
  simp only [Obs.everyAccepted, hch0, Option.all_some, decide_eq_true_iff] at hempty
  exact hp hempty

omit [CryptoLib] in
/-- With a small soft limit the flush stops before it sends the deferred byte.
    Once the socket has taken the backlog, the next byte overtakes it. -/
theorem data_overtakes_deferred : ¬∀ (lib : CryptoLib) (setup : Setup) (rng : Rng)
    (calls : List Call) (c : Conn) (id : UInt32) (ch : Channel),
    setup.LimitsOk → @Setup.run lib setup rng calls = .ok () c →
    c.now.channels.get? id = some ch →
    (streamOf id c.log).wired ++ ch.pendingOut.flatten = (streamOf id c.log).accepted := by
  intro hclaim
  have hpass : (@Setup.run Toy.lib (.server { Toy.server with writeBufSoft := 100 }) Toy.rng
      (deferredThenDirect (List.replicate 6 (.consumeOut 1000)))).passes (fun c =>
        ((c.now.channels.get? 0).any fun ch => decide (ch.pendingOut = [[97]])) &&
          decide (streamOf 0 c.log = ⟨[97, 98], [98]⟩)) = true := by
    decide +kernel
  obtain ⟨_, c, hrun, hc⟩ := Outcome.exists_of_passes hpass
  rw [Bool.and_eq_true, Option.any_eq_true, decide_eq_true_iff] at hc
  obtain ⟨⟨ch, hch, hp⟩, hs⟩ := hc
  have horder := hclaim _ _ _ _ c 0 ch (by decide) hrun hch
  rw [hs, of_decide_eq_true hp] at horder
  revert horder
  decide

end Setup

-- ============================================================================
-- The end of the stream
-- ============================================================================

/-- The flags agree, and nothing is deferred while an EOF is due. -/
structure Outlet.Ok (o : Outlet) : Prop where
  closed : o.sentClose = true → o.sentEof = true
  wired : o.wireClose = true → o.sentClose = true
  due : o.sentEof = true → o.wireEof = false → o.pending = []

/-- Every EOF of channel `id` was queued when nothing was deferred; if no data
    packet can be refused, all that was accepted had gone out by then. -/
def EofLast (id : UInt32) (log : List Obs) : Prop :=
  ∀ l before payload w, l ++ [.queued before (some id) payload w] <+: log →
    IsMsg .channelEof payload →
    (∃ ch, before.channels.get? id = some ch ∧ ch.pendingOut = []) ∧
      (before.writeSoft ≤ before.writeHard →
        (streamOf id l).wired.Perm (streamOf id l).accepted)

/-- No call of `send_data` on channel `id` accepted a byte after its end. -/
def RefusedAfterEnd (id : UInt32) (log : List Obs) : Prop :=
  ∀ before data n, .accepted before id data n ∈ log → before.Ended id → n = 0

section End

omit [CryptoLib]

variable {l l' : List Obs} {o : Obs}

theorem EofLast.concat (h : EofLast id l)
    (ho : ∀ before payload w, o = .queued before (some id) payload w → IsMsg .channelEof payload →
      (∃ ch, before.channels.get? id = some ch ∧ ch.pendingOut = []) ∧
        (before.writeSoft ≤ before.writeHard →
          (streamOf id l).wired.Perm (streamOf id l).accepted)) :
    EofLast id (l ++ [o]) := by
  intro l1 before payload w hpre hm
  rcases List.prefix_concat_iff.mp hpre with heq | hpre
  · obtain ⟨rfl, hlast⟩ := List.append_inj' heq rfl
    exact ho before payload w (List.singleton_inj.mp hlast).symm hm
  · exact h l1 before payload w hpre hm

theorem RefusedAfterEnd.concat (h : RefusedAfterEnd id l)
    (ho : ∀ before data n, o = .accepted before id data n → before.Ended id → n = 0) :
    RefusedAfterEnd id (l ++ [o]) := by
  intro before data n hmem
  rcases List.mem_append.mp hmem with hmem | hmem
  · exact h before data n hmem
  · exact ho before data n (List.mem_singleton.mp hmem).symm

/-- Both keep under observations that have nothing to do with them. -/
theorem ended_growth (hg : ∃ new, l' = l ++ new ∧ ∀ o ∈ new, o.Plain id)
    (h : EofLast id l ∧ RefusedAfterEnd id l) : EofLast id l' ∧ RefusedAfterEnd id l' := by
  obtain ⟨new, rfl, hnew⟩ := hg
  induction new generalizing l with
  | nil => rwa [List.append_nil]
  | cons o new ih =>
    obtain ⟨ho, hnew⟩ := List.forall_mem_cons.mp hnew
    rw [List.append_cons]
    refine ih ⟨h.1.concat ?_, h.2.concat ?_⟩ hnew
    · rintro before payload w rfl hm
      exact absurd hm (ho rfl)
    · rintro before data n rfl
      exact absurd rfl ho

/-- Flags are set in an order that keeps them in agreement. -/
theorem Mark.ok {o o' : Outlet} (h : Mark id c c' o o') (ho : c.now.outlet? id = some o)
    (hends : ∀ before close, .ended before id close ∈ c'.log → ¬before.Truncates id close)
    (hok : o.Ok) : o'.Ok := by
  have hdrained : ∀ close, .ended c.now id close ∈ c'.log →
      (close = false ∨ c.now.kexBlocksApp = true) → o.pending = [] := by
    intro close hmem hcase
    by_contra hp
    obtain ⟨ch, hch, rfl⟩ := Option.map_eq_some_iff.mp ho
    exact hends _ close hmem ⟨hcase, ch, hch, hp⟩
  cases h with
  | eof hlog => exact ⟨fun _ => rfl, hok.wired, fun _ _ => hdrained false hlog (.inl rfl)⟩
  | close hgate hlog =>
    exact ⟨fun _ => rfl, fun _ => rfl, fun _ _ => hdrained true hlog (.inr hgate)⟩
  | again hc hw hp => cases hc.symm.trans (hok.wired hw)
  | closeNow => exact ⟨fun _ => rfl, fun _ => rfl, fun _ h => by cases h⟩
  | wireEof => exact ⟨hok.closed, hok.wired, fun _ h => by cases h⟩
  | wireClose hc => exact ⟨hok.closed, fun _ => hc, fun _ h => by cases h⟩

end End

omit [CryptoLib] in
/-- On a channel that was ended, `send_data` has an allowance only with the
    gate closed. -/
theorem not_ended_of_allowance {c : Connection} (hgate : c.kexBlocksApp = false)
    (hallow : 0 < c.outboundAllowance id) : ¬c.Ended id := by
  rintro ⟨ch, hch, hend⟩
  obtain ⟨-, he, hc, -⟩ := of_outboundAllowance_pos hch hgate hallow
  rw [he, hc] at hend
  rcases hend with h | h <;> cases h

/-- Without an allowance `send_data` returns at once. -/
theorem sendData_of_allowance {data : Bytes}
    (h : data ≠ [] → c.now.outboundAllowance id = 0) : sendData id data c = .ok 0 c := by
  unfold sendData
  rw [Proc.ite_apply]
  split
  · rfl
  · rename_i hne
    obtain ⟨b, rest, rfl⟩ := List.exists_cons_of_ne_nil hne
    rw [List.length_cons, sendLoop, Proc.ite_apply, if_pos (by simp), Proc.bind_apply,
      Traced.read_apply, Outcome.bind_ok, Proc.ite_apply, if_pos (h hne)]
    rfl

/-- The invariant of the end of a stream. -/
structure EndOk (id : UInt32) (c : Conn) : Prop where
  outlet : ∀ o, c.now.outlet? id = some o → o.Ok
  balanced : c.now.writeSoft ≤ c.now.writeHard → Accounted List.Perm id c
  history : EofLast id c.log ∧ RefusedAfterEnd id c.log

/-- What the application does to keep the EOF last. -/
structure EndsWell (id : UInt32) (log : List Obs) : Prop where
  ends : ∀ before close, .ended before id close ∈ log → ¬before.Truncates id close
  sends : ∀ before data n, .accepted before id data n ∈ log → data ≠ [] → ¬before.Overruns id

omit [CryptoLib] in
theorem Effect.outletOk (h : Effect id c c') (hwell : EndsWell id c'.log)
    (hI : ∀ o, c.now.outlet? id = some o → o.Ok) (o' : Outlet) (ho' : c'.now.outlet? id = some o') :
    o'.Ok := by
  cases h with
  | aside ho hl => exact hI o' (ho.symm.trans ho')
  | gone ho hl => cases ho.symm.trans ho'
  | fresh ho hl hl' =>
    cases ho.symm.trans ho'
    exact ⟨fun h => h, fun h => h, fun h => by cases h⟩
  | refuse ho hn hl => exact hI o' (ho.symm.trans ho')
  | @defer ch data n chunks hch hne hallow hmode ho hdata hl =>
    cases ho.symm.trans ho'
    have hok := hI _ (outlet?_of_get? hch)
    refine ⟨hok.closed, hok.wired, fun he _ => ?_⟩
    -- bytes are deferred behind the end only if the gate is closed
    have hend : c.now.Ended id := ⟨ch, hch, .inl he⟩
    cases hgate : c.now.kexBlocksApp with
    | false => exact absurd hend (not_ended_of_allowance hgate hallow)
    | true =>
      refine absurd ⟨hgate, hallow, hend⟩ (hwell.sends c.now data n ?_ hne)
      rw [hl]
      simp
  | wire hch hne hallow hgate hr ho hw hl =>
    cases ho.symm.trans ho'
    exact hI _ (outlet?_of_get? hch)
  | flush hch hlive hp ho hw hdata =>
    cases ho.symm.trans ho'
    have hok := hI _ (outlet?_of_get? hch)
    exact ⟨hok.closed, hok.wired, fun he _ => by cases hlive.symm.trans he⟩
  | lost hch ho hw hlt =>
    cases ho.symm.trans ho'
    exact hI _ (outlet?_of_get? hch)
  | mark ho ho1 hm hl =>
    cases ho1.symm.trans ho'
    exact hm.ok ho hwell.ends (hI _ ho)
  | eof ho ho1 he hw hbo hb hl hm =>
    cases ho1.symm.trans ho'
    have hok := hI _ ho
    exact ⟨hok.closed, hok.wired, fun _ h => by cases h⟩

omit [CryptoLib] in
/-- A call of `send_data` that accepts bytes was made before the end. -/
theorem ended_accepted {l : List Obs} {before : Connection} {data : Bytes} {n : Nat}
    (h : EofLast id l ∧ RefusedAfterEnd id l) (hn : before.Ended id → n = 0) :
    EofLast id (l ++ [.accepted before id data n]) ∧
      RefusedAfterEnd id (l ++ [.accepted before id data n]) := by
  refine ⟨h.1.concat ?_, h.2.concat ?_⟩
  · rintro before' payload w heq
    cases heq
  · rintro before' data' n' heq
    cases heq
    exact hn

omit [CryptoLib] in
theorem Effect.history (h : Effect id c c') (hwell : EndsWell id c'.log) (hI : EndOk id c) :
    EofLast id c'.log ∧ RefusedAfterEnd id c'.log := by
  cases h with
  | aside ho hl => exact ended_growth hl.wires.growth hI.history
  | gone ho hl => exact ended_growth hl.wires.growth hI.history
  | fresh ho hl hl' =>
    have h := ended_growth hl.wires.growth hI.history
    refine ended_growth hl'.wires.growth (ended_growth ⟨_, rfl, ?_⟩ h)
    rintro o ho
    rw [List.mem_singleton.mp ho]
    trivial
  | refuse ho hn hl =>
    rw [hl]
    exact ended_accepted hI.history fun _ => hn
  | @defer ch data n chunks hch hne hallow hmode ho hdata hl =>
    rw [hl] at hwell ⊢
    refine ended_accepted hI.history fun hend => ?_
    cases hgate : c.now.kexBlocksApp with
    | false => exact absurd hend (not_ended_of_allowance hgate hallow)
    | true => exact absurd ⟨hgate, hallow, hend⟩ (hwell.sends c.now data n (by simp) hne)
  | wire hch hne hallow hgate hr ho hw hl =>
    rw [hl]
    refine ended_accepted (ended_growth hw.growth hI.history) fun hend => ?_
    exact absurd hend (not_ended_of_allowance hgate hallow)
  | flush hch hlive hp ho hw hdata => exact ended_growth hw.growth hI.history
  | lost hch ho hw hlt => exact ended_growth hw.growth hI.history
  | mark ho ho1 hm hl => exact ended_growth hl.wires.growth hI.history
  | @eof o before payload w ho ho1 he hw hbo hb hl hm =>
    have hempty : o.pending = [] := (hI.outlet o ho).due he hw
    rw [hl]
    refine ⟨hI.history.1.concat ?_, hI.history.2.concat ?_⟩
    · rintro before' payload' w' heq -
      cases heq
      obtain ⟨ch, hch, hout⟩ := Option.map_eq_some_iff.mp hbo
      refine ⟨⟨ch, hch, (congrArg Outlet.pending hout).trans hempty⟩, fun hle => ?_⟩
      rw [show before.writeSoft = c.now.writeSoft from congrArg (·.writeSoft) hb,
        show before.writeHard = c.now.writeHard from congrArg (·.writeHard) hb] at hle
      have hacc := hI.balanced hle o ho
      rwa [hempty, List.flatten_nil, List.append_nil] at hacc
    · rintro before' data n heq
      cases heq

omit [CryptoLib] in
/-- A permutation does not mind data that overtakes other data. -/
theorem perm_insert (w p a x : Bytes) (h : (w ++ p).Perm a) : (w ++ x ++ p).Perm (a ++ x) := by
  rw [List.append_assoc]
  have hswap : (w ++ (x ++ p)).Perm (w ++ (p ++ x)) := List.perm_append_comm.append_left w
  refine hswap.trans ?_
  rw [← List.append_assoc]
  exact h.append_right x

theorem Move.endOk (h : Move c c') (hwf : WellFormed c) (hwell : EndsWell id c'.log)
    (hI : EndOk id c) : EndOk id c' := by
  have heff : Effect id c c' := h.effect hwf.table
  have hset := h.settings
  refine ⟨heff.outletOk hwell hI.outlet, fun hle => ?_, heff.history hwell hI⟩
  rw [show c'.now.writeSoft = c.now.writeSoft from congrArg (·.writeSoft) hset,
    show c'.now.writeHard = c.now.writeHard from congrArg (·.writeHard) hset] at hle
  refine heff.accounted .nil (fun a b x h => h.append_right x) (.inl perm_insert) hle ?_
  exact hI.balanced hle

namespace Setup

variable {setup : Setup} {rng : Rng} {calls : List Call}

theorem starts_endOk (h : Starts ⟨setup.blank rng, []⟩ c) : EndOk id c := by
  have hout : c.now.outlet? id = none := h.beside.outlet.trans (blank_outlet? setup rng id)
  refine ⟨fun o ho => ?_, fun _ o ho => ?_, ?_⟩
  · cases hout.symm.trans ho
  · cases hout.symm.trans ho
  · refine ended_growth h.beside.log.wires.growth ⟨?_, ?_⟩
    · intro l before payload w hpre
      simp at hpre
    · intro before data n hmem
      cases hmem

/-- In a run whose application ends a stream only when nothing is deferred, and
    sends nothing behind its end while a key exchange runs, the EOF comes last
    and `send_data` accepts nothing after the end. -/
theorem run_eofLast (hrun : setup.run rng calls = .ok () c) (id : UInt32)
    (hwell : EndsWell id c.log) :
    EofLast id c.log ∧ RefusedAfterEnd id c.log ∧
      ∀ data, c.now.Ended id → (data ≠ [] → ¬c.now.Overruns id) →
        sendData id data c = .ok 0 c := by
  have hinv : EndOk id c := by
    refine run_invariant (I := EndOk id) (G := fun o =>
      (∀ before close, o = .ended before id close → ¬before.Truncates id close) ∧
      ∀ before data n, o = .accepted before id data n → data ≠ [] → ¬before.Overruns id)
      (fun _ h0 => starts_endOk h0) ?_ hrun ?_
    · intro c c' hwf hI hm hG
      refine hm.endOk hwf ⟨?_, ?_⟩ hI
      · exact fun before close ho => (hG _ ho).1 before close rfl
      · exact fun before data n ho => (hG _ ho).2 before data n rfl
    · intro o ho
      refine ⟨?_, ?_⟩
      · rintro before close rfl
        exact hwell.ends before close ho
      · rintro before data n rfl
        exact hwell.sends before data n ho
  refine ⟨hinv.history.1, hinv.history.2, fun data hend hover => ?_⟩
  refine sendData_of_allowance fun hne => ?_
  by_contra hpos
  have hallow : 0 < c.now.outboundAllowance id := Nat.pos_of_ne_zero hpos
  cases hgate : c.now.kexBlocksApp with
  | false => exact not_ended_of_allowance hgate hallow hend
  | true => exact hover hne ⟨hgate, hallow, hend⟩

/-- Data and the end of the stream with the gate open, then more data. -/
def dataThenEof : List Call :=
  [.recv (channelPeer 1000 ++ Toy.sealedPacket Msg.userauthSuccess), .processIn, .confirmOpen 0,
    .sendData 0 [97], .sendEof 0, .sendData 0 [98]]

/-- Two bytes and a window for one, then the end of the stream. -/
def eofBehindWindow : List Call :=
  [.recv (channelPeer 1), .processIn, .confirmOpen 0, .consumeOut 21, .sendData 0 [97, 98],
    .recv (Toy.sealedPacket Msg.userauthSuccess), .processIn, .sendEof 0]

/-- The end of the stream while the gate is closed, then data. -/
def dataBehindEof : List Call :=
  [.recv (channelPeer 1000), .processIn, .confirmOpen 0, .consumeOut 21, .sendEof 0,
    .sendData 0 [97]]

omit [CryptoLib] in
/-- The EOF goes out behind the byte, and nothing is accepted after it. -/
theorem run_eofLast_dataThenEof : ∃ c,
    @Setup.run Toy.lib (.server Toy.server) Toy.rng dataThenEof = .ok () c ∧
      c.now.Ended 0 ∧ streamOf 0 c.log = ⟨[97], [97]⟩ ∧
      EofLast 0 c.log ∧ RefusedAfterEnd 0 c.log := by
  have hpass : (@Setup.run Toy.lib (.server Toy.server) Toy.rng dataThenEof).passes (fun c =>
      ((c.now.channels.get? 0).any fun ch => ch.sentEof) &&
      decide (streamOf 0 c.log = ⟨[97], [97]⟩) &&
      c.log.all (Obs.everyEnded fun before _ =>
        (before.channels.get? 0).all fun ch => decide (ch.pendingOut = [])) &&
      c.log.all (Obs.everyAccepted fun before => !before.kexBlocksApp)) = true := by
    decide +kernel
  obtain ⟨_, c, hrun, hc⟩ := Outcome.exists_of_passes hpass
  simp only [Bool.and_eq_true, decide_eq_true_iff, Option.any_eq_true] at hc
  obtain ⟨⟨⟨⟨ch, hch, he⟩, hs⟩, hended⟩, haccepted⟩ := hc
  have hwell : EndsWell 0 c.log := by
    refine ⟨?_, ?_⟩
    · rintro before close hmem ⟨-, ch0, hch0, hp⟩
      have hempty := List.all_eq_true.mp hended _ hmem
      simp only [Obs.everyEnded, hch0, Option.all_some, decide_eq_true_iff] at hempty
      exact hp hempty
    · rintro before data n hmem - ⟨hgate, -, -⟩
      have hopen := List.all_eq_true.mp haccepted _ hmem
      simp only [Obs.everyAccepted, hgate] at hopen
      cases hopen
  have h := @run_eofLast Toy.lib c _ _ _ hrun 0 hwell
  exact ⟨c, hrun, ⟨ch, hch, .inl he⟩, hs, h.1, h.2.1⟩

/-- The EOF of channel 0 was queued while a byte was deferred. -/
def eofAhead : Obs → Bool
  | .queued before owner payload _ =>
      decide (owner = some 0 ∧ IsMsg .channelEof payload) &&
        (before.channels.get? 0).all fun ch => decide (ch.pendingOut = [[98]])
  | _ => false

/-- A byte was accepted on channel 0 after its end. -/
def acceptedLate : Obs → Bool
  | .accepted before id _ n =>
      decide (id = 0 ∧ n = 1) && (before.channels.get? 0).any fun ch => ch.sentEof
  | _ => false

omit [CryptoLib] in
/-- In the one run the EOF goes out while a byte is deferred, in the other a
    byte is accepted behind the end of the stream. -/
theorem eof_before_data :
    (∃ c, @Setup.run Toy.lib (.server Toy.server) Toy.rng eofBehindWindow = .ok () c ∧
      ¬EofLast 0 c.log) ∧
    ∃ c, @Setup.run Toy.lib (.server Toy.server) Toy.rng dataBehindEof = .ok () c ∧
      ¬RefusedAfterEnd 0 c.log := by
  refine ⟨?_, ?_⟩
  · have hpass : (@Setup.run Toy.lib (.server Toy.server) Toy.rng eofBehindWindow).passes (fun c =>
        c.log.any eofAhead) = true := by
      decide +kernel
    obtain ⟨_, c, hrun, hc⟩ := Outcome.exists_of_passes hpass
    obtain ⟨o, hmem, ho⟩ := List.any_eq_true.mp hc
    refine ⟨c, hrun, fun hlast => ?_⟩
    cases o with
    | queued before owner payload w =>
      simp only [eofAhead, Bool.and_eq_true, decide_eq_true_iff] at ho
      obtain ⟨⟨rfl, hm⟩, hp⟩ := ho
      obtain ⟨s, t, hlog⟩ := List.append_of_mem hmem
      have hpre : s ++ [.queued before (some 0) payload w] <+: c.log :=
        ⟨t, by rw [hlog, List.append_assoc]; rfl⟩
      obtain ⟨⟨ch, hch, hnil⟩, -⟩ := hlast s before payload w hpre hm
      rw [hch, Option.all_some, decide_eq_true_iff, hnil] at hp
      cases hp
    | _ => cases ho
  · have hpass : (@Setup.run Toy.lib (.server Toy.server) Toy.rng dataBehindEof).passes (fun c =>
        c.log.any acceptedLate) = true := by
      decide +kernel
    obtain ⟨_, c, hrun, hc⟩ := Outcome.exists_of_passes hpass
    obtain ⟨o, hmem, ho⟩ := List.any_eq_true.mp hc
    refine ⟨c, hrun, fun hrefused => ?_⟩
    cases o with
    | accepted before id data n =>
      simp only [acceptedLate, Bool.and_eq_true, decide_eq_true_iff, Option.any_eq_true] at ho
      obtain ⟨⟨rfl, rfl⟩, ch, hch, he⟩ := ho
      exact absurd (hrefused before data 1 hmem ⟨ch, hch, .inl he⟩) (by decide)
    | _ => cases ho

end Setup

end Ssproxy
