/-
  Ssproxy.Stall

  Data that waits.  What `send_data` took while the gate was closed is sent by
  `flush_pending`, which stops at the soft limit of the backlog.  Nothing calls
  it when the socket takes the backlog, so data can be left waiting behind an
  empty queue.

  - `Unstalled`: with the gate open and nothing held, no channel has data that
    could be sent.
  - `Eases`: a move that lets no channel start to wait.  All moves are of this
    kind, except those that give a channel credit, open the gate, or take the
    last held byte.
  - `Quenched`: what `flush_pending` achieves for one channel.
-/

import Ssproxy.Backlog
import Ssproxy.Stream

namespace Ssproxy

open Lib Wire Connection Relation

-- ============================================================================
-- Channels with something to send
-- ============================================================================

/-- The peer would take data of this channel, and some is deferred. -/
structure Channel.Waiting (ch : Channel) : Prop where
  confirmed : ch.openConfirmed = true
  remote : ch.remoteId.isSome = true
  window : 0 < ch.sendWindow
  packet : 0 < ch.maxRemotePacket
  live : ch.sentEof = false
  pending : ch.pendingOut ≠ []

/-- Some channel has something to send. -/
def Connection.Waits (c : Connection) : Prop :=
  ∃ id ch, c.channels.get? id = some ch ∧ ch.Waiting

/-- Channel `id` has nothing to send, or something else is to be sent first. -/
def Quenched (id : UInt32) (c : Connection) : Prop :=
  c.kexBlocksApp = false → c.held = [] → ∀ ch, c.channels.get? id = some ch → ¬ch.Waiting

/-- No channel has something to send while the gate is open and nothing is held. -/
def Unstalled (c : Connection) : Prop := ∀ id, Quenched id c

variable {c c' c1 : Conn} {p payload : Bytes} {owner : Option UInt32} {k : Cause}

/-- What was held is still held, and a channel that waits was waiting before. -/
structure Eases (c c' : Conn) : Prop where
  feeds : Feeds c c'
  slots : c'.now.kexBlocksApp = false → c'.now.held = [] → ∀ id ch',
    c'.now.channels.get? id = some ch' → ch'.Waiting →
    c.now.kexBlocksApp = false ∧ ∃ ch, c.now.channels.get? id = some ch ∧ ch.Waiting

theorem Feeds.held_nil (h : Feeds c c') (hnil : c'.now.held = []) : c.now.held = [] := by
  obtain ⟨new, hnew, -⟩ := h.bytes
  rw [hnew] at hnil
  exact (List.append_eq_nil_iff.mp hnil).1

namespace Eases

theorem refl (c : Conn) : Eases c c :=
  ⟨.refl c, fun hg _ _ ch hch hw => ⟨hg, ch, hch, hw⟩⟩

theorem trans (h : Eases c c1) (h' : Eases c1 c') : Eases c c' := by
  refine ⟨h.feeds.trans h'.feeds, fun hg hnil id ch hch hw => ?_⟩
  obtain ⟨hg1, ch1, hch1, hw1⟩ := h'.slots hg hnil id ch hch hw
  exact h.slots hg1 (h'.feeds.held_nil hnil) id ch1 hch1 hw1

theorem quenched {id : UInt32} (h : Eases c c') (hq : Quenched id c.now) : Quenched id c'.now := by
  intro hg hnil ch hch hw
  obtain ⟨hg0, ch0, hch0, hw0⟩ := h.slots hg hnil id ch hch hw
  exact hq hg0 (h.feeds.held_nil hnil) ch0 hch0 hw0

theorem unstalled (h : Eases c c') (hu : Unstalled c.now) : Unstalled c'.now :=
  fun id => h.quenched (hu id)

/-- The channels and the gate were left alone. -/
theorem of_eq (hf : Feeds c c') (hch : c'.now.channels = c.now.channels)
    (hg : c'.now.kexBlocksApp = c.now.kexBlocksApp) : Eases c c' := by
  refine ⟨hf, fun hopen _ id ch hget hw => ⟨hg ▸ hopen, ch, ?_, hw⟩⟩
  rw [← hch]
  exact hget

/-- The gate is closed. -/
theorem gated (hf : Feeds c c') (hg : c'.now.kexBlocksApp = true) : Eases c c' := by
  refine ⟨hf, fun hopen => ?_⟩
  rw [hg] at hopen
  cases hopen

/-- Something is held. -/
theorem holding (hf : Feeds c c') (hne : c'.now.held ≠ []) : Eases c c' :=
  ⟨hf, fun _ hnil => absurd hnil hne⟩

/-- The same before a move. -/
theorem behind (h : Eases c1 c') (hf : Feeds c c1) (hch : c1.now.channels = c.now.channels)
    (hg : c1.now.kexBlocksApp = c.now.kexBlocksApp) : Eases c c' :=
  (of_eq hf hch hg).trans h

/-- Channel `id` was changed, and waits only if it did before. -/
theorem set {id : UInt32} {ch ch' : Channel} (hf : Feeds c c')
    (hch : c.now.channels.get? id = some ch)
    (hset : c'.now.channels = c.now.channels.set id ch')
    (hg : c'.now.kexBlocksApp = c.now.kexBlocksApp) (hw : ch'.Waiting → ch.Waiting) :
    Eases c c' := by
  refine ⟨hf, fun hopen _ j chj hj hwj => ⟨hg ▸ hopen, ?_⟩⟩
  rw [hset, ChannelTable.get?_set hch] at hj
  split at hj
  · rename_i hid
    cases hj
    exact ⟨ch, hid ▸ hch, hw hwj⟩
  · exact ⟨chj, hj, hwj⟩

/-- Channel `id` was freed. -/
theorem release {id : UInt32} (hf : Feeds c c')
    (hrel : c'.now.channels = c.now.channels.release id)
    (hg : c'.now.kexBlocksApp = c.now.kexBlocksApp) : Eases c c' := by
  refine ⟨hf, fun hopen _ j chj hj hwj => ⟨hg ▸ hopen, chj, ?_, hwj⟩⟩
  rw [hrel] at hj
  by_cases hid : j = id
  · rw [hid, ChannelTable.get?_release_self] at hj
    cases hj
  · rw [ChannelTable.get?_release_ne _ hid] at hj
    exact hj

end Eases

-- ============================================================================
-- Moves after which no channel starts to wait
-- ============================================================================

variable [CryptoLib]

theorem Queues.holds (h : Queues owner payload c c') : c'.now.held ≠ [] := by
  cases h with
  | mk hne hseal =>
    have hlen := (DirectionKeys.sealBuf_length hseal).1
    rw [length_frame] at hlen
    intro hnil
    have hzero := congrArg List.length hnil
    simp only [Connection.held, sealed, List.length_append, List.flatten_append,
      List.flatten_singleton, List.length_nil] at hzero
    omega

theorem Queues.eases (h : Queues owner payload c1 c') (hf : Feeds c c1) : Eases c c' :=
  .holding (hf.trans h.feeds) h.holds

omit [CryptoLib] in
theorem Draws.eases (h : Draws c c') : Eases c c' :=
  .of_eq h.feeds h.channels (congrArg (·.conn.kexBlocksApp) h.control)

theorem Sends.eases (h : Sends owner payload c c') : Eases c c' := by
  rcases h with h | ⟨-, h⟩
  · exact h.eases (.refl c)
  · exact h.eases

theorem Receives.eases (h : Receives p c c1) : Eases c c1 :=
  .of_eq h.feeds h.channels (congrArg (·.conn.kexBlocksApp) h.control)

theorem Starts.eases (h : Starts c c') : Eases c c' := by
  refine .gated h.feeds ?_
  cases h
  rfl

theorem Joins.eases (h : Joins c c') : Eases c c' := by
  cases h with
  | running hk => exact .refl c
  | started hk hs => exact hs.eases

theorem HangsUp.eases {reason : UInt32} {msg : String} (h : HangsUp reason msg c c') :
    Eases c c' := by
  cases h with
  | again hc => exact .refl c
  | first hc hs => exact hs.eases.trans (.of_eq (.of_eq rfl (by simp [sealedBytes])) rfl rfl)

theorem Denies.eases {cfg : ServerConfig} (h : Denies cfg c c') : Eases c c' := by
  cases h with
  | soft hlt hq => exact hq.eases (.refl c)
  | hard hge hh => exact hh.eases

theorem Greets.eases (h : Greets c c') : Eases c c' := by
  cases h with
  | silent hr he => exact .refl c
  | extInfo hr he hq => exact hq.eases (.refl c)
  | service hr hq => exact hq.eases (.refl c)

theorem Switches.eases {pk : PendingKeys} (h : Switches pk c1 c') (hf : Feeds c c1) :
    Eases c c' := by
  refine .holding (hf.trans h.feeds) ?_
  cases h with
  | mk hpk hq => exact hq.holds

omit [CryptoLib] in
/-- A channel starts with nothing to send. -/
theorem Allocates.eases {ch : Channel} {id : UInt32} (h : Allocates ch c id c')
    (hwf : WellFormed c) (hp : ch.pendingOut = []) : Eases c c' := by
  refine ⟨h.feeds, ?_⟩
  cases h with
  | mk ht =>
    have hplaced := (ChannelTable.alloc_sat hwf.table ch).of_ok ht
    intro hopen _ j chj hj hw
    refine ⟨hopen, chj, ?_, hw⟩
    by_cases hid : j = id
    · rw [hid] at hj
      cases hplaced.self.symm.trans hj
      exact absurd hp hw.pending
    · rw [← hplaced.other j hid]
      exact hj

/-- While the gate is open, data goes out at once unless there is nowhere to
    send it. -/
theorem SendsData.eases {id : UInt32} {chunks : List Bytes} (h : SendsData id c chunks c') :
    Eases c c' := by
  induction h with
  | done c => exact .refl c
  | defer hch hne hallow hgate htail ih =>
    refine Eases.trans ?_ ih
    rcases hgate with hgate | hr
    · exact .gated (.channel _ _ _) hgate
    · refine .set (.channel _ _ _) hch rfl rfl fun hw => ?_
      have hsome := hw.remote
      rw [hr] at hsome
      cases hsome
  | wire hch hne hallow hgate hr hq htail ih => exact (hq.eases (.channel _ _ _)).trans ih

omit [CryptoLib] in
/-- A backlog above the hard limit is not empty. -/
theorem Balanced.holds {c : Connection} (hb : Balanced c) (hpos : 0 < c.writeHard)
    (hhard : c.writeHard ≤ c.writeBytes) : c.held ≠ [] := by
  intro hnil
  have hlen := hb.queued.2
  rw [hnil, List.length_nil] at hlen
  omega

/-- Every step but that of `consume_out`. -/
theorem Step.eases (h : Step k c c') (hk : ∀ n, k ≠ .call (.consumeOut n)) (hwf : WellFormed c)
    (hb : Balanced c.now) (hpos : 0 < c.now.writeHard) : Eases c c' := by
  have hf := h.feeds hk
  cases h with
  | pull =>
    obtain ⟨ident, out, isIdent, q, heq⟩ := c.now.pullCurrentOut_eq
    refine .of_eq hf ?_ ?_
    · show c.now.pullCurrentOut.channels = _
      rw [heq]
    · show c.now.pullCurrentOut.kexBlocksApp = _
      rw [heq]
  | drain hb hm => exact absurd rfl (hk _)
  | draw h => exact h.eases
  | startKex hk hs h => exact h.eases
  | hangUp h => exact h.eases
  | consume hch hq => exact .set hf hch rfl rfl fun hw => ⟨hw.1, hw.2, hw.3, hw.4, hw.5, hw.6⟩
  | grantSilent hgate hch hadd hpos hr =>
    exact .set hf hch rfl rfl fun hw => ⟨hw.1, hw.2, hw.3, hw.4, hw.5, hw.6⟩
  | grant hgate hch hadd hpos hr hq => exact .holding hf hq.holds
  | sendData h hn hdata => exact h.eases.trans (.of_eq (.of_eq rfl (by simp [sealedBytes])) rfl rfl)
  | sendLost h hch hgate hr hsoft hhard =>
    have hset := congrArg (·.writeHard) h.extends.settings
    exact .holding hf (Balanced.holds (hf.balanced hb) (Nat.lt_of_lt_of_eq hpos hset.symm) hhard)
  | flush hch hcan hp hne hq => exact .holding hf hq.holds
  | flushLost hch hcan hp hne hhard =>
    exact .holding hf (Balanced.holds (hf.balanced hb) hpos hhard)
  | askEof hch he hc => exact .set hf hch rfl rfl fun hw => Bool.noConfusion hw.live
  | askClose hgate hch hc => exact .set hf hch rfl rfl fun hw => Bool.noConfusion hw.live
  | closeAgain hch hc hw => exact .set hf hch rfl rfl fun hw => Bool.noConfusion hw.live
  | closeSilent hgate hch hc hw hr => exact .set hf hch rfl rfl fun hw => Bool.noConfusion hw.live
  | closeNow hgate hch hc hw hr hq => exact .holding hf hq.holds
  | emitEofSilent hgate hch he hw hr =>
    exact .set hf hch rfl rfl fun hw => ⟨hw.1, hw.2, hw.3, hw.4, hw.5, hw.6⟩
  | emitEof hgate hch he hw hr hq => exact .holding hf hq.holds
  | emitCloseSilent hgate hch hc hw hr =>
    exact .set hf hch rfl rfl fun hw => ⟨hw.1, hw.2, hw.3, hw.4, hw.5, hw.6⟩
  | emitClose hgate hch hc hw hr hq => exact .holding hf hq.holds
  | freeClosed hch hg hw => exact .release hf rfl rfl
  | confirmSilent hch hr =>
    refine .set hf hch rfl rfl fun hw => ?_
    have hsome := hw.remote
    rw [hr] at hsome
    cases hsome
  | confirm hch hr hq => exact .holding hf hq.holds
  | failOpen hch hr hs =>
    exact (Eases.release (.freed _ _) rfl rfl).trans hs.eases
  | openLocal hrole hauth ha hs => exact (ha.eases hwf rfl).trans hs.eases
  | popEvent | roundRobin | tick | closeEvent => exact .of_eq hf rfl rfl

/-- The packets that may let a channel start to wait: credit, the confirmation
    of a channel, the end of a key exchange, and a login. -/
def Rouses (p : Bytes) : Prop :=
  ∃ m ∈ [MsgType.channelWindowAdjust, .channelOpenConfirmation, .newkeys, .userauthSuccess],
    IsMsg m p

theorem Handles.eases (h : Handles p c c') (hno : ¬Rouses p) (hwf : WellFormed c) :
    Eases c c' := by
  have hf := h.feeds
  cases h with
  | skip hr h => exact hr.eases
  | answer hr h hq => exact .holding hf hq.holds
  | kexinitServer hr hm hrole hp hj hk hn =>
    exact (hr.eases.trans hj.eases).trans (.of_eq (.of_eq rfl rfl) rfl rfl)
  | kexinitClient hr hm hrole hp hj hk hn hpub hq => exact .holding hf hq.holds
  | ecdhInit hr hrole hm hcfg hx hz hq hs => exact hs.eases (hr.feeds.trans (hq.feeds.behind rfl rfl))
  | ecdhReply hr hrole hm hpub hsec hx hks hsig hz hs =>
    exact hs.eases (hr.feeds.trans (.of_eq rfl rfl))
  | newkeysFirst hr hm hpk hf' hg => exact absurd ⟨_, by decide, hm⟩ hno
  | newkeysAgain hr hm hpk hf' => exact absurd ⟨_, by decide, hm⟩ hno
  | userauthSuccess hr hm => exact absurd ⟨_, by decide, hm⟩ hno
  | authAccept hr hrole hcfg hm hok hq => exact .holding hf hq.holds
  | authReject hr hrole hcfg hm hbad hd =>
    exact hr.eases.trans (hd.eases.behind (.of_eq rfl (by simp [sealedBytes])) rfl rfl)
  | authOther hr hrole hcfg hm hd => exact hr.eases.trans hd.eases
  | disconnect hr hm => exact hr.eases.trans (.of_eq ((Feeds.event _ _).behind rfl rfl) rfl rfl)
  | openSession hr hm hauth ha =>
    exact (hr.eases.trans (ha.eases (hr.wellFormed hwf) rfl)).trans (.of_eq (.event _ _) rfl rfl)
  | openDirect hr hm hauth ha =>
    exact (hr.eases.trans (ha.eases (hr.wellFormed hwf) rfl)).trans (.of_eq (.event _ _) rfl rfl)
  | openConfirm hr hm hch => exact absurd ⟨_, by decide, IsMsg.of_prefix hm⟩ hno
  | openFail hr hm =>
    exact hr.eases.trans (.release ((Feeds.freed _ _).trans (.event _ _)) rfl rfl)
  | windowAdjust hr hm hch => exact absurd ⟨_, by decide, IsMsg.of_prefix hm⟩ hno
  | deliver hr hm hch hw =>
    refine hr.eases.trans (.set ((Feeds.channel _ _ _).trans (.event _ _)) hch rfl rfl ?_)
    exact fun hw => ⟨hw.1, hw.2, hw.3, hw.4, hw.5, hw.6⟩
  | peerEof hr hm hch =>
    refine hr.eases.trans (.set ((Feeds.channel _ _ _).trans (.event _ _)) hch rfl rfl ?_)
    exact fun hw => ⟨hw.1, hw.2, hw.3, hw.4, hw.5, hw.6⟩
  | peerEofUnknown hr hm hch => exact hr.eases.trans (.of_eq (.event _ _) rfl rfl)
  | peerClose hr hm hch =>
    refine hr.eases.trans (.set (.channel _ _ _) hch rfl rfl ?_)
    exact fun hw => ⟨hw.1, hw.2, hw.3, hw.4, hw.5, hw.6⟩

theorem Faults.eases (h : Faults c c') : Eases c c' := by
  have hf := h.feeds
  cases h with
  | reject h => exact h.eases
  | spoil h hm hrole hk hsec => exact h.eases.trans (.of_eq (.of_eq rfl rfl) rfl rfl)
  | drop hkind => exact .of_eq hf rfl rfl
  | identBad h => exact .of_eq hf rfl rfl

theorem Failed.eases (h : Failed c c') : Eases c c' := by
  cases h with
  | plain hr hd => exact hr.eases.trans hd.eases
  | spoiled hr hm hrole hk hsec ks => exact hr.eases.trans (.of_eq (.of_eq rfl rfl) rfl rfl)
  | kexinit hr hm hp hj => exact hr.eases.trans hj.eases

theorem Failed.log (h : Failed c c') : c.log <+: c'.log := by
  have hreceived : ∀ {p : Bytes} {c1 : Conn}, Receives p c c1 → c.log <+: c1.log := by
    intro p c1 hr
    rw [hr.log]
    exact List.prefix_append _ _
  cases h with
  | plain hr hd => exact hd.log ▸ hreceived hr
  | @spoiled p c1 k hr hm hrole hk hsec ks =>
    have hlog : c.log <+: c1.log := hreceived hr
    exact hlog
  | kexinit hr hm hp hj => exact (hreceived hr).trans hj.extends.log.isPrefix

-- ============================================================================
-- What the flush relies on
-- ============================================================================

/-- Each channel knows its slot, and no chunk it defers is empty. -/
def Sound (t : ChannelTable) : Prop :=
  ∀ id ch, t.get? id = some ch → ch.localId = id ∧ [] ∉ ch.pendingOut

namespace Sound

variable {t t' : ChannelTable} {id : UInt32} {ch ch' : Channel}

omit [CryptoLib] in
theorem set (h : Sound t) (hch : t.get? id = some ch) (hid : ch'.localId = ch.localId)
    (hp : [] ∉ ch.pendingOut → [] ∉ ch'.pendingOut) : Sound (t.set id ch') := by
  intro j chj hj
  rw [ChannelTable.get?_set hch] at hj
  split at hj
  · rename_i hij
    cases hj
    obtain ⟨hl, hn⟩ := h id ch hch
    exact ⟨by rw [hid, hl, hij], hp hn⟩
  · exact h j chj hj

omit [CryptoLib] in
theorem release (h : Sound t) (id : UInt32) : Sound (t.release id) := by
  intro j ch hj
  by_cases hij : j = id
  · rw [hij, ChannelTable.get?_release_self] at hj
    cases hj
  · rw [ChannelTable.get?_release_ne _ hij] at hj
    exact h j ch hj

omit [CryptoLib] in
theorem placed (h : Sound t) (hp : ChannelTable.Placed t ch id t') (hnil : ch.pendingOut = []) :
    Sound t' := by
  intro j chj hj
  by_cases hij : j = id
  · rw [hij] at hj
    cases hp.self.symm.trans hj
    refine ⟨hij.symm, ?_⟩
    rw [hnil]
    exact List.not_mem_nil
  · exact h j chj ((hp.other j hij).symm.trans hj)

end Sound

omit [CryptoLib] in
theorem Allocates.sound {ch : Channel} {id : UInt32} (h : Allocates ch c id c') (hwf : WellFormed c)
    (hnil : ch.pendingOut = []) (hs : Sound c.now.channels) : Sound c'.now.channels := by
  cases h with
  | mk ht => exact hs.placed ((ChannelTable.alloc_sat hwf.table ch).of_ok ht) hnil

theorem SendsData.sound {id : UInt32} {chunks : List Bytes} (h : SendsData id c chunks c')
    (hs : Sound c.now.channels) : Sound c'.now.channels := by
  induction h with
  | done c => exact hs
  | @defer c c' ch chunk chunks hch hne hallow hgate htail ih =>
    refine ih (hs.set hch rfl fun hp hmem => ?_)
    rcases List.mem_append.mp hmem with hmem | hmem
    · exact hp hmem
    · exact hne (List.mem_singleton.mp hmem).symm
  | wire hch hne hallow hgate hr hq htail ih =>
    refine ih ?_
    rw [hq.channels]
    exact hs.set hch rfl fun hp => hp

omit [CryptoLib] in
/-- What `flush_pending` puts back is not empty. -/
theorem flushed_sound {ch : Channel} {front : Bytes} {queue : List Bytes} {n : Nat}
    (hp : ch.pendingOut = front :: queue) (h : [] ∉ ch.pendingOut) :
    [] ∉ (flushed ch front queue n).pendingOut := by
  rw [hp] at h
  have hqueue : [] ∉ queue := fun hmem => h (List.mem_cons_of_mem _ hmem)
  unfold flushed
  dsimp only
  split
  · exact hqueue
  · rename_i hlt
    intro hmem
    rcases List.mem_cons.mp hmem with hnil | hmem
    · have hlen := congrArg List.length hnil
      rw [List.length_nil, List.length_drop] at hlen
      omega
    · exact hqueue hmem

theorem Step.sound (h : Step k c c') (hwf : WellFormed c) (hs : Sound c.now.channels) :
    Sound c'.now.channels := by
  cases h with
  | pull =>
    obtain ⟨_, _, _, _, h⟩ := c.now.pullCurrentOut_eq
    rw [h]
    exact hs
  | @drain _ b m hb hm =>
    obtain ⟨_, _, _, _, _, h⟩ := c.now.pullDrained_eq b (min m b.length)
    rw [h]
    exact hs
  | startKex hk hk' h => rw [h.channels]; exact hs
  | hangUp h => rw [h.channels]; exact hs
  | draw h => rw [h.channels]; exact hs
  | grant hgate hch hadd hpos hr hq => rw [hq.channels]; exact hs.set hch rfl id
  | sendData h hn hdata => exact h.sound hs
  | sendLost h hch hgate hr hsoft hhard => exact (h.sound hs).set hch rfl id
  | flush hch hcan hp hne hq => rw [hq.channels]; exact hs.set hch rfl (flushed_sound hp)
  | flushLost hch hcan hp hne hhard => exact hs.set hch rfl (flushed_sound hp)
  | emitEof hgate hch he hw hr hq => rw [hq.channels]; exact hs.set hch rfl id
  | emitClose hgate hch hc hw hr hq => rw [hq.channels]; exact hs.set hch rfl id
  | closeNow hgate hch hc hw hr hq => rw [hq.channels]; exact hs.set hch rfl id
  | confirm hch hr hq => rw [hq.channels]; exact hs.set hch rfl id
  | failOpen hch hr h => rw [h.channels]; exact hs.release _
  | openLocal hrole hauth ha h => rw [h.channels]; exact ha.sound hwf rfl hs
  | consume hch hq => exact hs.set hch rfl id
  | grantSilent hgate hch hadd hpos hr => exact hs.set hch rfl id
  | askEof hch he hc => exact hs.set hch rfl id
  | askClose hgate hch hc => exact hs.set hch rfl id
  | closeAgain hch hc hw => exact hs.set hch rfl id
  | closeSilent hgate hch hc hw hr => exact hs.set hch rfl id
  | emitEofSilent hgate hch he hw hr => exact hs.set hch rfl id
  | emitCloseSilent hgate hch hc hw hr => exact hs.set hch rfl id
  | freeClosed hch hg hw => exact hs.release _
  | confirmSilent hch hr => exact hs.set hch rfl id
  | popEvent | roundRobin | tick | closeEvent => exact hs

theorem Joins.channels (h : Joins c c') : c'.now.channels = c.now.channels := by
  cases h with
  | running hk => rfl
  | started hk hs => exact hs.channels

theorem Switches.channels {pk : PendingKeys} (h : Switches pk c c') :
    c'.now.channels = c.now.channels := by
  cases h with
  | mk hpk hq => exact hq.channels

theorem Denies.channels {cfg : ServerConfig} (h : Denies cfg c c') :
    c'.now.channels = c.now.channels := by
  cases h with
  | soft hlt hq => exact hq.channels
  | hard hge hh => exact hh.channels

theorem Greets.channels (h : Greets c c') : c'.now.channels = c.now.channels := by
  cases h with
  | silent hr he => rfl
  | extInfo hr he hq => exact hq.channels
  | service hr hq => exact hq.channels

theorem Receives.sound (h : Receives p c c1) (hs : Sound c.now.channels) : Sound c1.now.channels := by
  rw [h.channels]
  exact hs

theorem Handles.sound (h : Handles p c c') (hwf : WellFormed c) (hs : Sound c.now.channels) :
    Sound c'.now.channels := by
  cases h with
  | skip hr h => exact hr.sound hs
  | answer hr h hq => rw [hq.channels]; exact hr.sound hs
  | kexinitServer hr hm hrole hp hj hk hn =>
    show Sound (Connection.channels _)
    exact hj.channels ▸ hr.sound hs
  | kexinitClient hr hm hrole hp hj hk hn hpub hq =>
    rw [hq.channels]
    exact hj.channels ▸ hr.sound hs
  | ecdhInit hr hrole hm hcfg hx hz hq h' =>
    rw [h'.channels, hq.channels]
    exact hr.sound hs
  | ecdhReply hr hrole hm hpub hsec hx hks hsig hz h' =>
    rw [h'.channels]
    exact hr.sound hs
  | newkeysFirst hr hm hpk hf hg =>
    rw [hg.channels]
    exact hr.sound hs
  | newkeysAgain hr hm hpk hf => exact hr.sound hs
  | userauthSuccess hr hm => exact hr.sound hs
  | authAccept hr hrole hcfg hm hok hq =>
    show Sound (Connection.channels _)
    exact hq.channels ▸ hr.sound hs
  | authReject hr hrole hcfg hm hbad hd =>
    rw [hd.channels]
    exact hr.sound hs
  | authOther hr hrole hcfg hm hd =>
    rw [hd.channels]
    exact hr.sound hs
  | disconnect hr hm => exact hr.sound hs
  | openSession hr hm hauth ha => exact ha.sound (hr.wellFormed hwf) rfl (hr.sound hs)
  | openDirect hr hm hauth ha => exact ha.sound (hr.wellFormed hwf) rfl (hr.sound hs)
  | openConfirm hr hm hch => exact (hr.sound hs).set hch rfl id
  | openFail hr hm => exact (hr.sound hs).release _
  | windowAdjust hr hm hch => exact (hr.sound hs).set hch rfl id
  | deliver hr hm hch hw => exact (hr.sound hs).set hch rfl id
  | peerEof hr hm hch => exact (hr.sound hs).set hch rfl id
  | peerEofUnknown hr hm hch => exact hr.sound hs
  | peerClose hr hm hch => exact (hr.sound hs).set hch rfl id

theorem Move.sound (h : Move c c') (hwf : WellFormed c) (hs : Sound c.now.channels) :
    Sound c'.now.channels := by
  cases h with
  | quiet h =>
    cases h with
    | step h => exact h.sound hwf hs
    | handle h => exact h.sound hwf hs
    | identWait h hno => exact hs
    | identDone h hline => exact hs
  | fault h =>
    cases h with
    | reject h => exact h.sound hs
    | spoil h hm hrole hk hsec => exact h.sound hs
    | drop hkind => exact hs
    | identBad h => exact hs
  | recv bytes => exact hs
  | own h => exact h.sound hwf hs

/-- What the flush relies on: the invariants, and limits that let data through. -/
structure Fit (c : Conn) : Prop where
  wellFormed : WellFormed c
  sound : Sound c.now.channels
  balanced : Balanced c.now
  soft : 0 < c.now.writeSoft
  hard : 0 < c.now.writeHard

theorem Moves.sound (h : Moves c c') (hwf : WellFormed c) (hs : Sound c.now.channels) :
    Sound c'.now.channels := by
  induction h with
  | refl => exact hs
  | tail hpre hlast ih => exact hlast.sound (Moves.wellFormed hpre hwf) ih

theorem Fit.moves (h : Fit c) (hm : Moves c c') (hb : Balanced c'.now) : Fit c' := by
  have hset := Moves.settings hm
  refine ⟨Moves.wellFormed hm h.wellFormed, Moves.sound hm h.wellFormed h.sound, hb, ?_, ?_⟩
  · exact Nat.lt_of_lt_of_eq h.soft (congrArg (·.writeSoft) hset).symm
  · exact Nat.lt_of_lt_of_eq h.hard (congrArg (·.writeHard) hset).symm

theorem Fit.trail {P : Cause → Prop} (h : Fit c) (ht : Trail P c c')
    (hP : ∀ n, ¬P (.call (.consumeOut n))) : Fit c' :=
  h.moves (calms_moves (Trail.calms ht)) ((ht.feeds hP).balanced h.balanced)

theorem Trail.eases {P : Cause → Prop} (h : Trail P c c') (hP : ∀ n, ¬P (.call (.consumeOut n)))
    (hfit : Fit c) : Eases c c' := by
  induction h with
  | refl => exact .refl c
  | tail hpre hlast ih =>
    have hfit1 := hfit.trail hpre hP
    obtain ⟨k, hk, hs⟩ := hlast
    exact ih.trans (hs.eases (fun n hn => hP n (hn ▸ hk)) hfit1.wellFormed hfit1.balanced hfit1.hard)

theorem Fit.steps (h : Fit c) (hs : Steps c c') : Fit c' := h.trail (Steps.trail hs) fun _ h => h

theorem Steps.eases (h : Steps c c') (hfit : Fit c) : Eases c c' :=
  (Steps.trail h).eases (fun _ h => h) hfit

-- ============================================================================
-- What the flush achieves
-- ============================================================================

omit [CryptoLib] in
/-- A channel that cannot be flushed has nothing to send, or the backlog is at
    the soft limit. -/
theorem Fit.quenched_of_idle {id : UInt32} (h : Fit c)
    (hno : ∀ ch, c.now.channels.get? id = some ch → ¬Flushable c.now ch) : Quenched id c.now := by
  intro hgate hnil ch hch hw
  obtain ⟨r, hr⟩ := Option.isSome_iff_exists.mp hw.remote
  obtain ⟨front, queue, hp⟩ := List.exists_cons_of_ne_nil hw.pending
  have hwin : ch.sendWindow ≠ 0 := by
    rintro hz
    exact absurd hw.window (hz ▸ UInt32.lt_irrefl 0)
  have hne : front ≠ [] := by
    rintro rfl
    exact (h.sound id ch hch).2 (hp ▸ List.mem_cons_self)
  have hroom : c.now.queuedWriteBytes < c.now.writeSoft := by
    rw [h.balanced.queued.1, hnil]
    exact h.soft
  exact hno ch hch ⟨r, front, queue, ⟨hgate, hw.confirmed, hw.live, hr, hwin, hroom⟩, hp, hne⟩

/-- The last round of `flush_pending`. -/
theorem flushOnce_quenched (id : UInt32) (hfit : Fit c) (hgate : c.now.kexBlocksApp = false)
    (h : flushOnce id c = .ok false c') : Quenched id c'.now := by
  by_cases hsend : ∃ ch, c.now.channels.get? id = some ch ∧ Flushable c.now ch
  · obtain ⟨ch, hch, r, front, queue, hcan, hp, hne⟩ := hsend
    obtain ⟨hsteps, -, -, hhard, -⟩ := (flushOnce_send id hch hcan hp hne).of_ok h
    have hfit' := hfit.steps (StepsAt.steps hsteps)
    exact fun _ hnil => absurd hnil (hfit'.balanced.holds hfit'.hard (hhard rfl).2)
  · have hidle : ∀ ch, c.now.channels.get? id = some ch → ¬Flushable c.now ch :=
      fun ch hch hf => hsend ⟨ch, hch, hf⟩
    rw [flushOnce_idle id hgate hidle] at h
    cases h
    exact hfit.quenched_of_idle hidle

/-- `flush_pending` leaves its channel quenched: by induction on the room below
    the soft limit, which every round that goes on makes smaller. -/
theorem flushPending_quenches (id : UInt32) (hfit : Fit c) :
    (flushPending id c).Sat (fun _ c' => StepsAt id c c' ∧ Quenched id c'.now)
      (fun _ _ => False) := by
  unfold flushPending
  rw [Proc.bind_of_ok (Traced.read_apply c), Proc.ite_apply]
  split
  · rename_i hgate
    refine ⟨.refl, fun hopen => ?_⟩
    rw [hgate] at hopen
    cases hopen
  · rename_i hgate
    replace hgate := eq_false_of_ne_true hgate
    have hfuel : c.now.writeSoft - c.now.queuedWriteBytes
        < c.now.writeSoft - c.now.queuedWriteBytes + 1 := Nat.lt_succ_self _
    generalize c.now.writeSoft - c.now.queuedWriteBytes + 1 = fuel at hfuel
    generalize hroom : c.now.writeSoft - c.now.queuedWriteBytes = room at hfuel
    induction room using Nat.strongRecOn generalizing c with
    | ind room ih =>
      rw [flushPending_unfold id hgate (hroom ▸ hfuel)]
      have hsat := flushOnce_sat id c hgate
      cases hround : flushOnce id c with
      | panic => exact absurd hround hsat.ne_panic
      | err e c1 => exact (hsat.of_err hround).elim
      | ok again c1 =>
        obtain ⟨hsteps, hgate1, hmore⟩ := hsat.of_ok hround
        cases again with
        | false => exact ⟨hsteps, flushOnce_quenched id hfit hgate hround⟩
        | true =>
          obtain ⟨hsoft, hlt, hbelow⟩ := hmore rfl
          have hless : c1.now.writeSoft - c1.now.queuedWriteBytes < room := by omega
          rw [Outcome.bind_ok, if_pos rfl]
          exact (ih _ hless (hfit.steps (StepsAt.steps hsteps)) hgate1 rfl (by omega)).mono
            (fun _ _ h => ⟨hsteps.trans h.1, h.2⟩) fun _ _ h => h

/-- Some of the connection's own moves, after which `P` holds. -/
def Arrives (P : Connection → Prop) (c c' : Conn) : Prop := Eases c c' ∧ Fit c' ∧ P c'.now

omit [CryptoLib] in
/-- One channel after the other: what was achieved for one stays. -/
theorem forEach_quenches {f : UInt32 → ConnM Unit}
    (hf : ∀ id c, Fit c → (f id c).Sat (fun _ c' => Arrives (Quenched id) c c') (fun _ _ => False)) :
    ∀ (ids : List UInt32) (c : Conn), Fit c →
      (Proc.forEach f ids c).Sat
        (fun _ c' => Arrives (fun k => ∀ id ∈ ids, Quenched id k) c c') (fun _ _ => False)
  | [], c, hfit => ⟨.refl c, hfit, fun _ h => absurd h List.not_mem_nil⟩
  | id :: ids, c, hfit => by
      refine (hf id c hfit).bind ?_
      rintro _ c1 ⟨h1, hfit1, hq⟩
      refine (forEach_quenches hf ids c1 hfit1).mono ?_ fun _ _ h => h
      rintro _ c' ⟨h', hfit', hrest⟩
      refine ⟨h1.trans h', hfit', fun j hj => ?_⟩
      rcases List.mem_cons.mp hj with rfl | hj
      · exact h'.quenched hq
      · exact hrest j hj

omit [CryptoLib] in
/-- Every live channel is in the list the loops go through. -/
theorem Sound.mem_iterIds {t : ChannelTable} {id : UInt32} {ch : Channel} (h : Sound t)
    (hch : t.get? id = some ch) : id ∈ t.iterIds := by
  have hid := (h id ch hch).1
  unfold ChannelTable.iterIds
  rw [List.mem_filterMap]
  refine ⟨some ch, ?_, congrArg some hid⟩
  unfold ChannelTable.get? at hch
  exact List.mem_of_getElem? (Option.join_eq_some_iff.mp hch)

omit [CryptoLib] in
/-- If all channels there were are quenched, none waits. -/
theorem Arrives.unstalled (hs : Sound c.now.channels)
    (h : Arrives (fun k => ∀ id ∈ c.now.channels.iterIds, Quenched id k) c c') :
    Arrives Unstalled c c' := by
  obtain ⟨he, hfit, hq⟩ := h
  refine ⟨he, hfit, fun id hgate hnil ch hch hw => ?_⟩
  obtain ⟨-, ch0, hch0, -⟩ := he.slots hgate hnil id ch hch hw
  exact hq id (hs.mem_iterIds hch0) hgate hnil ch hch hw

theorem flushPending_arrives (id : UInt32) (hfit : Fit c) :
    (flushPending id c).Sat (fun _ c' => Arrives (Quenched id) c c') (fun _ _ => False) := by
  refine (flushPending_quenches id hfit).mono ?_ fun _ _ h => h
  rintro _ c' ⟨hs, hq⟩
  exact ⟨Steps.eases (StepsAt.steps hs) hfit, hfit.steps (StepsAt.steps hs), hq⟩

theorem flushPendingAll_unstalls (hfit : Fit c) :
    (flushPendingAll c).Sat (fun _ c' => Arrives Unstalled c c') (fun _ _ => False) := by
  unfold flushPendingAll
  rw [Proc.bind_of_ok (Traced.read_apply c), Proc.ite_apply]
  split
  · rename_i hgate
    refine ⟨.refl c, hfit, fun id hopen => ?_⟩
    rw [hgate] at hopen
    cases hopen
  · exact (forEach_quenches (fun id c hfit => flushPending_arrives id hfit) _ c hfit).mono
      (fun _ _ h => h.unstalled hfit.sound) fun _ _ h => h

theorem flushPostRekey_unstalls (hfit : Fit c) :
    (flushPostRekey c).Sat (fun _ c' => Arrives Unstalled c c') (fun _ _ => False) := by
  unfold flushPostRekey
  rw [Proc.bind_of_ok (Traced.read_apply c)]
  refine (forEach_quenches ?_ _ c hfit).mono (fun _ _ h => h.unstalled hfit.sound) fun _ _ h => h
  intro id c hfit
  refine Outcome.Sat.bind (maybeAdjust_returns id c) fun _ c1 ha => ?_
  have h1 : Eases c c1 := ha.trail.eases (fun _ h => h) hfit
  have hfit1 : Fit c1 := hfit.trail ha.trail fun _ h => h
  refine Outcome.Sat.bind (flushPending_arrives id hfit1) ?_
  rintro _ c2 ⟨h2, hfit2, hq⟩
  -- what follows lets nothing start to wait
  refine Outcome.Sat.bind (emitEofIfReady_follows id c2).ignore fun _ c3 hs => ?_
  have h3 := Steps.eases (StepsAt.steps hs) hfit2
  have hfit3 := hfit2.steps (StepsAt.steps hs)
  refine Outcome.Sat.mono (emitCloseIfReady_follows id c3).ignore (fun _ c4 hs => ?_) fun _ _ h => h
  have h4 := Steps.eases (StepsAt.steps hs) hfit3
  exact ⟨((h1.trans h2).trans h3).trans h4, hfit3.steps (StepsAt.steps hs),
    h4.quenched (h3.quenched hq)⟩

-- ============================================================================
-- process_in
-- ============================================================================

theorem Fit.handles (h : Fit c) (hh : Handles p c c') : Fit c' :=
  h.moves (.single (.quiet (.handle hh))) (hh.feeds.balanced h.balanced)

/-- The flush after one channel was given something to send. -/
theorem Unstalled.flush {id : UInt32} (hu : Unstalled c.now) (hf : Feeds c c1)
    (hgate : c1.now.kexBlocksApp = c.now.kexBlocksApp)
    (hother : ∀ j, j ≠ id → c1.now.channels.get? j = c.now.channels.get? j) (hfit : Fit c1) :
    (flushPending id c1).Sat (fun _ c' => Unstalled c'.now) (fun _ _ => False) := by
  refine (flushPending_arrives id hfit).mono ?_ fun _ _ h => h
  rintro _ c' ⟨he, -, hq⟩ j
  by_cases hj : j = id
  · exact hj ▸ hq
  · refine he.quenched fun hopen hnil ch hch => ?_
    exact hu j (hgate ▸ hopen) (hf.held_nil hnil) ch (hother j hj ▸ hch)

theorem onWindowAdjust_unstalls (hr : Receives p c c1) (hm : IsMsg .channelWindowAdjust p)
    (hfit : Fit c) (hu : Unstalled c.now) :
    (onWindowAdjust p c1).Sat (fun _ c' => Unstalled c'.now) (fun _ c' => Failed c c') := by
  unfold onWindowAdjust
  refine hr.parse (Parser.u8_sat _) fun t p1 h1 => ?_
  refine hr.parse (Parser.u32_sat _) fun id p2 h2 => ?_
  refine hr.parse (Parser.u32_sat _) fun add p3 h3 => ?_
  dsimp only
  cases hch : c1.now.channels.get? id with
  | none =>
    rw [Proc.bind_apply, getChannel_none hch]
    exact hr.failed
  | some ch =>
    rw [Proc.bind_of_ok (getChannel_some hch), Proc.bind_of_ok (setChannel_apply _ _ _)]
    have hmsg : Msg.windowAdjust id add <+: p := by
      rw [hm.eq_cons h1, h2, h3]
      exact ⟨p3.rest, by simp [Msg.windowAdjust]⟩
    have hh := Handles.windowAdjust hr hmsg hch
    refine ((hr.eases.unstalled hu).flush (.channel _ _ _) rfl ?_ (hfit.handles hh)).mono
      (fun _ _ h => h) fun _ _ h => h.elim
    exact fun j hj => ChannelTable.get?_set_ne hj

theorem onOpenConfirm_unstalls (hr : Receives p c c1) (hm : IsMsg .channelOpenConfirmation p)
    (hfit : Fit c) (hu : Unstalled c.now) :
    (onOpenConfirm p c1).Sat (fun _ c' => Unstalled c'.now) (fun _ c' => Failed c c') := by
  unfold onOpenConfirm
  refine hr.parse (Parser.u8_sat _) fun t p1 h1 => ?_
  refine hr.parse (Parser.u32_sat _) fun id p2 h2 => ?_
  refine hr.parse (Parser.u32_sat _) fun remote p3 h3 => ?_
  refine hr.parse (Parser.u32_sat _) fun w p4 h4 => ?_
  refine hr.parse (Parser.u32_sat _) fun m p5 h5 => ?_
  dsimp only
  cases hch : c1.now.channels.get? id with
  | none =>
    rw [Proc.bind_apply, getChannel_none hch]
    exact hr.failed
  | some ch =>
    rw [Proc.bind_of_ok (getChannel_some hch), Proc.bind_of_ok (setChannel_apply _ _ _),
      Proc.bind_of_ok (pushEvent_apply _ _)]
    have hmsg : MsgType.channelOpenConfirmation.code ::
        (putU32 id ++ putU32 remote ++ putU32 w ++ putU32 m) <+: p := by
      rw [hm.eq_cons h1, h2, h3, h4, h5]
      exact ⟨p5.rest, by simp⟩
    have hh := Handles.openConfirm hr hmsg hch
    refine ((hr.eases.unstalled hu).flush ((Feeds.channel _ _ _).trans (.event _ _)) rfl ?_
      (hfit.handles hh)).mono (fun _ _ h => h) fun _ _ h => h.elim
    exact fun j hj => ChannelTable.get?_set_ne hj

theorem onNewkeys_unstalls (hr : Receives p c c1) (hm : IsMsg .newkeys p) (hfit : Fit c)
    (hu : Unstalled c.now) :
    (onNewkeys c1).Sat (fun _ c' => Unstalled c'.now) (fun _ c' => Failed c c') := by
  have hwf1 := hr.wellFormed hfit.wellFormed
  cases hpk : c1.now.pendingKeys with
  | none =>
    rw [onNewkeys_none hpk]
    exact hr.failed
  | some pk =>
    have hsent : c1.now.sentNewkeys = true := (hwf1.kex.pending pk hpk).2.1
    cases hf : c1.now.firstKexDone with
    | false =>
      -- the gate stays closed until the login
      refine (onNewkeys_first hpk hsent hf).mono ?_ fun _ _ h => h.elim
      intro _ c' hg
      have heases : Eases c1 c' := hg.eases.behind (.of_eq rfl (by simp [sealedBytes])) rfl rfl
      exact heases.unstalled (hr.eases.unstalled hu)
    | true =>
      have hh := Handles.newkeysAgain hr hm hpk hf
      rw [onNewkeys_again hpk hsent hf]
      refine Outcome.Sat.bind (Outcome.Sat.mono (flushPostRekey_unstalls (hfit.handles hh))
        (fun _ _ h => h) fun _ _ h => h.elim) ?_
      rintro _ c2 ⟨-, -, hu2⟩
      exact hu2

/-- A login message that opens the gate for data that waits. -/
structure Stirs (before : Connection) (p : Bytes) : Prop where
  login : IsMsg .userauthSuccess p
  gate : before.kexBlocksApp = true
  waits : before.Waits

theorem onUserauthSuccess_unstalls (hr : Receives p c c1) (hm : IsMsg .userauthSuccess p)
    (hu : Unstalled c.now) (hno : ¬Stirs c.now p) :
    (onUserauthSuccess c1).Sat (fun _ c' => Unstalled c'.now) (fun _ c' => Failed c c') := by
  have hu1 := hr.eases.unstalled hu
  intro id _ hnil ch hch hw
  have hgate : c1.now.kexBlocksApp = c.now.kexBlocksApp :=
    congrArg (·.conn.kexBlocksApp) hr.control
  by_cases hopen : c1.now.kexBlocksApp = false
  · exact hu1 id hopen hnil ch hch hw
  · refine hno ⟨hm, hgate ▸ eq_true_of_ne_false hopen, id, ch, ?_, hw⟩
    rw [← hr.channels]
    exact hch

theorem handlePayload_eq {m : MsgType} (hm : IsMsg m p) (c : Conn) :
    handlePayload p c = (match m with
      | .newkeys => onNewkeys
      | .userauthSuccess => onUserauthSuccess
      | .channelOpenConfirmation => onOpenConfirm p
      | .channelWindowAdjust => onWindowAdjust p
      | _ => handlePayload p : ConnM Unit) c := by
  obtain ⟨r, rfl⟩ : ∃ r, p = m.code :: r := by
    cases p with
    | nil => cases hm
    | cons t r => exact ⟨r, congrArg (· :: r) (Option.some.inj hm)⟩
  cases m <;> rfl

/-- A packet that does not stir up waiting data leaves nothing stalled, unless it
    fails. -/
theorem handlePayload_unstalls (hr : Receives p c c1) (hfit : Fit c)
    (hid : c1.now.identInDone = true) (hu : Unstalled c.now) (hno : ¬Stirs c.now p) :
    (handlePayload p c1).Sat (fun _ c' => Unstalled c'.now) (fun _ c' => Failed c c') := by
  by_cases hrouse : Rouses p
  · obtain ⟨m, hmem, hm⟩ := hrouse
    rw [handlePayload_eq hm]
    simp only [List.mem_cons, List.not_mem_nil, or_false] at hmem
    rcases hmem with rfl | rfl | rfl | rfl
    · exact onWindowAdjust_unstalls hr hm hfit hu
    · exact onOpenConfirm_unstalls hr hm hfit hu
    · exact onNewkeys_unstalls hr hm hfit hu
    · exact onUserauthSuccess_unstalls hr hm hu hno
  · refine (handlePayload_sat hr (hr.wellFormed hfit.wellFormed) hid).mono ?_ fun _ _ h => h
    intro _ c' h
    obtain ⟨c2, hh, hs⟩ := h.settles
    have h2 := hh.eases hrouse hfit.wellFormed
    exact (h2.trans (hs.trail.eases (fun _ h => h) (hfit.handles hh))).unstalled hu

/-- Between `c` and `c'` a packet stirred up waiting data. -/
def Stirred (c c' : Conn) : Prop :=
  ∃ new before p, c'.log = c.log ++ new ∧ .handled before p ∈ new ∧ Stirs before p

/-- In the course of `process_in`, started in `c`. -/
structure Underway (c c' : Conn) : Prop where
  fit : Fit c'
  ident : c'.now.identInDone = true
  log : c.log <+: c'.log
  unstalled : Unstalled c'.now ∨ Stirred c c'

omit [CryptoLib] in
theorem Stirred.mono (h : Stirred c c1) (hlog : c1.log <+: c'.log) : Stirred c c' := by
  obtain ⟨new, before, p, hnew, hmem, hs⟩ := h
  obtain ⟨more, hmore⟩ := hlog
  refine ⟨new ++ more, before, p, ?_, List.mem_append_left _ hmem, hs⟩
  rw [← hmore, hnew, List.append_assoc]

theorem Fit.handled (h : Fit c) (hh : Handled p c c') : Fit c' := by
  obtain ⟨c1, hh, hs⟩ := hh.settles
  exact (h.handles hh).trail hs.trail fun _ h => h

theorem Stirred.of_handled (hs : Stirs c1.now p) (hlog : c.log <+: c1.log) (hh : Handled p c1 c') :
    Stirred c c' := by
  obtain ⟨c2, hh, hset⟩ := hh.settles
  obtain ⟨new, hnew⟩ := hlog
  have h2 : Stirred c ⟨c1.now, c1.log ++ [.handled c1.now p]⟩ :=
    ⟨new ++ [.handled c1.now p], c1.now, p, by rw [← List.append_assoc, hnew],
      List.mem_append_right _ List.mem_cons_self, hs⟩
  exact h2.mono (hh.log.trans hset.trail.extends.log.isPrefix)

namespace Underway

omit [CryptoLib] in
/-- A move that lets no channel start to wait. -/
theorem eases (h : Underway c c1) (he : Eases c1 c') (hlog : c1.log <+: c'.log) :
    Unstalled c'.now ∨ Stirred c c' :=
  h.unstalled.imp he.unstalled fun hs => hs.mono hlog

theorem failed (h : Underway c c1) (hf : Failed c1 c') : Unstalled c'.now ∨ Stirred c c' :=
  h.eases hf.eases hf.log

theorem steps (h : Underway c c1) (hs : Steps c1 c') : Underway c c' := by
  have hext := (Steps.trail hs).extends
  refine ⟨h.fit.steps hs, ?_, h.log.trans hext.log.isPrefix,
    h.eases (Steps.eases hs h.fit) hext.log.isPrefix⟩
  exact (congrArg Ident.done hext.ident).trans h.ident

theorem handlePayload {c2 : Conn} (h : Underway c c1) (hr : Receives p c1 c2)
    (hwf : WellFormed c2) (hid : c2.now.identInDone = true) :
    (Connection.handlePayload p c2).Sat (fun _ c' => Underway c c')
      (fun _ c' => Unstalled c'.now ∨ Stirred c c') := by
  have hsat := handlePayload_sat hr hwf hid
  -- whatever the packet was, and whatever it does to the channels
  have hnext : ∀ c', Handled p c1 c' → Unstalled c'.now ∨ Stirred c c' → Underway c c' := by
    intro c' hh hu
    have hready := Ready.handled ⟨h.fit.wellFormed, h.ident⟩ hh
    exact ⟨h.fit.handled hh, hready.ident, h.log.trans (Turns.log hh.turns), hu⟩
  by_cases hstirs : Stirs c1.now p
  · exact hsat.mono (fun _ c' hh => hnext c' hh (.inr (.of_handled hstirs h.log hh)))
      fun _ _ => h.failed
  rcases h.unstalled with hu | hs
  · refine (hsat.and (handlePayload_unstalls hr h.fit hid hu hstirs)).mono ?_ ?_
    · exact fun _ c' h => hnext c' h.1 (.inl h.2)
    · exact fun _ _ hf => h.failed hf.1
  · exact hsat.mono (fun _ c' hh => hnext c' hh (.inr (hs.mono (Turns.log hh.turns))))
      fun _ _ => h.failed

/-- A round of the packet loop. -/
theorem round (h : Underway c c1) :
    (tryOnePacket c1).Sat (fun _ c' => Underway c c')
      (fun _ c' => Unstalled c'.now ∨ Stirred c c') := by
  refine (tryOnePacket_rule (Q := fun _ c' => Underway c c') c1 h.fit.wellFormed h.ident
    (fun _ hf => h.eases hf.eases (Move.log (.fault hf))) fun p c2 hr hwf hid =>
      h.handlePayload hr hwf hid).mono ?_ ?_
  · rintro again c' (⟨-, rfl⟩ | ⟨-, p, h'⟩)
    · exact h
    · exact h'
  · rintro e c' (rfl | h')
    · exact h.unstalled
    · exact h'

/-- The packet loop, and the flush at its end. -/
theorem processPackets (h : Underway c c1) :
    (Connection.processPackets c1).Sat (fun _ c' => Unstalled c'.now)
      (fun _ c' => Unstalled c'.now ∨ Stirred c c') := by
  unfold Connection.processPackets
  rw [Proc.bind_of_ok (Traced.read_apply c1)]
  refine (Proc.sat_loop (fun _ => round) _ c1 h).bind fun _ c2 h2 => ?_
  refine ((maybeRekey_follows c2).mono (R := fun _ c3 => Underway c c3)
    (fun _ _ hs => h2.steps hs) fun _ _ hs => (h2.steps hs).unstalled).bind fun _ c3 h3 => ?_
  exact (flushPendingAll_unstalls h3.fit).mono (fun _ _ h => h.2.2) fun _ _ h => h.elim

end Underway

/-- `process_in` leaves nothing stalled, unless it fails after a login message
    that opened the gate for data that waited. -/
theorem processIn_unstalls (hfit : Fit c) (hu : Unstalled c.now) :
    (processIn c).Sat (fun _ c' => Unstalled c'.now)
      (fun _ c' => Unstalled c'.now ∨ Stirred c c') := by
  have hwf := hfit.wellFormed
  unfold processIn
  rw [Proc.bind_of_ok (Traced.read_apply c), Proc.ite_apply]
  split
  · rename_i hid
    have hid : c.now.identInDone = false := by simpa using hid
    refine (((tryIdent_sat c hid).and (tryIdent_frame c)).mono (fun _ _ h => h)
      fun _ _ h => .inl (h.1.eases.unstalled hu)).bind ?_
    rintro _ c1 ⟨h1, hframe⟩
    have hfit1 : Fit c1 := hfit.moves (.single (.quiet h1)) (h1.feeds.balanced hfit.balanced)
    have hu1 : Unstalled c1.now := by
      obtain ⟨acc, buf, peer, done, rfl⟩ := hframe
      exact Eases.unstalled (.of_eq h1.feeds rfl rfl) hu
    rw [Proc.bind_of_ok (Traced.read_apply c1), Proc.ite_apply]
    split
    · rename_i hid1
      refine ((maybeStartKex_follows c1 hfit1.wellFormed).mono (fun _ _ h => h) fun _ _ h =>
        .inl ((Steps.eases h hfit1).unstalled hu1)).bind fun _ c2 h2 => ?_
      have h1 : Underway c c1 := ⟨hfit1, hid1, Turns.log (.single (.quiet h1)), .inl hu1⟩
      exact (h1.steps h2).processPackets
    · exact hu1
  · rename_i hid
    have hid : c.now.identInDone = true := by simpa using hid
    exact Underway.processPackets ⟨hfit, hid, List.prefix_rfl, .inl hu⟩

-- ============================================================================
-- Whole runs
-- ============================================================================

omit [CryptoLib] in
theorem held_nil_of_wantsWrite {c : Connection} (hw : c.wantsWrite = false) : c.held = [] := by
  have hempty : ∀ o : Option Bytes, o.any (!·.isEmpty) = false → o.getD [] = [] := by
    intro o ho
    cases o with
    | none => rfl
    | some b => simpa using ho
  unfold wantsWrite at hw
  simp only [Bool.or_eq_false_iff] at hw
  obtain ⟨⟨hident, hcurrent⟩, hqueue⟩ := hw
  have hq : c.writeQ = [] := by simpa using hqueue
  unfold held
  rw [hempty _ hident, hempty _ hcurrent, hq]
  rfl

/-- `consume_out` empties the queue, with the gate open and data waiting. -/
structure Strands (c : Connection) (n : Nat) : Prop where
  all : (Call.consumeOut n).taken c = c.held
  gate : c.kexBlocksApp = false
  waits : c.Waits

theorem consumeOut_unstalls {n : Nat} (hfit : Fit c) (hu : Unstalled c.now)
    (hno : ¬Strands c.now n) :
    (consumeOut n c).Sat (fun _ c' => Unstalled c'.now) (fun _ c' => Unstalled c'.now) := by
  by_cases hn : n = 0
  · subst hn
    exact hu
  have hpull := (Step.pull c).eases (fun _ h => nomatch h) hfit.wellFormed hfit.balanced hfit.hard
  cases hout : c.now.pullCurrentOut.currentOut with
  | none =>
    rw [consumeOut_empty hn hout]
    exact hpull.unstalled hu
  | some b =>
    have hpeek : c.now.peeked.getD [] = b := by
      rw [peeked, hout]
      cases b <;> rfl
    have hheld := (pulls_pullCurrentOut c.now).held
    -- with nothing left, `b` was all there was
    have hdrained : Unstalled (c.now.pullCurrentOut.drained b (min n b.length)) := by
      intro id hgate hnil ch hch hw
      obtain ⟨ident, out, isIdent, q, bytes, heq⟩ := c.now.pullDrained_eq b (min n b.length)
      have hall := held_drained (n := min n b.length) hout
      rw [hnil, List.append_nil, hheld] at hall
      rw [heq] at hgate hch
      refine hno ⟨?_, hgate, id, ch, hch, hw⟩
      show (c.now.peeked.getD []).take n = _
      rw [hpeek, ← hall, List.take_eq_take_iff, Nat.min_assoc, Nat.min_self]
    have hstep := Step.drain hout hn
    have hfit1 : Fit ⟨c.now.pullCurrentOut.drained b (min n b.length), c.log⟩ :=
      hfit.moves (.single (.own hstep)) (((pulls_pullCurrentOut c.now).balanced hfit.balanced).drained
        hout (Nat.min_le_right _ _))
    rw [consumeOut_apply hn hout, Proc.ite_apply]
    split
    · exact (maybeStartKex_follows _ hfit1.wellFormed).mono
        (fun _ _ hs => (Steps.eases hs hfit1).unstalled hdrained)
        fun _ _ hs => (Steps.eases hs hfit1).unstalled hdrained
    · exact hdrained

/-- Every call but `process_in` and `consume_out`. -/
theorem Call.run_unstalls (call : Call) (hfit : Fit c) (hu : Unstalled c.now)
    (hin : call ≠ .processIn) (hout : ∀ n, call ≠ .consumeOut n) :
    (call.run c).Sat (fun _ c' => Unstalled c'.now) (fun _ c' => Unstalled c'.now) := by
  by_cases hrecv : ∃ bytes, call = .recv bytes
  · obtain ⟨bytes, rfl⟩ := hrecv
    exact hu
  have hcalled := call.run_called c hfit.wellFormed hin fun bytes hb => hrecv ⟨bytes, hb⟩
  have heases : ∀ c', Called call c c' → Eases c c' := by
    intro c' hc
    refine hc.trail.eases (fun n hk => ?_) hfit
    rcases hk with hk | hk
    · exact hk
    · cases hk
      exact hout n rfl
  exact hcalled.mono (fun _ c' hc => (heases c' hc).unstalled hu)
    fun _ c' hc => (heases c' hc).unstalled hu

/-- The limits of the write buffer let something through. -/
def Setup.LimitsOpen : Setup → Prop
  | server cfg => 0 < cfg.writeBufSoft ∧ 0 < cfg.writeBufHard
  | client cfg => 0 < cfg.writeBufSoft ∧ 0 < cfg.writeBufHard

instance : DecidablePred Setup.LimitsOpen
  | .server cfg => inferInstanceAs (Decidable (0 < cfg.writeBufSoft ∧ 0 < cfg.writeBufHard))
  | .client cfg => inferInstanceAs (Decidable (0 < cfg.writeBufSoft ∧ 0 < cfg.writeBufHard))

/-- No channel has deferred data. -/
def Connection.Undeferred (c : Connection) : Prop :=
  ∀ id ch, c.channels.get? id = some ch → ch.pendingOut = []

/-- From `c` to `c'` data was deferred, where there was none. -/
structure Defers (c c' : Connection) : Prop where
  before : c.Undeferred
  after : ¬c'.Undeferred

namespace Setup

variable {setup : Setup} {rng : Rng} {calls : List Call}

theorem starts_fit (hlimits : setup.LimitsOpen) (h : Starts ⟨setup.blank rng, []⟩ c) : Fit c := by
  have hset := h.extends.settings
  have hch : c.now.channels = (setup.blank rng).channels := h.channels
  refine ⟨setup.starts_wellFormed h, ?_, (setup.blank_fifo rng).feeds h.feeds |>.balanced, ?_, ?_⟩
  · rw [hch]
    intro id ch hget
    cases setup <;> cases hget
  · rw [show c.now.writeSoft = (setup.blank rng).writeSoft from congrArg (·.writeSoft) hset]
    cases setup <;> exact hlimits.1
  · rw [show c.now.writeHard = (setup.blank rng).writeHard from congrArg (·.writeHard) hset]
    cases setup <;> exact hlimits.2

/-- With limits that let something through nothing comes to be stalled. -/
theorem unstalled_of_limitsOpen (hlimits : setup.LimitsOpen)
    (hrun : setup.run rng calls = .ok () c)
    (hdrain : ∀ pre n post c1, calls = pre ++ .consumeOut n :: post →
      setup.run rng pre = .ok () c1 → ¬Strands c1.now n)
    (hfail : ∀ pre post c1 e c2, calls = pre ++ .processIn :: post →
      setup.run rng pre = .ok () c1 → processIn c1 = .err e c2 → ¬Stirred c1 c2) :
    Unstalled c.now := by
  have hinv : (∃ out, Fifo setup.identLine out c) ∧ Fit c ∧ Unstalled c.now := by
    refine run_calls (I := fun c => (∃ out, Fifo setup.identLine out c) ∧ Fit c ∧ Unstalled c.now)
      (G := fun _ => True) ?_ ?_ hrun fun _ _ => trivial
    · intro c0 h0
      refine ⟨⟨[], (setup.blank_fifo rng).feeds h0.feeds⟩, starts_fit hlimits h0,
        fun id _ _ ch hget => ?_⟩
      rw [h0.channels] at hget
      cases setup <;> cases hget
    · rintro pre call post c1 c2 hcalls hpre hwf ⟨⟨out, hfifo⟩, hfit, hu⟩ hend -
      have hfifo2 := (hfifo.call call hwf).of_state hend
      have hmoves := (call.run_follows c1 hwf).of_state hend
      refine ⟨⟨_, hfifo2⟩, hfit.moves hmoves hfifo2.balanced, ?_⟩
      by_cases hin : call = .processIn
      · subst hin
        have hsat := processIn_unstalls hfit hu
        rcases Outcome.state?_eq_some hend with ⟨a, hok⟩ | ⟨e, herr⟩
        · exact hsat.of_ok hok
        · exact (hsat.of_err herr).resolve_right (hfail pre post c1 e c2 hcalls hpre herr)
      by_cases hout : ∃ n, call = .consumeOut n
      · obtain ⟨n, rfl⟩ := hout
        exact (consumeOut_unstalls hfit hu (hdrain pre n post c1 hcalls hpre)).of_state hend
      · exact (call.run_unstalls hfit hu hin fun n h => hout ⟨n, h⟩).of_state hend
  exact hinv.2.2

/-- A run in which no call is the first to defer data. -/
theorem undeferred_of_calls (hrun : setup.run rng calls = .ok () c)
    (hcalls : ∀ pre call post c1 c2, calls = pre ++ call :: post →
      setup.run rng pre = .ok () c1 → (call.run c1).state? = some c2 → ¬Defers c1.now c2.now) :
    c.now.Undeferred := by
  refine run_calls (I := fun c => c.now.Undeferred) (G := fun _ => True) ?_ ?_ hrun
    fun _ _ => trivial
  · intro c0 h0 id ch hch
    exact absurd hch h0.no_channel
  · intro pre call post c1 c2 hsplit hpre _ hu hend _
    by_contra hnot
    exact hcalls pre call post c1 c2 hsplit hpre hend ⟨hu, hnot⟩

/-- In a run in which the limits let something through where data is first
    deferred, `consume_out` never empties the queue before waiting data and
    `process_in` never fails after stirring some up, no data is left waiting
    with nothing to write. -/
theorem run_unstalled (hrun : setup.run rng calls = .ok () c)
    (hlimits : ∀ pre call post c1 c2, calls = pre ++ call :: post →
      setup.run rng pre = .ok () c1 → (call.run c1).state? = some c2 → Defers c1.now c2.now →
      setup.LimitsOpen)
    (hdrain : ∀ pre n post c1, calls = pre ++ .consumeOut n :: post →
      setup.run rng pre = .ok () c1 → ¬Strands c1.now n)
    (hfail : ∀ pre post c1 e c2, calls = pre ++ .processIn :: post →
      setup.run rng pre = .ok () c1 → processIn c1 = .err e c2 → ¬Stirred c1 c2)
    (hwrite : c.now.wantsWrite = false) (hgate : c.now.kexBlocksApp = false)
    {id : UInt32} {ch : Channel} (hch : c.now.channels.get? id = some ch)
    (hconfirmed : ch.openConfirmed = true) (hremote : ch.remoteId.isSome = true)
    (hwindow : 0 < ch.sendWindow) (hpacket : 0 < ch.maxRemotePacket) (hlive : ch.sentEof = false) :
    ch.pendingOut = [] := by
  by_cases hopen : setup.LimitsOpen
  · by_contra hne
    exact unstalled_of_limitsOpen hopen hrun hdrain hfail id hgate (held_nil_of_wantsWrite hwrite)
      ch hch ⟨hconfirmed, hremote, hwindow, hpacket, hlive, hne⟩
  · have hnone : c.now.Undeferred := undeferred_of_calls hrun fun pre call post c1 c2 hsplit hpre
      hend hd => hopen (hlimits pre call post c1 c2 hsplit hpre hend hd)
    exact hnone id ch hch

/-- A peer that starts an exchange, and a byte to send in the course of it. -/
def rekeyThenSend : List Call :=
  [.consumeOut 21, .recv (channelPeer 1000), .processIn, .confirmOpen 0,
    .recv (Toy.sealedPacket (Toy.kexinit ["curve25519-sha256"] serverCiphers)), .processIn,
    .sendData 0 [97]]

/-- The exchange goes on to its end, and the socket takes everything. -/
def rekeyThenDrain : List Call :=
  rekeyThenSend ++ .recv (Toy.sealedPacket (Msg.ecdhInit Toy.point) ++
    Toy.sealedPacket Msg.newkeys) :: .processIn :: List.replicate 8 (.consumeOut 1000)

/-- `f` passes before each of the calls and `last` after them, and none fails. -/
def passesAlong (f : Conn → Call → Bool) (last : Conn → Bool) : List Call → Conn → Bool
  | [], c => last c
  | call :: calls, c => f c call && (call.run c).passes (passesAlong f last calls)

section Along

variable {f : Conn → Call → Bool} {last : Conn → Bool} {call : Call} {calls pre post : List Call}

theorem passesAlong_cons (h : passesAlong f last (call :: calls) c = true) : f c call = true ∧
    ∃ c1, call.run c = .ok () c1 ∧ Proc.ignore call.run c = .ok () c1 ∧
      passesAlong f last calls c1 = true := by
  obtain ⟨hf, hrest⟩ := Bool.and_eq_true_iff.mp h
  obtain ⟨_, c1, hrun, hc1⟩ := Outcome.exists_of_passes hrest
  refine ⟨hf, c1, hrun, ?_, hc1⟩
  unfold Proc.ignore
  rw [hrun]

/-- The run gets through its first part, and passes from there on. -/
theorem passesAlong_append (h : passesAlong f last (pre ++ post) c = true) :
    ∃ c1, runCalls pre c = .ok () c1 ∧ passesAlong f last post c1 = true := by
  induction pre generalizing c with
  | nil => exact ⟨c, rfl, h⟩
  | cons first pre ih =>
    obtain ⟨-, c2, -, hfirst, hrest⟩ := passesAlong_cons h
    obtain ⟨c1, hrun, hpost⟩ := ih hrest
    refine ⟨c1, ?_, hpost⟩
    rw [runCalls, Proc.forEach, Proc.bind_of_ok hfirst]
    exact hrun

end Along

/-- No data waits behind an open gate, but some does when the exchange goes on. -/
def defersOnly (c : Conn) (call : Call) : Bool :=
  (c.now.kexBlocksApp || c.now.channels.slots.all fun s => s.all fun ch => ch.pendingOut.isEmpty) &&
    (decide (call ≠ .recv (Toy.sealedPacket (Msg.ecdhInit Toy.point) ++
        Toy.sealedPacket Msg.newkeys)) ||
      (c.now.channels.get? 0).any fun ch => decide (ch.pendingOut = [[97]]))

/-- Everything is written, and channel 0 may send 999 bytes more. -/
def drained (c : Conn) : Bool :=
  (!c.now.wantsWrite && !c.now.kexBlocksApp) && (c.now.channels.get? 0).any fun ch =>
    decide (ch.openConfirmed = true ∧ ch.remoteId.isSome = true ∧ ch.sendWindow = 999 ∧
      0 < ch.maxRemotePacket ∧ ch.sentEof = false)

omit [CryptoLib] in
theorem rekeyThenDrain_passes :
    (@Proc.ignore _ _ _ (@startKex Toy.lib) ⟨(Setup.server Toy.server).blank Toy.rng, []⟩).passes
      (@passesAlong Toy.lib defersOnly drained rekeyThenDrain) = true := by
  decide +kernel

omit [CryptoLib] in
/-- At the default limits a byte is deferred, flushed when the exchange is over,
    and drained. -/
theorem run_unstalled_rekeyThenDrain : ∃ c1 ch1 c ch,
    @Setup.run Toy.lib (.server Toy.server) Toy.rng rekeyThenSend = .ok () c1 ∧
      c1.now.channels.get? 0 = some ch1 ∧ ch1.pendingOut = [[97]] ∧
      @Setup.run Toy.lib (.server Toy.server) Toy.rng rekeyThenDrain = .ok () c ∧
      c.now.channels.get? 0 = some ch ∧ ch.sendWindow = 999 ∧ ch.pendingOut = [] := by
  let _ := Toy.lib
  obtain ⟨_, c0, hstart, halong⟩ := Outcome.exists_of_passes rekeyThenDrain_passes
  have hrun : ∀ calls c1, (Setup.server Toy.server).run Toy.rng calls = .ok () c1 ↔
      runCalls calls c0 = .ok () c1 := by
    intro calls c1
    unfold Setup.run
    rw [Proc.bind_of_ok hstart]
  have hat : ∀ {pre post : List Call} {call : Call} {c1 : Conn},
      rekeyThenDrain = pre ++ call :: post →
      (Setup.server Toy.server).run Toy.rng pre = .ok () c1 →
      defersOnly c1 call = true ∧ ∃ c2, call.run c1 = .ok () c2 := by
    intro pre post call c1 hsplit hpre
    rw [hsplit] at halong
    obtain ⟨c2, hpre2, hrest⟩ := passesAlong_append halong
    cases ((hrun pre c1).mp hpre).symm.trans hpre2
    obtain ⟨hf, c3, hcall, -⟩ := passesAlong_cons hrest
    exact ⟨hf, c3, hcall⟩
  obtain ⟨c1, hpre, hrest⟩ := passesAlong_append halong
  obtain ⟨hdeferred, -⟩ := passesAlong_cons hrest
  obtain ⟨ch1, hch1, hp1⟩ := (Option.any_eq_true _ _).mp
    ((Bool.or_eq_true_iff.mp (Bool.and_eq_true_iff.mp hdeferred).2).resolve_left (by decide))
  rw [← List.append_nil rekeyThenDrain] at halong
  obtain ⟨c, hall, hdrained⟩ := passesAlong_append halong
  obtain ⟨hopen, hready⟩ := Bool.and_eq_true_iff.mp hdrained
  obtain ⟨hwrite, hgate⟩ := Bool.and_eq_true_iff.mp hopen
  obtain ⟨ch, hch, hready⟩ := (Option.any_eq_true _ _).mp hready
  obtain ⟨hconfirmed, hremote, hwindow, hpacket, hlive⟩ := of_decide_eq_true hready
  refine ⟨c1, ch1, c, ch, (hrun _ _).mpr hpre, hch1, of_decide_eq_true hp1, (hrun _ _).mpr hall,
    hch, hwindow, run_unstalled ((hrun _ _).mpr hall) (fun _ _ _ _ _ _ _ _ _ => by decide) ?_ ?_
      (by simpa using hwrite) (by simpa using hgate) hch hconfirmed hremote
      (by rw [hwindow]; decide) hpacket hlive⟩
  · rintro pre n post c2 hsplit hrun2 ⟨-, hopen, id, ch2, hch2, hw⟩
    have hcalm := (Bool.and_eq_true_iff.mp (hat hsplit hrun2).1).1
    rw [hopen, Bool.false_or, List.all_eq_true] at hcalm
    have hslot := hcalm (some ch2) (List.mem_of_getElem? (Option.join_eq_some_iff.mp hch2))
    exact hw.pending (List.isEmpty_iff.mp hslot)
  · intro pre post c2 e c3 hsplit hrun2 herr
    obtain ⟨-, c4, hcall⟩ := hat hsplit hrun2
    cases hcall.symm.trans herr

omit [CryptoLib] in
/-- The flush at the end of the exchange stops at the soft limit; then the socket
    takes everything, and the byte is left. -/
theorem drained_before_deferred : ¬∀ (lib : CryptoLib) (setup : Setup) (rng : Rng)
    (calls : List Call) (c : Conn) (id : UInt32) (ch : Channel),
    @Setup.run lib setup rng calls = .ok () c → c.now.wantsWrite = false →
    c.now.kexBlocksApp = false → c.now.channels.get? id = some ch → ch.openConfirmed = true →
    ch.remoteId.isSome = true → 0 < ch.sendWindow → 0 < ch.maxRemotePacket →
    ch.sentEof = false → ch.pendingOut = [] := by
  intro hclaim
  have hpass : (@Setup.run Toy.lib (.server { Toy.server with writeBufSoft := 100 }) Toy.rng
      rekeyThenDrain).passes (fun c => (!c.now.wantsWrite && !c.now.kexBlocksApp) &&
        (c.now.channels.get? 0).any fun ch => decide (ch.openConfirmed = true ∧
          ch.remoteId.isSome = true ∧ 0 < ch.sendWindow ∧ 0 < ch.maxRemotePacket ∧
          ch.sentEof = false ∧ ch.pendingOut = [[97]])) = true := by
    decide +kernel
  obtain ⟨_, c, hrun, hc⟩ := Outcome.exists_of_passes hpass
  rw [Bool.and_eq_true, Bool.and_eq_true, Option.any_eq_true] at hc
  obtain ⟨⟨hwrite, hgate⟩, ch, hch, hready⟩ := hc
  obtain ⟨h1, h2, h3, h4, h5, hp⟩ := of_decide_eq_true hready
  have hnil := hclaim _ _ _ _ c 0 ch hrun (by simpa using hwrite) (by simpa using hgate) hch
    h1 h2 h3 h4 h5
  rw [hp] at hnil
  cases hnil

end Setup

end Ssproxy
