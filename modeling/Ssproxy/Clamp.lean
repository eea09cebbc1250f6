/-
  Ssproxy.Clamp

  How long the data packets are.  Each carries no more than the peer takes at
  once and in all, and `send_window` goes down by what it carries.  One packet
  is empty in just one case: the peer takes no bytes at once.
-/

import Ssproxy.Lives
import Ssproxy.Outflow
import Ssproxy.Stall

namespace Ssproxy

open Lib Wire Connection Relation

variable {id : UInt32} {x b : Connection} {k : Cause} {ch ch' : Channel} {new : List Obs}
  {owner : Option UInt32} {p w : Bytes} {c c' : Conn}

-- ============================================================================
-- One packet
-- ============================================================================

/-- A data packet and its channel, before and after: `data` is within both
    limits of the peer, it is deducted from the window, and it is empty only
    where the peer takes no bytes at once but some are waiting. -/
structure Clamped (ch : Channel) (data : Bytes) (ch' : Channel) : Prop where
  atOnce : data.length ≤ ch.maxRemotePacket.toNat
  inAll : data.length ≤ ch.sendWindow.toNat
  deducted : ch'.sendWindow.toNat + data.length = ch.sendWindow.toNat
  filled : data ≠ [] ↔ ch.maxRemotePacket ≠ 0
  deferred : data = [] → ch.pendingOut ≠ []

theorem toNat_sub_length {window : UInt32} {n : Nat} (h : n ≤ window.toNat) :
    (window - UInt32.ofNat n).toNat + n = window.toNat := by
  have hlt := window.toNat_lt
  have hn : (UInt32.ofNat n).toNat = n := by
    rw [UInt32.toNat_ofNat', Nat.mod_eq_of_lt (by omega)]
  have hle : UInt32.ofNat n ≤ window := by
    rw [UInt32.le_iff_toNat_le, hn]
    exact h
  rw [UInt32.toNat_sub_of_le _ _ hle, hn]
  omega

/-- `send_data` sends what the allowance covers. -/
theorem clamped_wire {chunk : Bytes} (hne : chunk ≠ [])
    (hallow : chunk.length ≤ ch.outboundAllowance) :
    Clamped ch chunk { ch with sendWindow := ch.sendWindow - UInt32.ofNat chunk.length } := by
  have hpos : 0 < chunk.length := List.length_pos_iff.mpr hne
  have hmin : chunk.length ≤ min ch.sendWindow.toNat ch.maxRemotePacket.toNat := by
    unfold Channel.outboundAllowance at hallow
    split at hallow
    · omega
    · exact hallow
  refine ⟨by omega, by omega, toNat_sub_length (by omega), ⟨fun _ hzero => ?_, fun _ => hne⟩,
    fun hnil => absurd hnil hne⟩
  rw [hzero, UInt32.toNat_zero] at hmin
  omega

/-- `flush_pending` cuts its chunk to the limits. -/
theorem clamped_flush {r : UInt32} {front : Bytes} {queue : List Bytes} (hcan : CanFlush x ch r)
    (hq : ch.pendingOut = front :: queue) (hne : front ≠ []) :
    Clamped ch (front.take (flushTake ch front)) (flushed ch front queue (flushTake ch front)) := by
  have hpos : 0 < front.length := List.length_pos_iff.mpr hne
  have hwindow : 0 < ch.sendWindow.toNat := by
    refine Nat.pos_of_ne_zero fun hzero => hcan.window ?_
    exact UInt32.toNat_inj.mp hzero
  have hlen : (front.take (flushTake ch front)).length
      = min (min front.length ch.maxRemotePacket.toNat) ch.sendWindow.toNat := by
    rw [List.length_take, flushTake]
    omega
  refine ⟨by omega, by omega, toNat_sub_length (by omega), ?_, fun _ => ?_⟩
  · rw [← List.length_pos_iff, hlen, Ne, ← UInt32.toNat_inj, UInt32.toNat_zero]
    omega
  · rw [hq]
    exact List.cons_ne_nil _ _

/-- Only `send_data` and `flush_pending` send data. -/
theorem Act.clamped (h : Act id x ch k ch' new) (hmem : Obs.queued b (some id) p w ∈ new)
    (hp : IsMsg .channelData p) : ∃ r data, ch.remoteId = some r ∧ p = Msg.channelData r data ∧
      new = [.queued b (some id) p w] ∧ Clamped ch data ch' := by
  -- a message that is no CHANNEL_DATA
  have hother : ∀ {m : MsgType} {rest : Bytes} {P : Prop}, m ≠ .channelData →
      p = m.code :: rest → P := by
    rintro m rest P hm rfl
    exact absurd hp (not_isMsg_cons hm)
  cases h with
  | wire hne hallow hgate hr =>
    cases List.mem_singleton.mp hmem
    exact ⟨_, _, hr, rfl, rfl, clamped_wire hne hallow⟩
  | flush hcan hq hne =>
    cases List.mem_singleton.mp hmem
    exact ⟨_, _, hcan.remote, rfl, rfl, clamped_flush hcan hq hne⟩
  | closeNow hgate hc hw hr =>
    rcases List.mem_cons.mp hmem with hmem | hmem
    · cases hmem
    · cases List.mem_singleton.mp hmem
      exact hother (m := .channelClose) (by decide) rfl
  | emitEof hgate he hw hr =>
    cases List.mem_singleton.mp hmem
    exact hother (m := .channelEof) (by decide) rfl
  | emitClose hgate hc hw hr =>
    cases List.mem_singleton.mp hmem
    exact hother (m := .channelClose) (by decide) rfl
  | grant hgate hadd hpos hr =>
    cases List.mem_singleton.mp hmem
    exact hother (m := .channelWindowAdjust) (by decide) rfl
  | confirm hr =>
    cases List.mem_singleton.mp hmem
    exact hother (m := .channelOpenConfirmation) (by decide) rfl
  | reply hm hwant hr ht hb =>
    rcases List.mem_cons.mp hmem with hmem | hmem
    · cases hmem
    · cases List.mem_singleton.mp hmem
      rcases ht with rfl | rfl
      · exact hother (m := .channelSuccess) (by decide) rfl
      · exact hother (m := .channelFailure) (by decide) rfl
  | _ => simp at hmem

theorem Fresh.no_data (h : Fresh id x k ch new) (hmem : Obs.queued b (some id) p w ∈ new) :
    ¬IsMsg .channelData p := by
  cases h with
  | peer hm hev => simp at hmem
  | here hrole hnew =>
    rcases List.mem_cons.mp hmem with hmem | hmem
    · cases hmem
    · obtain ⟨_, _, heq⟩ := hnew _ hmem
      cases heq
      exact not_isMsg_cons (m := .channelOpen) (by decide)

theorem Leaves.no_data (h : Leaves id x ch k new) (hmem : Obs.queued b (some id) p w ∈ new) :
    ¬IsMsg .channelData p := by
  cases h with
  | closed hg hw => simp at hmem
  | refused hm => simp at hmem
  | failed hr hnew =>
    rcases List.mem_cons.mp hmem with hmem | hmem
    · cases hmem
    · obtain ⟨_, _, heq⟩ := hnew _ hmem
      cases heq
      exact not_isMsg_cons (m := .channelOpenFailure) (by decide)

/-- A step in which a data packet of slot `id` is queued sends nothing else. -/
theorem SlotStep.clamped (h : SlotStep id k c c') (hlog : c'.log = c.log ++ new)
    (hmem : Obs.queued b (some id) p w ∈ new) (hp : IsMsg .channelData p) :
    ∃ ch ch' r data, c.now.channels.get? id = some ch ∧ c'.now.channels.get? id = some ch' ∧
      ch.remoteId = some r ∧ p = Msg.channelData r data ∧ new = [.queued b (some id) p w] ∧
      Clamped ch data ch' := by
  have hsame : ∀ {new'}, c'.log = c.log ++ new' → new' = new :=
    fun hl => List.append_cancel_left (hl.symm.trans hlog)
  cases h with
  | idle hget hl hnew =>
    rw [← hsame hl] at hmem
    exact absurd rfl (hnew _ hmem)
  | act hch hch' ha hl =>
    obtain rfl := hsame hl
    obtain ⟨r, data, hr, hdata, hone, hclamped⟩ := ha.clamped hmem hp
    exact ⟨_, _, r, data, hch, hch', hr, hdata, hone, hclamped⟩
  | enter hch' hf hl =>
    rw [← hsame hl] at hmem
    exact absurd hp (hf.no_data hmem)
  | leave hch hnone hleave hl =>
    rw [← hsame hl] at hmem
    exact absurd hp (hleave.no_data hmem)

-- ============================================================================
-- Every packet
-- ============================================================================

/-- Lists that begin alike: the element behind `pre` belongs to what came to
    `l`, if `l` ends before it and `l ++ new` does not. -/
theorem mem_of_straddle {ω : Type} {l new pre post : List ω} {o : ω}
    (h : l ++ new <+: pre ++ o :: post) (hl : l.length ≤ pre.length)
    (hlen : pre.length < (l ++ new).length) : o ∈ new := by
  have hget : (l ++ new)[pre.length]? = some o := by
    obtain ⟨rest, hrest⟩ := h
    have hleft := (List.getElem?_append_left hlen : (_ ++ rest)[_]? = _)
    rw [← hleft, hrest]
    simp
  rw [List.getElem?_append_right hl] at hget
  exact List.mem_of_getElem? hget

variable [CryptoLib]

/-- A run, seen from slot `id`. -/
theorem Setup.Reaches.slots {setup : Setup} (h : setup.Reaches c) (id : UInt32) :
    ∃ rng c0, Starts ⟨setup.blank rng, []⟩ c0 ∧ SlotSteps id (fun _ => True) c0 c := by
  obtain ⟨rng, c0, hstart, hmoves⟩ := h
  refine ⟨rng, c0, hstart, ?_⟩
  induction hmoves with
  | refl => exact .refl
  | tail hpre hlast ih =>
    exact ih.trans (hlast.slots (Moves.wellFormed hpre (setup.starts_wellFormed hstart)).table)

/-- A packet of a run was queued in one step of its slot, and that step follows
    from the constructor and leads on to the present state. -/
theorem Setup.Reaches.data_step {setup : Setup} {pre post : List Obs} (h : setup.Reaches c)
    (hlog : c.log = pre ++ .queued b owner p w :: post) (hp : IsMsg .channelData p) :
    ∃ id rng c0 k c1 c2 ch ch' r data, owner = some id ∧ Starts ⟨setup.blank rng, []⟩ c0 ∧
      SlotSteps id (fun _ => True) c0 c1 ∧ SlotStep id k c1 c2 ∧
      SlotSteps id (fun _ => True) c2 c ∧
      c1.log = pre ∧ c2.log = pre ++ [.queued b owner p w] ∧
      c1.now.channels.get? id = some ch ∧ c2.now.channels.get? id = some ch' ∧
      ch.remoteId = some r ∧ p = Msg.channelData r data ∧ Clamped ch data ch' := by
  have hmem : Obs.queued b owner p w ∈ c.log := by
    rw [hlog]
    exact List.mem_append_right _ List.mem_cons_self
  obtain ⟨r, hr⟩ : ∃ r, p = MsgType.channelData.code :: r := List.head?_eq_some_iff.mp hp
  obtain ⟨id, rfl⟩ := h.owned hmem (by rw [hr]; exact Option.some_ne_none StreamPacket.data)
  obtain ⟨rng, c0, hstart, hslots⟩ := h.slots id
  have hfresh : ¬pre.length < c0.log.length := by
    intro hlt
    have hpre : [] ++ c0.log <+: pre ++ .queued b (some id) p w :: post := hlog ▸ hslots.log
    have hold := mem_of_straddle hpre (Nat.zero_le _) hlt
    have hstarts : Adds (fun b owner p => IsMsg .kexinit p) [] c0.log :=
      hstart.adds fun b p _ hm => hm
    rcases hstarts b (some id) p w hold with hold | hm
    · cases hold
    · exact absurd (hm.unique hp) (by decide)
  have hpast : pre.length < c.log.length := by
    rw [hlog, List.length_append, List.length_cons]
    omega
  obtain ⟨c1, c2, hto, hbefore, ⟨k, -, hs⟩, hafter, hfrom⟩ :=
    @exists_step Conn _ (fun c => pre.length < c.log.length) _ _ hslots hfresh hpast
  obtain ⟨new, hnew⟩ := hs.log
  have hprefix : c1.log ++ new <+: pre ++ .queued b (some id) p w :: post :=
    hnew ▸ hlog ▸ SlotSteps.log hfrom
  have hin := mem_of_straddle hprefix (Nat.le_of_not_lt hbefore) (hnew ▸ hafter)
  obtain ⟨ch, ch', r, data, hch, hch', hremote, hdata, rfl, hclamped⟩ :=
    hs.clamped hnew.symm hin hp
  have hpre : c1.log = pre := by
    obtain ⟨rest, hrest⟩ := hprefix
    rw [List.append_assoc] at hrest
    refine (List.append_inj hrest ?_).1
    rw [← hnew, List.length_append, List.length_singleton] at hafter
    omega
  exact ⟨id, rng, c0, k, c1, c2, ch, ch', r, data, rfl, hstart, hto, hs, hfrom, hpre,
    hpre ▸ hnew.symm, hch, hch', hremote, hdata, hclamped⟩

-- ============================================================================
-- When no packet is empty
-- ============================================================================

/-- No data waits for a peer that takes no bytes at once. -/
def Thrifty (ch : Channel) : Prop :=
  ch.remoteId.isSome = true → ch.maxRemotePacket = 0 → ch.pendingOut = []

/-- An OPEN_CONFIRMATION that announces a maximum packet size of zero. -/
def ConfirmsZero (id : UInt32) (p : Bytes) : Prop :=
  ∃ remote w, MsgType.channelOpenConfirmation.code ::
    (putU32 id ++ putU32 remote ++ putU32 w ++ putU32 0) <+: p

/-- Not such a message for a channel with data waiting. -/
def Obs.Nourishes : Obs → Prop
  | handled before p => ∀ id ch, before.channels.get? id = some ch → ch.pendingOut ≠ [] →
      ¬ConfirmsZero id p
  | _ => True

/-- No data waits in vain on slot `id`, and no packet of it was empty. -/
structure Filled (id : UInt32) (c : Conn) : Prop where
  thrifty : ∀ ch, c.now.channels.get? id = some ch → Thrifty ch
  packets : ∀ b p w, Obs.queued b (some id) p w ∈ c.log → IsMsg .channelData p →
    ∃ r data, p = Msg.channelData r data ∧ data ≠ []

/-- The peer of slot `id` takes bytes, if it is known. -/
def TakesBytes (id : UInt32) (c : Connection) : Prop :=
  ∀ ch, c.channels.get? id = some ch → ch.remoteId.isSome = true → ch.maxRemotePacket ≠ 0

omit [CryptoLib] in
/-- An act keeps the data thrifty, if it does not defer for a peer that takes
    nothing and no confirmation announces zero. -/
theorem Act.thrifty (h : Act id x ch k ch' new) (hch : x.channels.get? id = some ch)
    (hk : (∀ data, k ≠ .call (.sendData id data)) ∨ TakesBytes id x) (hnew : ∀ o ∈ new, o.Nourishes)
    (ht : Thrifty ch) : Thrifty ch' := by
  cases h with
  | defer hne hroom hgate =>
    rcases hk with hk | htakes
    · exact absurd rfl (hk _)
    · exact fun hr hzero => absurd hzero (htakes ch hch hr)
  | flush hcan hp hne =>
    intro hr hzero
    rw [ht hr hzero] at hp
    cases hp
  | flushLost hcan hp hne hlimits =>
    intro hr hzero
    rw [ht hr hzero] at hp
    cases hp
  | @peerConfirm p remote w m hm =>
    intro hr hzero
    by_contra hpending
    have hnot : (Obs.handled x p).Nourishes := hnew _ List.mem_cons_self
    exact hnot id ch hch hpending ⟨remote, w, hzero ▸ hm⟩
  | _ => exact ht

omit [CryptoLib] in
theorem Filled.step (h : Filled id c) (hs : SlotStep id k c c')
    (hk : (∀ data, k ≠ .call (.sendData id data)) ∨ TakesBytes id c.now) (hG : ∀ o ∈ c'.log, o.Nourishes) :
    Filled id c' := by
  obtain ⟨new, hlog⟩ := hs.log
  refine ⟨?_, fun b p w hmem hp => ?_⟩
  · cases hs with
    | idle hget hl hnew => exact fun ch hch => h.thrifty ch (hget ▸ hch)
    | act hch hch1 ha hl =>
      intro ch hch'
      cases hch1.symm.trans hch'
      refine ha.thrifty hch hk (fun o ho => hG o ?_) (h.thrifty _ hch)
      rw [hl]
      exact List.mem_append_right _ ho
    | enter hch1 hf hl =>
      intro ch hch'
      cases hch1.symm.trans hch'
      intro _ _
      cases hf <;> rfl
    | leave hch hnone hl hlog =>
      intro ch hch'
      cases hnone.symm.trans hch'
  · rw [← hlog] at hmem
    rcases List.mem_append.mp hmem with hold | hmem
    · exact h.packets b p w hold hp
    · obtain ⟨ch, ch', r, data, hch, -, hr, hdata, hone, hclamped⟩ :=
        hs.clamped hlog.symm hmem hp
      refine ⟨r, data, hdata, fun hnil => ?_⟩
      have hzero : ch.maxRemotePacket = 0 := by
        by_contra hmax
        exact hclamped.filled.mpr hmax hnil
      exact hclamped.deferred hnil (h.thrifty ch hch (by rw [hr]; rfl) hzero)

omit [CryptoLib] in
/-- A round of `send_data` for a peer that takes bytes. -/
theorem Filled.round {ch1 : Channel} (h : Filled id c) (htakes : TakesBytes id c.now)
    (hch : c.now.channels.get? id = some ch)
    (ha : Act id c.now ch (.call (.sendData id [])) ch1 new)
    (hset : c'.now.channels = c.now.channels.set id ch1) (hlog : c'.log = c.log ++ new)
    (hr : ch1.remoteId = ch.remoteId) (hmax : ch1.maxRemotePacket = ch.maxRemotePacket)
    (hG : ∀ o ∈ c'.log, o.Nourishes) : Filled id c' ∧ TakesBytes id c'.now := by
  refine ⟨h.step (ha.slot hch hset hlog) (.inr htakes) hG, fun ch2 hch2 => ?_⟩
  rw [hset, ChannelTable.get?_set_self hch] at hch2
  cases hch2
  rw [hr, hmax]
  exact htakes ch hch

/-- The rounds of `send_data` for a peer that takes bytes. -/
theorem SendsData.filled {chunks : List Bytes} (h : SendsData id c chunks c')
    (htakes : chunks ≠ [] → TakesBytes id c.now) (hfilled : Filled id c)
    (hG : ∀ o ∈ c'.log, o.Nourishes) : Filled id c' := by
  induction h with
  | done c => exact hfilled
  | @defer c c' ch chunk chunks hch hne hallow hgate htail ih =>
    obtain ⟨more, hmore, -⟩ := htail.extends.log
    have hround : ∀ {c1 : Conn}, c1 = withChannel c id { ch with
        pendingOutBytes := ch.pendingOutBytes + chunk.length
        pendingOut := ch.pendingOut ++ [chunk] } → (∀ o ∈ c1.log, o.Nourishes) →
        Filled id c1 ∧ TakesBytes id c1.now := by
      rintro c1 rfl hG1
      exact hfilled.round (htakes (List.cons_ne_nil _ _)) hch
        (.defer hne (outboundAllowance_room hch hne hallow) hgate) rfl
        (List.append_nil _).symm rfl rfl hG1
    obtain ⟨h1, htakes1⟩ := hround rfl fun o ho => hG o (by
      rw [hmore]
      exact List.mem_append_left _ ho)
    exact ih (fun _ => htakes1) h1 hG
  | wire hch hne hallow hgate hr hq htail ih =>
    obtain ⟨w, hlog⟩ := hq.log
    obtain ⟨more, hmore, -⟩ := htail.extends.log
    obtain ⟨h1, htakes1⟩ := hfilled.round (htakes (List.cons_ne_nil _ _)) hch
      (.wire hne (outboundAllowance_open hch hgate hallow) hgate hr) hq.channels hlog rfl rfl
      fun o ho => hG o (by
        rw [hmore]
        exact List.mem_append_left _ ho)
    exact ih (fun _ => htakes1) h1 hG

/-- `send_data` may be called: it would take nothing, or the peer takes bytes. -/
def MaySend (c : Connection) (id : UInt32) (data : Bytes) : Prop :=
  data = [] ∨ c.outboundAllowance id = 0 ∨ TakesBytes id c

/-- A call of `send_data` that may be made. -/
theorem Filled.sendData {data : Bytes} (h : Filled id c) (hmay : MaySend c.now id data)
    (hend : ((Call.sendData id data).run c).state? = some c') (hG : ∀ o ∈ c'.log, o.Nourishes) :
    Filled id c' := by
  -- the rounds of the call take bytes only if the peer does
  have hfirst : ∀ {chunks c1}, SendsData id c chunks c1 → data ≠ [] → chunks ≠ [] →
      TakesBytes id c.now := by
    intro chunks c1 hs hne hchunks
    rcases hmay with hnil | hnone | htakes
    · exact absurd hnil hne
    · cases hs with
      | done => exact absurd rfl hchunks
      | defer hch hne hallow hgate htail =>
        have := List.length_pos_iff.mpr hne
        omega
      | wire hch hne hallow hgate hr hq htail =>
        have := List.length_pos_iff.mpr hne
        omega
    · exact htakes
  by_cases hnil : data = []
  · subst hnil
    have hrun : (Call.sendData id []).run c = .ok () ⟨c.now, c.log ++ [.accepted c.now id [] 0]⟩ :=
      rfl
    rw [hrun] at hend
    cases hend
    have hskirts : Skirts id c ⟨c.now, c.log ++ [.accepted c.now id [] 0]⟩ := .note rfl trivial
    exact h.step hskirts.step (k := .own) (.inl fun _ => by simp) hG
  have hsat := sendData_sat id data c
  rw [show (Call.sendData id data).run c = sendDataNoted id data c from rfl] at hend
  unfold sendDataNoted at hend
  rw [Proc.bind_of_ok (Traced.read_apply c), Proc.bind_apply] at hend
  cases hsend : Connection.sendData id data c with
  | panic => exact absurd hsend hsat.ne_panic
  | ok n c1 =>
    obtain ⟨⟨chunks, hs, -⟩, -⟩ := hsat.of_ok hsend
    rw [hsend] at hend
    cases hend
    have hskirts : Skirts id c1 ⟨c1.now, c1.log ++ [.accepted c.now id data n]⟩ :=
      .note rfl trivial
    refine Filled.step ?_ hskirts.step (k := .own) (.inl fun _ => by simp) hG
    exact hs.filled (hfirst hs hnil) h fun o ho => hG o (List.mem_append_left _ ho)
  | err e c1 =>
    obtain ⟨chunks, c2, hs, hlost⟩ := hsat.of_err hsend
    obtain ⟨ch, n, r, rng, hch, -, -, -, -, -, hc1⟩ := hlost
    rw [hsend] at hend
    obtain rfl : c' = c1 := (Option.some.inj hend).symm
    have h2 : Filled id c2 := by
      refine hs.filled (hfirst hs hnil) h fun o ho => hG o ?_
      rw [hc1]
      exact ho
    refine ⟨fun ch' hch' => ?_, ?_⟩
    · have hput : c'.now.channels.get? id
          = some { ch with sendWindow := ch.sendWindow - UInt32.ofNat n } := by
        rw [hc1]
        exact ChannelTable.get?_set_self hch
      cases hput.symm.trans hch'
      exact h2.thrifty ch hch
    · rw [hc1]
      exact h2.packets

namespace Setup

variable {setup : Setup} {rng : Rng} {calls : List Call}

/-- In every run, each data packet is cut to the limits that the peer announced,
    as they stood in the step in which it was queued, and deducted from the
    window; it is empty just where the peer takes no bytes at once.  No packet
    is empty in a run in which `send_data` is not called for such a peer, nor
    the limit set to zero while data waits. -/
theorem run_clamped (hrun : setup.run rng calls = .ok () c) :
    (∀ pre post b owner p w, c.log = pre ++ .queued b owner p w :: post → IsMsg .channelData p →
      ∃ id rng c0 k c1 c2 ch ch' r data, owner = some id ∧ Starts ⟨setup.blank rng, []⟩ c0 ∧
        SlotSteps id (fun _ => True) c0 c1 ∧ SlotStep id k c1 c2 ∧
        SlotSteps id (fun _ => True) c2 c ∧
        c1.log = pre ∧ c2.log = pre ++ [.queued b owner p w] ∧
        c1.now.channels.get? id = some ch ∧ c2.now.channels.get? id = some ch' ∧
        ch.remoteId = some r ∧ p = Msg.channelData r data ∧ Clamped ch data ch') ∧
    ((∀ pre id data post c1, calls = pre ++ .sendData id data :: post →
        setup.run rng pre = .ok () c1 → MaySend c1.now id data) →
      (∀ o ∈ c.log, o.Nourishes) →
      ∀ b owner p w, Obs.queued b owner p w ∈ c.log → IsMsg .channelData p →
        ∃ r data, p = Msg.channelData r data ∧ data ≠ []) := by
  have hreach : setup.Reaches c := Reaches.of_run hrun
  refine ⟨fun pre post b owner p w hlog hp => hreach.data_step hlog hp, ?_⟩
  intro hsend hnourish b owner p w hmem hp
  obtain ⟨r, hr⟩ : ∃ r, p = MsgType.channelData.code :: r := List.head?_eq_some_iff.mp hp
  obtain ⟨id, rfl⟩ := hreach.owned hmem (by rw [hr]; exact Option.some_ne_none StreamPacket.data)
  have hfilled : Filled id c := by
    refine run_calls (G := Obs.Nourishes) ?_ ?_ hrun hnourish
    · intro c0 hstart
      refine ⟨fun ch hch => ?_, fun b p w hmem hp => ?_⟩
      · rw [hstart.channels] at hch
        cases setup <;> cases hch
      · have hstarts : Adds (fun b owner p => IsMsg .kexinit p) [] c0.log :=
          hstart.adds fun b p _ hm => hm
        rcases hstarts b (some id) p w hmem with hold | hm
        · cases hold
        · exact absurd (hm.unique hp) (by decide)
    · intro pre call post c1 c2 hcalls hpre hwf hI hend hG
      by_cases hcall : ∃ data, call = .sendData id data
      · obtain ⟨data, rfl⟩ := hcall
        exact hI.sendData (hsend pre id data post c1 hcalls hpre) hend hG
      · have hslots : SlotSteps id (fun k => k.Inner ∨ k = .call call) c1 c2 :=
          call.run_slots hwf hend
        refine hslots.invariant (G := Obs.Nourishes) ?_ hI hG
        intro k c3 c4 hk hI hs hG
        refine hI.step hs (.inl fun data hdata => ?_) hG
        subst hdata
        rcases hk with hk | hk
        · exact hk
        · cases hk
          exact hcall ⟨data, rfl⟩
  exact hfilled.packets b p w hmem hp

/-- A byte sent to a peer that takes a thousand at once. -/
def sendOne : List Call :=
  [.recv (plainPeer 1000 1000), .processIn, .confirmOpen 0, .sendData 0 [97]]

omit [CryptoLib] in
theorem run_clamped_sendOne : ∃ c, @Setup.run Toy.lib (.server Toy.server) Toy.rng sendOne
      = .ok () c ∧ ∃ b w r data, Obs.queued b (some 0) (Msg.channelData r data) w ∈ c.log ∧
      data ≠ [] := by
  have hpass : (@Setup.run Toy.lib (.server Toy.server) Toy.rng sendOne).passes (fun c =>
      c.log.any (Obs.someQueued fun _ owner p => owner = some 0 ∧ IsMsg .channelData p) &&
      c.log.all (Obs.everyHandled fun _ p => !decide (IsMsg .channelOpenConfirmation p)))
      = true := by
    decide +kernel
  have htakes : (@Setup.run Toy.lib (.server Toy.server) Toy.rng (sendOne.take 3)).passes
      (fun c => (c.now.channels.get? 0).all fun ch => decide (ch.maxRemotePacket ≠ 0)) = true := by
    decide +kernel
  obtain ⟨_, c, hrun, hc⟩ := Outcome.exists_of_passes hpass
  rw [Bool.and_eq_true, List.any_eq_true, List.all_eq_true] at hc
  obtain ⟨⟨o, ho, hdata⟩, hhandled⟩ := hc
  have hsend : ∀ pre id data post c1, sendOne = pre ++ .sendData id data :: post →
      @Setup.run Toy.lib (.server Toy.server) Toy.rng pre = .ok () c1 →
      MaySend c1.now id data := by
    intro pre id data post c1 hcalls hpre
    obtain ⟨rfl, rfl⟩ : pre = sendOne.take 3 ∧ id = 0 := by
      simp [sendOne, List.cons_eq_append_iff] at hcalls
      simp [sendOne, hcalls]
    rw [hpre] at htakes
    exact .inr (.inr fun ch hch _ => of_decide_eq_true (Option.all_eq_true _ _ |>.mp htakes ch hch))
  have hnourish : ∀ o ∈ c.log, o.Nourishes := by
    intro o ho
    cases o with
    | handled before p =>
      rintro id ch - - ⟨remote, w, hm⟩
      have hnot := hhandled _ ho
      obtain ⟨rest, rfl⟩ := hm
      cases hnot
    | _ => trivial
  cases o with
  | queued b owner p w =>
    obtain ⟨rfl, hp⟩ := of_decide_eq_true hdata
    obtain ⟨-, hfull⟩ := @run_clamped c Toy.lib _ _ _ hrun
    obtain ⟨r, data, rfl, hne⟩ := hfull hsend hnourish b (some 0) p w ho hp
    exact ⟨c, hrun, b, w, r, data, ho, hne⟩
  | _ => cases hdata

/-- A peer that takes no bytes at once, and completes the first key exchange. -/
def stingyPeer : Bytes :=
  Toy.identLine ++ Toy.clearPacket Msg.userauthSuccess
    ++ Toy.clearPacket (MsgType.channelOpen.code ::
      (putStr "session" ++ putU32 5 ++ putU32 1000 ++ putU32 0))
    ++ Toy.clearPacket (Toy.kexinit ["curve25519-sha256"] serverCiphers)
    ++ Toy.clearPacket (Msg.ecdhInit Toy.point) ++ Toy.clearPacket Msg.newkeys

/-- A byte deferred for it during the second exchange, and credit for it once
    the gate is open. -/
def deferForNobody : List Call :=
  [.recv stingyPeer, .processIn, .confirmOpen 0, .consumeOut 21, .sendData 0 [97],
    .recv (Toy.sealedPacket Msg.userauthSuccess ++ Toy.sealedPacket (Msg.windowAdjust 0 1)),
    .processIn]

omit [CryptoLib] in
/-- The round of `flush_pending` sends an empty packet and takes nothing off the
    queue. -/
theorem deferForNobody_run : ∃ c ch b w,
    @Setup.run Toy.lib (.server { Toy.server with writeBufSoft := 1050 }) Toy.rng deferForNobody
      = .ok () c ∧ Obs.queued b (some 0) (Msg.channelData 5 []) w ∈ c.log ∧
      c.now.channels.get? 0 = some ch ∧ ch.pendingOut = [[97]] := by
  have hpass : (@Setup.run Toy.lib (.server { Toy.server with writeBufSoft := 1050 }) Toy.rng
      deferForNobody).passes (fun c =>
        c.log.any (Obs.someQueued fun _ owner p => owner = some 0 ∧ p = Msg.channelData 5 []) &&
        (c.now.channels.get? 0).any fun ch => decide (ch.pendingOut = [[97]])) = true := by
    decide +kernel
  obtain ⟨_, c, hrun, hc⟩ := Outcome.exists_of_passes hpass
  rw [Bool.and_eq_true, List.any_eq_true, Option.any_eq_true] at hc
  obtain ⟨⟨o, ho, hempty⟩, ch, hch, hp⟩ := hc
  cases o with
  | queued b owner p w =>
    obtain ⟨rfl, rfl⟩ := of_decide_eq_true hempty
    exact ⟨c, ch, b, w, hrun, ho, hch, of_decide_eq_true hp⟩
  | _ => cases hempty

end Setup

end Ssproxy
