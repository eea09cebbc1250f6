/-
  Ssproxy.Pair.Strokes

  Every move of a connection is a stroke of its end of the trunk, or none.  The
  parcels that it takes are in the payload that it handles, those that it posts
  in the payloads that it queues.
-/

import Ssproxy.Pair.Parcels

namespace Ssproxy

open Lib Wire Connection Relation

open Trunk (Stroke)

-- ============================================================================
-- Traffic in the history
-- ============================================================================

/-- The payloads sent so far. -/
def sentPayloads (log : List Obs) : List Bytes := (sentPackets log).map (·.payload)

theorem sentPayloads_append (l l' : List Obs) :
    sentPayloads (l ++ l') = sentPayloads l ++ sentPayloads l' := by
  rw [sentPayloads, sentPackets_append, List.map_append, sentPayloads, sentPayloads]

theorem mem_sentPayloads {l : List Obs} {q : Bytes} (h : q ∈ sentPayloads l) :
    ∃ b owner w, Obs.queued b owner q w ∈ l := by
  obtain ⟨i, hi, rfl⟩ := List.mem_map.mp h
  obtain ⟨o, ho, hpacket⟩ := List.mem_filterMap.mp hi
  cases o with
  | queued b owner q w =>
    cases hpacket
    exact ⟨b, owner, w, ho⟩
  | _ => cases hpacket

theorem mem_payloads {l : List Obs} {p : Bytes} (h : p ∈ payloads l) :
    ∃ b, Obs.handled b p ∈ l := by
  obtain ⟨x, hx, rfl⟩ := List.mem_map.mp h
  exact ⟨x.1, mem_handledPackets.mp hx⟩

/-- Between `x` and `y` the payloads `taken` were handled, and `posted` were queued. -/
structure Traffic (taken posted : List Bytes) (x y : Conn) : Prop where
  log : ∃ new, y.log = x.log ++ new ∧ payloads new = taken ∧ sentPayloads new = posted

/-- One move of an end. -/
inductive Pulse (x y : Conn) : Prop where
  | rest {taken posted : List Bytes} (hm : Traffic taken posted x y)
      (hl : y.now.lanes = x.now.lanes) (ht : ∀ p ∈ taken, parcel p = none)
      (hp : ∀ q ∈ posted, FlowFree q)
  | stroke {taken : Option Bytes} {posted : List Bytes} {id : UInt32}
      {new : Option (Lane UInt32)} (hm : Traffic taken.toList posted x y)
      (hl : y.now.lanes = Function.update x.now.lanes id new)
      (h : Stroke maxWindow x.now.role.port (taken.bind parcel) id (x.now.lanes id) new
        (posted.filterMap parcel))
      (ht : ∀ p ∈ taken, (parcel p).isSome = true) (hp : ∀ q ∈ posted, (parcel q).isSome = true)

section Pulses

variable {x y : Conn} {new : List Obs} {p q : Bytes} {d : Parcel UInt32} {id : UInt32}
  {l : Option (Lane UInt32)}

/-- One parcel is posted. -/
theorem Pulse.post (hlog : y.log = x.log ++ new) (hnone : payloads new = [])
    (hsent : sentPayloads new = [q]) (hq : parcel q = some d)
    (hl : y.now.lanes = Function.update x.now.lanes id l)
    (h : Stroke maxWindow x.now.role.port none id (x.now.lanes id) l [d]) : Pulse x y := by
  have ht : Traffic (none : Option Bytes).toList [q] x y := ⟨new, hlog, hnone, hsent⟩
  refine .stroke ht hl ?_ nofun ?_
  · rw [List.filterMap_cons_some hq]
    exact h
  · intro q' hq'
    rw [List.mem_singleton.mp hq', hq]
    rfl

/-- One parcel is taken. -/
theorem Pulse.take (hlog : y.log = x.log ++ new) (htaken : payloads new = [p])
    (hnone : sentPayloads new = []) (hp : parcel p = some d)
    (hl : y.now.lanes = Function.update x.now.lanes id l)
    (h : Stroke maxWindow x.now.role.port (some d) id (x.now.lanes id) l []) : Pulse x y := by
  have ht : Traffic (some p).toList [] x y := ⟨new, hlog, htaken, hnone⟩
  refine .stroke ht hl ?_ ?_ nofun
  · rw [Option.bind_some, hp]
    exact h
  · intro p' hp'
    cases hp'
    rw [hp]
    rfl

end Pulses

-- ============================================================================
-- Writes to a lane
-- ============================================================================

section Writes

variable {ch : Channel}

theorem lane_spend {n : Nat} (hn : n ≤ ch.sendWindow.toNat) :
    { ch with sendWindow := ch.sendWindow - UInt32.ofNat n }.lane
      = { ch.lane with send := ch.lane.send - n } := by
  have hlt := ch.sendWindow.toNat_lt
  have hnat : (UInt32.ofNat n).toNat = n := by
    rw [UInt32.toNat_ofNat', Nat.mod_eq_of_lt (by omega)]
  have hle : UInt32.ofNat n ≤ ch.sendWindow := by
    rw [UInt32.le_iff_toNat_le, hnat]
    exact hn
  have hsub := UInt32.toNat_sub_of_le _ _ hle
  rw [hnat] at hsub
  exact congrArg (fun s => { ch.lane with send := s }) hsub

theorem lane_arrive {n : Nat} (hlen : n < 2 ^ 32) (hw : UInt32.ofNat n ≤ ch.recvWindow) :
    n ≤ ch.recvWindow.toNat ∧ { ch with recvWindow := ch.recvWindow - UInt32.ofNat n }.lane
      = { ch.lane with recv := ch.lane.recv - n } := by
  have hnat : (UInt32.ofNat n).toNat = n := by
    rw [UInt32.toNat_ofNat', Nat.mod_eq_of_lt hlen]
  have hsub := UInt32.toNat_sub_of_le _ _ hw
  rw [hnat] at hsub
  rw [UInt32.le_iff_toNat_le, hnat] at hw
  exact ⟨hw, congrArg (fun s => { ch.lane with recv := s }) hsub⟩

theorem lane_gain (add : UInt32) :
    { ch with sendWindow := saturatingAdd32 ch.sendWindow add }.lane
      = { ch.lane with send := min (ch.lane.send + add.toNat) maxWindow } :=
  congrArg (fun s => { ch.lane with send := s }) (saturatingAdd32_toNat ch.sendWindow add)

/-- A grant fills the window up to its limit at most. -/
theorem windowAdjustAmount_le {add : UInt32} (hadd : ch.windowAdjustAmount () = .ok add ())
    (hpos : add ≠ 0) : ch.recvWindow.toNat + add.toNat ≤ ch.recvMax.toNat := by
  unfold Channel.windowAdjustAmount at hadd
  have hallowed : saturatingSub32 ch.recvMax (UInt32.ofNat ch.inQBytes) ≤ ch.recvMax := by
    unfold saturatingSub32
    split
    · rename_i hle
      rw [UInt32.le_iff_toNat_le, UInt32.toNat_sub_of_le _ _ hle]
      omega
    · exact UInt32.zero_le
  generalize saturatingSub32 ch.recvMax (UInt32.ofNat ch.inQBytes) = allowed at hadd hallowed
  rw [UInt32.le_iff_toNat_le] at hallowed
  by_cases hle : allowed ≤ ch.recvWindow
  · simp only [hle, if_true, Proc.pure_apply, Outcome.ok.injEq, and_true] at hadd
    exact absurd hadd.symm hpos
  · have hsub : ch.recvWindow ≤ allowed := UInt32.le_of_lt (UInt32.not_le.mp hle)
    have hnat := UInt32.toNat_sub_of_le _ _ hsub
    rw [UInt32.le_iff_toNat_le] at hsub
    have heq : add = allowed - ch.recvWindow := by
      simp only [hle, if_false, Proc.bind_apply, Proc.checkedSub32_of_le
        (UInt32.le_of_lt (UInt32.not_le.mp hle)), Outcome.bind_ok, Proc.ite_apply] at hadd
      split at hadd
      · cases hadd
        rfl
      · cases hadd
        exact absurd rfl hpos
    rw [heq, hnat]
    omega

theorem lane_grant {add : UInt32} (hle : ch.recvWindow.toNat + add.toNat ≤ ch.recvMax.toNat) :
    { ch with recvWindow := ch.recvWindow + add }.lane
      = { ch.lane with recv := ch.lane.recv + add.toNat } := by
  have hlt := ch.recvMax.toNat_lt
  have hsum : (ch.recvWindow + add).toNat = ch.recvWindow.toNat + add.toNat := by
    rw [UInt32.toNat_add, Nat.mod_eq_of_lt (by omega)]
  exact congrArg (fun s => { ch.lane with recv := s }) hsum

end Writes

-- ============================================================================
-- What an end brings to a stroke
-- ============================================================================

/-- The channel on whose open a call decides. -/
def Call.decides : Call → Option UInt32
  | confirmOpen id => some id
  | failOpen id _ _ => some id
  | _ => none

/-- The application decides on opens of the peer only, and once. -/
def Call.Polite (call : Call) (c : Connection) : Prop :=
  ∀ id ∈ call.decides, ∀ ch ∈ c.channels.get? id, ch.remoteId ≠ none ∧ ch.openConfirmed = false

instance (call : Call) (c : Connection) : Decidable (call.Polite c) :=
  -- one id at most, so there is no need to go through all of them
  have : DecidablePred fun id => ∀ ch ∈ c.channels.get? id,
      ch.remoteId ≠ none ∧ ch.openConfirmed = false :=
    fun id => Option.decidableForallMem (c.channels.get? id)
  Option.decidableForallMem call.decides

def Cause.Polite : Cause → Connection → Prop
  | .call made, c => made.Polite c
  | _, _ => True

/-- What the history tells when the peer is this program and closes no channel. -/
structure Candid (log : List Obs) : Prop where
  subdued : ∀ b q w, Obs.queued b none q w ∈ log → FlowFree q
  heard : ∀ b p, Obs.handled b p ∈ log → Known p ∧ p.length < 2 ^ 32
  unclosed : ∀ b p, Obs.handled b p ∈ log → ¬IsMsg .channelClose p

/-- What a move from `x` to `y` may rely on. -/
structure Poised (x y : Conn) : Prop extends Candid y.log where
  table : x.now.channels.Represents
  limits : x.now.writeSoft ≤ x.now.writeHard
  live : ∀ id ch, x.now.channels.get? id = some ch → ch.gotClose = false
  /-- A client uses a channel as soon as it knows its remote id. -/
  confirmed : ∀ id ch, x.now.role = .client → x.now.channels.get? id = some ch →
    ch.remoteId ≠ none → ch.openConfirmed = true
  /-- Without a remote id there is nothing to grant. -/
  full : ∀ id ch, x.now.channels.get? id = some ch → ch.remoteId = none →
    ch.recvWindow = ch.recvMax
  addressed : ∀ new, y.log = x.log ++ new → ∀ p ∈ payloads new, ∀ d, parcel p = some d →
    d.For x.now.role.port

theorem Candid.mono {l l' : List Obs} (h : Candid l') (hl : l <+: l') : Candid l where
  subdued b q w hmem := h.subdued b q w (hl.subset hmem)
  heard b p hmem := h.heard b p (hl.subset hmem)
  unclosed b p hmem := h.unclosed b p (hl.subset hmem)

theorem Role.port_eq_opener {r : Role} : r.port = .opener ↔ r = .client := by
  cases r <;> simp [Role.port]

theorem Role.port_eq_acceptor {r : Role} : r.port = .acceptor ↔ r = .server := by
  cases r <;> simp [Role.port]

section Moves

variable {x y : Conn} {new : List Obs} {p : Bytes} {id : UInt32} {ch ch' : Channel} {k : Cause}

/-- The lane stays as it is, and nothing goes out that has to do with one. -/
theorem Pulse.still (hch : x.now.channels.get? id = some ch)
    (hset : y.now.channels = x.now.channels.set id ch') (hlane : ch'.lane = ch.lane)
    (hlog : y.log = x.log ++ new) (htaken : ∀ p ∈ payloads new, parcel p = none)
    (hsent : ∀ q ∈ sentPayloads new, FlowFree q) : Pulse x y := by
  refine .rest ⟨new, hlog, rfl, rfl⟩ ?_ htaken hsent
  rw [lanes_set hch hset, hlane, ← lanes_of_get? hch, Function.update_eq_self]

/-- The same, with nothing in the history that is a payload. -/
theorem Pulse.silent (hch : x.now.channels.get? id = some ch)
    (hset : y.now.channels = x.now.channels.set id ch') (hlane : ch'.lane = ch.lane)
    (hlog : y.log = x.log ++ new) (htaken : payloads new = []) (hsent : sentPayloads new = []) :
    Pulse x y := by
  refine .still hch hset hlane hlog ?_ ?_
  · rw [htaken]
    exact List.forall_mem_nil _
  · rw [hsent]
    exact List.forall_mem_nil _

/-- The same, and one message goes out. -/
theorem Pulse.say {q : Bytes} (hch : x.now.channels.get? id = some ch)
    (hset : y.now.channels = x.now.channels.set id ch') (hlane : ch'.lane = ch.lane)
    (hlog : y.log = x.log ++ new) (htaken : payloads new = []) (hsent : sentPayloads new = [q])
    (hq : FlowFree q) : Pulse x y := by
  refine .still hch hset hlane hlog ?_ ?_
  · rw [htaken]
    exact List.forall_mem_nil _
  · rw [hsent]
    exact List.forall_mem_singleton.mpr hq

/-- The same, and one message came in. -/
theorem Pulse.hear (hch : x.now.channels.get? id = some ch)
    (hset : y.now.channels = x.now.channels.set id ch') (hlane : ch'.lane = ch.lane)
    (hlog : y.log = x.log ++ new) (htaken : payloads new = [p]) (hsent : sentPayloads new = [])
    (hp : FlowFree p) : Pulse x y := by
  refine .still hch hset hlane hlog ?_ ?_
  · rw [htaken]
    exact List.forall_mem_singleton.mpr (parcel_flowFree hp)
  · rw [hsent]
    exact List.forall_mem_nil _

namespace Poised

theorem server (h : Poised x y) (hch : x.now.channels.get? id = some ch)
    (hr : ch.remoteId ≠ none) (hc : ch.openConfirmed = false) : x.now.role.port = .acceptor := by
  apply Role.port_eq_acceptor.mpr
  cases hrole : x.now.role with
  | server => rfl
  | client =>
    have hconf := h.confirmed id ch hrole hch hr
    rw [hc] at hconf
    cases hconf

/-- A packet that is for one end only. -/
theorem port (h : Poised x y) (hlog : y.log = x.log ++ new) (htaken : payloads new = [p])
    {d : Parcel UInt32} (hp : parcel p = some d) {e : End} (hfor : ¬d.For e) :
    x.now.role.port = e.other := by
  have hmem : p ∈ payloads new := by
    rw [htaken]
    exact List.mem_singleton_self p
  have hd := h.addressed new hlog p hmem d hp
  cases hport : x.now.role.port with
  | opener =>
    cases e with
    | opener =>
      rw [hport] at hd
      exact absurd hd hfor
    | acceptor => rfl
  | acceptor =>
    cases e with
    | opener => rfl
    | acceptor =>
      rw [hport] at hd
      exact absurd hd hfor

end Poised

end Moves

-- ============================================================================
-- Acts
-- ============================================================================

section Acts

variable {x y : Conn} {new : List Obs} {p : Bytes} {id r : UInt32} {ch ch' : Channel} {k : Cause}

/-- Data goes out. -/
theorem Pulse.sends {chunk : Bytes} (hch : x.now.channels.get? id = some ch)
    (hset : y.now.channels = x.now.channels.set id ch')
    (hlane : ch'.lane
      = { ch with sendWindow := ch.sendWindow - UInt32.ofNat chunk.length }.lane)
    (hr : ch.remoteId = some r) (hc : ch.openConfirmed = true)
    (hn : chunk.length ≤ ch.sendWindow.toNat) (hlog : y.log = x.log ++ new)
    (htaken : payloads new = []) (hsent : sentPayloads new = [Msg.channelData r chunk]) :
    Pulse x y := by
  have hlt := ch.sendWindow.toNat_lt
  have hl := lanes_set hch hset
  rw [hlane, lane_spend hn] at hl
  refine .post hlog htaken hsent (parcel_channelData r (by omega)) hl ?_
  rw [lanes_of_get? hch]
  exact .send hr hc hn

/-- Credit goes out. -/
theorem Pulse.grants {add : UInt32} (hch : x.now.channels.get? id = some ch)
    (hset : y.now.channels = x.now.channels.set id { ch with recvWindow := ch.recvWindow + add })
    (hadd : ch.windowAdjustAmount () = .ok add ()) (hpos : add ≠ 0) (hr : ch.remoteId = some r)
    (hlog : y.log = x.log ++ new) (htaken : payloads new = [])
    (hsent : sentPayloads new = [Msg.windowAdjust r add]) : Pulse x y := by
  have hroom := windowAdjustAmount_le hadd hpos
  have hl := lanes_set hch hset
  rw [lane_grant hroom] at hl
  have hnat : 0 < add.toNat := by
    apply Nat.pos_of_ne_zero
    intro hzero
    exact hpos (UInt32.toNat_inj.mp hzero)
  refine .post hlog htaken hsent (parcel_windowAdjust r add) hl ?_
  rw [lanes_of_get? hch]
  exact .grant hr hnat hroom

/-- The server confirms an open. -/
theorem Pulse.confirms {maxPacket : UInt32} (hport : x.now.role.port = .acceptor)
    (hch : x.now.channels.get? id = some ch)
    (hset : y.now.channels = x.now.channels.set id { ch with openConfirmed := true })
    (hr : ch.remoteId = some r) (hc : ch.openConfirmed = false) (hlog : y.log = x.log ++ new)
    (htaken : payloads new = [])
    (hsent : sentPayloads new = [Msg.openConfirmation r id ch.recvMax maxPacket]) :
    Pulse x y := by
  have hl := lanes_set hch hset
  refine .post hlog htaken hsent (parcel_openConfirmation r id ch.recvMax maxPacket) hl ?_
  rw [lanes_of_get? hch, hport]
  exact .confirm hr hc

/-- The client learns that an open was confirmed. -/
theorem Pulse.learns {remote w m : UInt32} (hpoised : Poised x y)
    (hm : MsgType.channelOpenConfirmation.code ::
      (putU32 id ++ putU32 remote ++ putU32 w ++ putU32 m) <+: p)
    (hch : x.now.channels.get? id = some ch)
    (hset : y.now.channels = x.now.channels.set id
      { ch with
        remoteId := some remote, sendWindow := w, maxRemotePacket := m, openConfirmed := true })
    (hlog : y.log = x.log ++ new) (htaken : payloads new = [p]) (hsent : sentPayloads new = []) :
    Pulse x y := by
  obtain ⟨rest, rfl⟩ := hm
  have hparcel : parcel (MsgType.channelOpenConfirmation.code ::
      (putU32 id ++ putU32 remote ++ putU32 w ++ putU32 m) ++ rest)
      = some (.confirm id remote w.toNat) := by
    rw [List.cons_append, List.append_assoc]
    exact parcel_confirmation id remote w
  have hport : x.now.role.port = .opener :=
    hpoised.port hlog htaken hparcel (e := .acceptor) not_false
  refine .take hlog htaken hsent hparcel (lanes_set hch hset) ?_
  rw [lanes_of_get? hch, hport]
  exact .learn

/-- Credit came in. -/
theorem Pulse.gains {add : UInt32} (hm : Msg.windowAdjust id add <+: p)
    (hch : x.now.channels.get? id = some ch)
    (hset : y.now.channels = x.now.channels.set id
      { ch with sendWindow := saturatingAdd32 ch.sendWindow add })
    (hlog : y.log = x.log ++ new) (htaken : payloads new = [p]) (hsent : sentPayloads new = []) :
    Pulse x y := by
  obtain ⟨rest, rfl⟩ := hm
  have hl := lanes_set hch hset
  rw [lane_gain] at hl
  refine .take hlog htaken hsent (parcel_adjust id add) hl ?_
  rw [lanes_of_get? hch]
  exact .gain

/-- Data came in. -/
theorem Pulse.arrives {data : Bytes} (hpoised : Poised x y)
    (hm : Msg.channelData id data <+: p
      ∨ ∃ code, MsgType.channelExtendedData.code :: (putU32 id ++ putU32 code ++ putBytes data) <+: p)
    (hw : UInt32.ofNat data.length ≤ ch.recvWindow) (hch : x.now.channels.get? id = some ch)
    (hset : y.now.channels = x.now.channels.set id ch')
    (hlane : ch'.lane = { ch with recvWindow := ch.recvWindow - UInt32.ofNat data.length }.lane)
    (hlog : y.log = x.log ++ new) (htaken : payloads new = [p]) (hsent : sentPayloads new = []) :
    Pulse x y := by
  have hp : p ∈ payloads y.log := by
    rw [hlog, payloads_append, htaken]
    exact List.mem_append_right _ (List.mem_singleton_self p)
  obtain ⟨b, hb⟩ := mem_payloads hp
  obtain ⟨hknown, hlen⟩ := hpoised.heard b p hb
  rcases hm with ⟨rest, rfl⟩ | ⟨code, rest, rfl⟩
  · have hdata : data.length < 2 ^ 32 := by
      simp only [Msg.channelData, putBytes, List.length_append, List.length_cons] at hlen
      omega
    obtain ⟨hroom, hrecv⟩ := lane_arrive hdata hw
    have hl := lanes_set hch hset
    rw [hlane, hrecv] at hl
    refine .take hlog htaken hsent (parcel_data id hdata) hl ?_
    rw [lanes_of_get? hch]
    exact .arrive hroom
  · -- no end of this program sends extended data
    rw [List.cons_append] at hknown
    rcases hknown with hfree | hsome
    · exact absurd rfl (hfree .channelExtendedData (by decide))
    · rw [parcel_extended] at hsome
      cases hsome

/-- What happens to a channel is a stroke of its lane, or none. -/
theorem Act.pulse (ha : Act id x.now ch k ch' new) (hch : x.now.channels.get? id = some ch)
    (hset : y.now.channels = x.now.channels.set id ch') (hlog : y.log = x.log ++ new)
    (hp : Poised x y) (hk : k.Polite x.now) : Pulse x y := by
  cases ha with
  | defer | askEof | askClose | closeAgain | closeSilent | emitEofSilent | emitCloseSilent
  | consume => exact .silent hch hset rfl hlog rfl rfl
  | sendLost hlimits | flushLost hcan hq hne hlimits => exact absurd hp.limits (by omega)
  | closeNow | emitEof | emitClose =>
    exact .say hch hset rfl hlog rfl rfl (flowFree_cons (by decide))
  | @wire data chunk w r hne hallow hgate hr =>
    have hpos := List.length_pos_iff.mpr hne
    have hboth : ch.openConfirmed = true ∧ chunk.length ≤ ch.sendWindow.toNat := by
      unfold Channel.outboundAllowance at hallow
      split at hallow
      · omega
      · rename_i hopen
        simp only [Bool.or_eq_true, Bool.not_eq_true', not_or] at hopen
        exact ⟨by simpa using hopen.1.1, by omega⟩
    exact .sends hch hset rfl hr hboth.1 hboth.2 hlog rfl rfl
  | @flush r front w queue hcan hq hne =>
    have hlen : (front.take (flushTake ch front)).length ≤ ch.sendWindow.toNat := by
      rw [List.length_take, flushTake]
      omega
    exact .sends hch hset rfl hcan.remote hcan.confirmed hlen hlog rfl rfl
  | grantSilent hgate hadd hpos hr =>
    have hroom := windowAdjustAmount_le hadd hpos
    rw [hp.full id ch hch hr] at hroom
    exact absurd (UInt32.toNat_inj.mp (by simpa using hroom)) hpos
  | grant hgate hadd hpos hr => exact .grants hch hset hadd hpos hr hlog rfl rfl
  | confirmSilent hr => exact absurd hr (hk id rfl ch hch).1
  | confirm hr =>
    obtain ⟨hremote, hc⟩ := hk id rfl ch hch
    exact .confirms (hp.server hch hremote hc) hch hset hr hc hlog rfl rfl
  | peerConfirm hm => exact .learns hp hm hch hset hlog rfl rfl
  | credit hm => exact .gains hm hch hset hlog rfl rfl
  | deliver hm hw => exact .arrives hp hm hw hch hset rfl hlog rfl rfl
  | peerEof hm | peerClose hm =>
    exact .hear hch hset rfl hlog rfl rfl (flowFree_of_isMsg (IsMsg.of_prefix hm) (by decide))
  | reply hm hwant hr ht hb =>
    refine .still hch hset rfl hlog ?_ ?_
    · exact List.forall_mem_singleton.mpr
        (parcel_flowFree (flowFree_of_isMsg (IsMsg.of_prefix hm) (by decide)))
    · intro q hq
      rw [List.mem_singleton.mp hq]
      rcases ht with rfl | rfl
      · exact flowFree_cons (by decide)
      · exact flowFree_cons (by decide)

end Acts

-- ============================================================================
-- Moves
-- ============================================================================

section Moves

variable {x y : Conn} {new : List Obs} {q : Bytes} {id : UInt32} {ch : Channel}
  {k : Cause} {owner : Option UInt32}

/-- One message at most. -/
theorem sentPayloads_one (hnew : ∀ o ∈ new, ∃ b w, o = .queued b owner q w)
    (hone : new.countP Obs.isQueued ≤ 1) :
    payloads new = [] ∧ (sentPayloads new = [q] ∨ sentPayloads new = []) := by
  cases new with
  | nil => exact ⟨rfl, .inr rfl⟩
  | cons o new =>
    obtain ⟨b, w, rfl⟩ := hnew o List.mem_cons_self
    cases new with
    | nil => exact ⟨rfl, .inl rfl⟩
    | cons o new =>
      obtain ⟨b', w', rfl⟩ := hnew _ (List.mem_cons_of_mem _ List.mem_cons_self)
      rw [List.countP_cons_of_pos rfl, List.countP_cons_of_pos rfl] at hone
      omega

/-- An end posts one parcel, or it gets lost. -/
theorem Pulse.tries {d : Parcel UInt32} {l : Option (Lane UInt32)} (hlog : y.log = x.log ++ new)
    (hnone : payloads new = []) (hsent : sentPayloads new = [q] ∨ sentPayloads new = [])
    (hq : parcel q = some d) (hl : y.now.lanes = Function.update x.now.lanes id l)
    (h : ∀ parcels, parcels = [d] ∨ parcels = [] →
      Stroke maxWindow x.now.role.port none id (x.now.lanes id) l parcels) : Pulse x y := by
  rcases hsent with hsent | hsent
  · exact .post hlog hnone hsent hq hl (h _ (.inl rfl))
  · have ht : Traffic (none : Option Bytes).toList [] x y := ⟨new, hlog, hnone, hsent⟩
    exact .stroke ht hl (h _ (.inr rfl)) nofun nofun

/-- A channel is put into its slot. -/
theorem Fresh.pulse (hf : Fresh id x.now k ch new) (hfree : x.now.lanes id = none)
    (hl : y.now.lanes = Function.update x.now.lanes id (some ch.lane))
    (hlog : y.log = x.log ++ new) (hone : new.countP Obs.isQueued ≤ 1) (hp : Poised x y) :
    Pulse x y := by
  cases hf with
  | @peer p kind typ remote w m port host ev hm hev =>
    have hmem : p ∈ payloads y.log := by
      rw [hlog, payloads_append]
      exact List.mem_append_right _ (List.mem_singleton_self p)
    obtain ⟨b, hb⟩ := mem_payloads hmem
    obtain ⟨hknown, hlen⟩ := hp.heard b p hb
    obtain ⟨rest, rfl⟩ := hm
    have htyp : (strBytes typ).length < 2 ^ 32 := by
      simp only [putStr, putBytes, List.length_append, List.length_cons] at hlen
      omega
    have hparcel := parcel_open (r := putU32 m ++ rest) remote w htyp
    rw [← List.append_assoc, ← List.cons_append] at hparcel
    split at hparcel
    · have hport : x.now.role.port = .acceptor := hp.port hlog rfl hparcel (e := .opener) not_false
      refine .take hlog rfl rfl hparcel hl ?_
      rw [hfree, hport]
      exact .accept (toNat_le_maxWindow _)
    · -- an open of any other type is unknown
      rcases hknown with hother | hsome
      · exact absurd rfl (hother .channelOpen (by decide))
      · rw [hparcel] at hsome
        cases hsome
  | here hrole hnew =>
    obtain ⟨hnone, hsent⟩ := sentPayloads_one hnew hone
    refine .tries hlog hnone hsent (parcel_channelOpen _ _ _ _ _) hl fun parcels hparcels => ?_
    rw [hfree, Role.port_eq_opener.mpr hrole]
    exact .ask (toNat_le_maxWindow _) hparcels

/-- A channel is freed. -/
theorem Leaves.pulse (hleave : Leaves id x.now ch k new) (hch : x.now.channels.get? id = some ch)
    (hrel : y.now.channels = x.now.channels.release id) (hlog : y.log = x.log ++ new)
    (hone : new.countP Obs.isQueued ≤ 1) (hp : Poised x y) (hk : k.Polite x.now) : Pulse x y := by
  have hl := lanes_release hrel
  cases hleave with
  | closed hg hw =>
    have hopen := hp.live id ch hch
    rw [hg] at hopen
    cases hopen
  | failed hr hnew =>
    obtain ⟨hnone, hsent⟩ := sentPayloads_one hnew hone
    obtain ⟨hremote, hc⟩ := hk id rfl ch hch
    refine .tries hlog hnone hsent (parcel_openFailure _ _ _) hl fun parcels hparcels => ?_
    rw [lanes_of_get? hch, hp.server hch hremote hc]
    exact .refuse hr hc hparcels
  | @refused p reason msg hm =>
    obtain ⟨rest, rfl⟩ := hm
    have hparcel := parcel_failure (r := putU32 reason ++ rest) id
    rw [← List.append_assoc, ← List.cons_append] at hparcel
    have hport : x.now.role.port = .opener := hp.port hlog rfl hparcel (e := .acceptor) not_false
    refine .take hlog rfl rfl hparcel hl ?_
    rw [hport]
    exact .giveUp

/-- Nothing happens to a lane. -/
theorem Bypasses.pulse (h : Bypasses x y) (hp : Poised x y) : Pulse x y := by
  obtain ⟨new, hlog, hnew⟩ := h.log
  refine .rest ⟨new, hlog, rfl, rfl⟩ (lanes_congr h.channels) ?_ ?_
  · intro p hmem
    obtain ⟨b, hb⟩ := mem_payloads hmem
    have hforeign : Foreign p := hnew _ hb
    cases hforeign with
    | other hfree => exact parcel_flowFree hfree
    | @unknownType typ remote hm ht =>
      have hy : Obs.handled b p ∈ y.log := by
        rw [hlog]
        exact List.mem_append_right _ hb
      obtain ⟨-, hlen⟩ := hp.heard b p hy
      obtain ⟨rest, rfl⟩ := hm
      refine parcel_unknownType remote ?_ ht.2
      simp only [putStr, putBytes, List.length_append, List.length_cons] at hlen
      omega
  · intro q hmem
    obtain ⟨b, owner, w, hq⟩ := mem_sentPayloads hmem
    have howner : owner = none := hnew _ hq
    subst howner
    apply hp.subdued b q w
    rw [hlog]
    exact List.mem_append_right _ hq

/-- Every move of an end is a stroke of one of its lanes, or none. -/
theorem Touch.pulse (h : Touch k x y) (hp : Poised x y) (hk : k.Polite x.now) : Pulse x y := by
  cases h with
  | rest h => exact h.pulse hp
  | act hch ha hset hlog => exact ha.pulse hch hset hlog hp hk
  | enter halloc hf hlog hone =>
    obtain ⟨hfree, hl⟩ := lanes_alloc hp.table halloc
    exact hf.pulse hfree hl hlog hone hp
  | leave hch hl hrel hlog hone => exact hl.pulse hch hrel hlog hone hp hk
  | @missed id reason msg p hnone hm hsame hlog =>
    obtain ⟨rest, rfl⟩ := hm
    have hparcel := parcel_failure (r := putU32 reason ++ rest) id
    rw [← List.append_assoc, ← List.cons_append] at hparcel
    have hport : x.now.role.port = .opener := hp.port hlog rfl hparcel (e := .acceptor) not_false
    have hlanes : x.now.lanes id = none := by rw [Connection.lanes, hnone, Option.map_none]
    have hl : y.now.lanes = Function.update x.now.lanes id none := by
      rw [lanes_congr hsame, ← hlanes, Function.update_eq_self]
    refine .take hlog rfl rfl hparcel hl ?_
    rw [hport]
    exact .giveUp

end Moves

end Ssproxy
