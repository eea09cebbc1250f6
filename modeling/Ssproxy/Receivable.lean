/-
  Ssproxy.Receivable

  Whether the other end accepts a data packet.  What a packet may carry is
  bounded by what the peer announced; the length that is announced in the packet
  also counts the header and the padding, and the other end compares it with
  `MAX_PACKET`.
-/

import Ssproxy.Clamp
import Ssproxy.Framing

namespace Ssproxy

open Lib Wire Connection Relation

-- ============================================================================
-- The length of a packet
-- ============================================================================

/-- The most data for which the packet is not longer than `MAX_PACKET`. -/
def CipherKind.dataRoom (kind : CipherKind) : Nat :=
  if kind.isAead then Ssproxy.maxPacket - 14 else Ssproxy.maxPacket - 18

/-- A data packet with `n` bytes is within `MAX_PACKET` just if there is room
    for the header of nine bytes, the padding and its length. -/
theorem packetLength_le_iff (kind : CipherKind) (n : Nat) :
    1 + (9 + n) + paddingLen (9 + n) kind.blockSize kind.isAead ≤ Ssproxy.maxPacket
      ↔ n ≤ kind.dataRoom := by
  have h8 : max 8 8 = 8 := rfl
  have h16 : max 16 8 = 16 := rfl
  unfold CipherKind.dataRoom paddingLen Ssproxy.maxPacket
  cases kind <;>
    simp only [CipherKind.blockSize, CipherKind.isAead, Bool.false_eq_true, if_false, if_true,
      h8, h16] <;> split <;> omega

-- ============================================================================
-- Sealed packets
-- ============================================================================

variable [CryptoLib]

/-- What was queued is the payload, sealed under the keys of that moment. -/
def Obs.Genuine : Obs → Prop
  | queued b _ p wire => p ≠ [] ∧ ∃ cipher pkt tag,
      b.sendCipher.sealBuf b.sendSeq (b.frame p) (List.replicate b.sendCipher.kind.tagLen 0)
        = .ok (cipher, pkt, tag) ∧ wire = pkt ++ tag
  | _ => True

variable {c c' : Conn} {D : Bytes → Prop}

theorem Outgo.genuine (h : Outgo D c c') (hl : ∀ o ∈ c.log, o.Genuine) :
    ∀ o ∈ c'.log, o.Genuine := by
  intro o ho
  cases h with
  | rest hs hlog hnew =>
    rw [hlog] at ho
    rcases List.mem_append.mp ho with ho | ho
    · exact hl o ho
    · have hno := hnew o ho
      cases o <;> trivial
  | queue hq hdata =>
    cases hq with
    | mk hne hseal =>
      rcases List.mem_append.mp ho with ho | ho
      · exact hl o ho
      · cases List.mem_singleton.mp ho
        exact ⟨hne, _, _, _, hseal, rfl⟩
  | install pk => exact hl o ho
  | pull => exact hl o ho

theorem Outgoes.genuine (h : Outgoes D c c') (hl : ∀ o ∈ c.log, o.Genuine) :
    ∀ o ∈ c'.log, o.Genuine := by
  induction h with
  | refl => exact hl
  | tail _ hlast ih => exact hlast.genuine ih

/-- Every packet of a run is genuine. -/
theorem Setup.Reaches.genuine {setup : Setup} (h : setup.Reaches c) : ∀ o ∈ c.log, o.Genuine := by
  obtain ⟨rng, c0, hstart, hmoves⟩ := h
  induction hmoves with
  | refl =>
    exact Outgoes.genuine (D := fun _ => True) hstart.outgoes fun o ho => absurd ho List.not_mem_nil
  | tail _ hlast ih =>
    rcases hlast.outgoes (carries_true _) with hout | ⟨b, m, hb, rfl⟩
    · exact hout.genuine ih
    · exact ih

-- ============================================================================
-- What the peer announces
-- ============================================================================

/-- The peer announces no more than window `w` and maximum packet size `m`, and
    its credit does not widen a window beyond `w`. -/
def Obs.Announces (w m : UInt32) : Obs → Prop
  | handled before p =>
      (∀ typ remote w' m', MsgType.channelOpen.code ::
          (putStr typ ++ putU32 remote ++ putU32 w' ++ putU32 m') <+: p → w' ≤ w ∧ m' ≤ m) ∧
      (∀ id remote w' m', MsgType.channelOpenConfirmation.code ::
          (putU32 id ++ putU32 remote ++ putU32 w' ++ putU32 m') <+: p → w' ≤ w ∧ m' ≤ m) ∧
      ∀ id add ch, Msg.windowAdjust id add <+: p → before.channels.get? id = some ch →
        ch.sendWindow.toNat + add.toNat ≤ w.toNat
  | _ => True

/-- The limits of the peer are within `w` and `m`. -/
structure Within (w m : UInt32) (ch : Channel) : Prop where
  window : ch.sendWindow ≤ w
  packet : ch.maxRemotePacket ≤ m

variable {id : UInt32} {x : Connection} {k : Cause} {ch ch' : Channel} {new : List Obs}
  {w m : UInt32}

omit [CryptoLib] in
theorem Fresh.within (h : Fresh id x k ch new) (hG : ∀ o ∈ new, o.Announces w m) :
    Within w m ch := by
  cases h with
  | peer hm hev =>
    have hhandled := hG _ List.mem_cons_self
    obtain ⟨hw, hmax⟩ := hhandled.1 _ _ _ _ hm
    exact ⟨hw, hmax⟩
  | here hrole hnew => exact ⟨UInt32.zero_le, UInt32.zero_le⟩

omit [CryptoLib] in
/-- What is taken off a window leaves it within its bound. -/
theorem Within.spend {n : Nat} (h : Within w m ch) (hn : n ≤ ch.sendWindow.toNat)
    (hw : ch'.sendWindow = ch.sendWindow - UInt32.ofNat n)
    (hmax : ch'.maxRemotePacket = ch.maxRemotePacket) : Within w m ch' := by
  refine ⟨?_, hmax ▸ h.packet⟩
  have hsub := toNat_sub_length hn
  have hwin := UInt32.le_iff_toNat_le.mp h.window
  rw [UInt32.le_iff_toNat_le, hw]
  omega

omit [CryptoLib] in
theorem Act.within (h : Act id x ch k ch' new) (hch : x.channels.get? id = some ch)
    (hG : ∀ o ∈ new, o.Announces w m) (hI : Within w m ch) : Within w m ch' := by
  cases h with
  | wire hne hallow hgate hr =>
    exact hI.spend (clamped_wire hne hallow).inAll rfl rfl
  | sendLost hlimits hn => exact hI.spend hn rfl rfl
  | flush hcan hp hne => exact hI.spend (clamped_flush hcan hp hne).inAll rfl rfl
  | flushLost hcan hp hne hlimits => exact hI.spend (clamped_flush hcan hp hne).inAll rfl rfl
  | peerConfirm hm =>
    obtain ⟨hw, hmax⟩ := (hG _ List.mem_cons_self).2.1 _ _ _ _ hm
    exact ⟨hw, hmax⟩
  | @credit p add hm =>
    have hsum := (hG _ List.mem_cons_self).2.2 _ _ _ hm hch
    have hlt := w.toNat_lt
    refine ⟨?_, hI.packet⟩
    show saturatingAdd32 ch.sendWindow add ≤ w
    rw [saturatingAdd32, if_pos (by omega), UInt32.le_iff_toNat_le, UInt32.toNat_add]
    omega
  | _ => exact ⟨hI.window, hI.packet⟩

-- ============================================================================
-- Every data packet is accepted
-- ============================================================================

/-- A data packet carries no more than the peer announced. -/
theorem Setup.Reaches.data_within {setup : Setup} (h : setup.Reaches c)
    (hpeer : ∀ o ∈ c.log, o.Announces w m) {b : Connection} {owner : Option UInt32}
    {p wire : Bytes} (hmem : Obs.queued b owner p wire ∈ c.log) (hp : IsMsg .channelData p) :
    ∃ r data, p = Msg.channelData r data ∧ data.length ≤ min w.toNat m.toNat := by
  obtain ⟨pre, post, hlog⟩ := List.append_of_mem hmem
  obtain ⟨id, rng, c0, k, c1, c2, ch, ch', r, data, -, hstart, hto, -, hfrom, hpre, -, hch, -, -,
    hdata, hclamped⟩ := h.data_step hlog hp
  have hpeer1 : ∀ o ∈ c1.log, o.Announces w m := by
    intro o ho
    refine hpeer o ?_
    rw [hlog]
    exact List.mem_append_left _ (hpre ▸ ho)
  have hwithin : Within w m ch :=
    hto.invariant (I := fun c => ∀ ch, c.now.channels.get? id = some ch → Within w m ch)
      (fun _ _ _ _ hI hs hG => hs.keeps (fun _ _ _ _ hf hG => hf.within hG)
        (fun _ _ _ _ _ hch hI ha hG => ha.within hch hG hI) hI hG)
      (fun _ hch => absurd hch hstart.no_channel) hpeer1 ch hch
  refine ⟨r, data, hdata, ?_⟩
  have hw := UInt32.le_iff_toNat_le.mp hwithin.window
  have hm := UInt32.le_iff_toNat_le.mp hwithin.packet
  have hall := hclamped.inAll
  have honce := hclamped.atOnce
  omega

/-- In a run whose peer announces window `w` and maximum packet size `m`: a data
    packet is within `MAX_PACKET` just if its data leaves room for the header and
    the padding.  If the smaller of `w` and `m` leaves that room, every data packet
    is, and the other end takes it. -/
theorem Setup.run_receivable [CryptoLaws] {setup : Setup} {rng : Rng} {calls : List Call}
    (hrun : setup.run rng calls = .ok () c) (hpeer : ∀ o ∈ c.log, o.Announces w m)
    {b : Connection} {owner : Option UInt32} {p wire : Bytes}
    (hmem : Obs.queued b owner p wire ∈ c.log) (hp : IsMsg .channelData p) :
    (∃ r data, p = Msg.channelData r data ∧
      (1 + p.length + b.padFor p ≤ Ssproxy.maxPacket
        ↔ data.length ≤ b.sendCipher.kind.dataRoom)) ∧
    (min w.toNat m.toNat ≤ b.sendCipher.kind.dataRoom →
      1 + p.length + b.padFor p ≤ Ssproxy.maxPacket ∧
      ∀ (r : Conn) (rest : Bytes), InStep b r.now → r.now.readBuf = wire ++ rest →
        (takePacket r).value? = some (some p)) := by
  have hreach : setup.Reaches c := Reaches.of_run hrun
  obtain ⟨r, data, rfl, hlen⟩ := hreach.data_within hpeer hmem hp
  obtain ⟨hne, cipher, pkt, tag, hseal, rfl⟩ := hreach.genuine _ hmem
  have hiff : 1 + (Msg.channelData r data).length + b.padFor (Msg.channelData r data)
      ≤ Ssproxy.maxPacket ↔ data.length ≤ b.sendCipher.kind.dataRoom := by
    rw [padFor, length_channelData]
    exact packetLength_le_iff _ _
  refine ⟨⟨r, data, rfl, hiff⟩, fun hroom => ?_⟩
  have hfits := hiff.mpr (Nat.le_trans hlen hroom)
  refine ⟨hfits, fun far rest hin hbuf => ?_⟩
  rw [takePacket_apply (arrived_of_sealed hseal hne hfits hin.cipher hin.seq hbuf)]
  rfl

/-- A server that lets the client open a channel. -/
def Setup.clientSendsOne : List Call :=
  [.recv (Toy.identLine ++ Toy.clearPacket Msg.userauthSuccess), .processIn,
    .openDirectTcpip "h" 80, .recv (Toy.clearPacket (Msg.openConfirmation 0 5 1000 1000)),
    .processIn, .sendData 0 [97]]

omit [CryptoLib] in
/-- The limits an OPEN_CONFIRMATION announces. -/
theorem openConfirmation_limits {id id' r r' w' m' : UInt32}
    (h : MsgType.channelOpenConfirmation.code :: (putU32 id ++ putU32 r ++ putU32 w ++ putU32 m)
      <+: Msg.openConfirmation r' id' w' m') : w = w' ∧ m = m' := by
  obtain ⟨rest, h⟩ := h
  simp only [Msg.openConfirmation, List.append_assoc, List.cons_append] at h
  obtain ⟨-, h⟩ := List.cons.inj h
  obtain ⟨-, h⟩ := List.append_inj h rfl
  obtain ⟨-, h⟩ := List.append_inj h rfl
  obtain ⟨hw, h⟩ := List.append_inj h rfl
  exact ⟨beBytes_injective hw, beBytes_injective (List.append_inj_left h rfl)⟩

omit [CryptoLib] in
theorem Setup.run_receivable_clientSendsOne : ∃ c b wire,
    @Setup.run Toy.lib (.client Toy.client) Toy.rng clientSendsOne = .ok () c ∧
      Obs.queued b (some 0) (Msg.channelData 5 [97]) wire ∈ c.log ∧
      1 + (Msg.channelData 5 [97]).length + b.padFor (Msg.channelData 5 [97])
        ≤ Ssproxy.maxPacket := by
  have hpass : (@Setup.run Toy.lib (.client Toy.client) Toy.rng clientSendsOne).passes (fun c =>
      c.log.any (Obs.someQueued fun _ owner p => owner = some 0 ∧ p = Msg.channelData 5 [97]) &&
      c.log.all (Obs.everyHandled fun _ p =>
        p = Msg.userauthSuccess ∨ p = Msg.openConfirmation 0 5 1000 1000)) = true := by
    decide +kernel
  obtain ⟨_, c, hrun, hc⟩ := Outcome.exists_of_passes hpass
  rw [Bool.and_eq_true, List.any_eq_true, List.all_eq_true] at hc
  obtain ⟨⟨o, ho, hdata⟩, hhandled⟩ := hc
  have hroom : ∀ kind : CipherKind, min (1000 : UInt32).toNat (1000 : UInt32).toNat
      ≤ kind.dataRoom := by
    intro kind
    cases kind <;> decide
  have hpeer : ∀ o ∈ c.log, o.Announces 1000 1000 := by
    intro o ho
    cases o with
    | handled before p =>
      rcases of_decide_eq_true (hhandled _ ho) with rfl | rfl
      · exact ⟨fun _ _ _ _ hm => absurd (IsMsg.of_prefix hm) (by decide),
          fun _ _ _ _ hm => absurd (IsMsg.of_prefix hm) (by decide),
          fun _ _ _ hm => absurd (IsMsg.of_prefix hm) (by decide)⟩
      · exact ⟨fun _ _ _ _ hm => absurd (IsMsg.of_prefix hm) (by decide),
          fun _ _ _ _ hm => by
            obtain ⟨rfl, rfl⟩ := openConfirmation_limits hm
            exact ⟨UInt32.le_refl _, UInt32.le_refl _⟩,
          fun _ _ _ hm => absurd (IsMsg.of_prefix hm) (by decide)⟩
    | _ => trivial
  cases o with
  | queued b owner p wire =>
    obtain ⟨rfl, rfl⟩ := of_decide_eq_true hdata
    let _ := Toy.lib
    have _ := Toy.laws
    exact ⟨c, b, wire, hrun, ho, ((Setup.run_receivable hrun hpeer ho rfl).2 (hroom _)).1⟩
  | _ => cases hdata

-- ============================================================================
-- A packet that is not accepted
-- ============================================================================

/-- With the gate open and an allowance for all of `data`, `send_data` sends it in
    one packet. -/
theorem sendData_once {id r : UInt32} {data : Bytes} (hch : c.now.channels.get? id = some ch)
    (hgate : c.now.kexBlocksApp = false) (hr : ch.remoteId = some r) (hne : data ≠ [])
    (hallow : data.length ≤ c.now.outboundAllowance id)
    (hlimits : c.now.writeSoft ≤ c.now.writeHard) :
    ∃ c' b w, sendData id data c = .ok data.length c' ∧
      Obs.queued b (some id) (Msg.channelData r data) w ∈ c'.log := by
  have hpos : 0 < data.length := List.length_pos_iff.mpr hne
  have hround := enqueueOrSend_sat hch hne hallow
  cases hsent : enqueueOrSend id data c with
  | panic => exact absurd hsent hround.ne_panic
  | err e c1 =>
    obtain ⟨_, _, _, _, -, -, -, hsoft, hhard, -⟩ := hround.of_err hsent
    omega
  | ok a c1 =>
    have hstop : ∀ fuel, sendLoop id data fuel (0 + data.length) c1 = .ok data.length c1 := by
      intro fuel
      rw [Nat.zero_add]
      cases fuel with
      | zero => rfl
      | succ fuel =>
        unfold sendLoop
        rw [if_neg (Nat.lt_irrefl _)]
        rfl
    have hfirst : ∀ fuel, sendLoop id data (fuel + 1) 0 c = .ok data.length c1 := by
      intro fuel
      have hmin : min (c.now.outboundAllowance id) (data.length - 0) = data.length := by omega
      unfold sendLoop
      rw [if_pos hpos, Proc.bind_of_ok (Traced.read_apply c), Proc.ite_apply, if_neg (by omega),
        Proc.bind_of_ok (Proc.checkedSub_of_le (Nat.zero_le _) c), hmin,
        Proc.bind_of_ok (Proc.slice_of_le (Nat.zero_le _) (by omega) c)]
      simp only [Nat.zero_add, Nat.sub_zero, List.drop_zero, List.take_length]
      rw [Proc.bind_of_ok hsent]
      have hnext := hstop fuel
      rwa [Nat.zero_add] at hnext
    have hloop : sendData id data c = .ok data.length c1 := by
      have hfuel := hfirst (data.length - 1)
      rw [Nat.sub_add_cancel hpos] at hfuel
      unfold sendData
      rw [if_neg hne]
      exact hfuel
    have hdata := hround.of_ok hsent [] c1 (.done c1)
    cases hdata with
    | defer hch' _ _ hdefer _ =>
      cases hch.symm.trans hch'
      rcases hdefer with hclosed | hnone
      · rw [hgate] at hclosed
        cases hclosed
      · rw [hr] at hnone
        cases hnone
    | @wire _ c2 _ ch' r' _ _ hch' _ _ _ hr' hq htail =>
      cases hch.symm.trans hch'
      cases hr.symm.trans hr'
      cases htail
      cases hq with
      | mk hne hseal =>
        exact ⟨_, _, _, hloop, List.mem_append_right _ List.mem_cons_self⟩

/-- Every run leads somewhere. -/
theorem Setup.exists_run (setup : Setup) (rng : Rng) (calls : List Call) :
    ∃ c, setup.run rng calls = .ok () c := by
  have hsat := setup.run_sat rng calls
  cases hout : setup.run rng calls with
  | ok a c => exact ⟨c, rfl⟩
  | err e c => exact (hsat.of_err hout).elim
  | panic => exact absurd hout hsat.ne_panic

/-- A client of this code with a large window and a large maximum packet size
    logs in and opens a channel, and the server confirms it. -/
def Setup.wideClient : List Call :=
  [.recv (Toy.identLine ++ Toy.clearPacket (Toy.kexinit clientKex serverCiphers)
      ++ Toy.clearPacket (Msg.ecdhInit Toy.point)
      ++ Toy.clearPacket Msg.newkeys ++ Toy.sealedPacket Msg.serviceRequest
      ++ Toy.sealedPacket (Msg.passwordRequest "proxy" "secret")
      ++ Toy.sealedPacket (Msg.channelOpen 0 (2 ^ 20) (2 ^ 20) "h" 80)), .processIn,
    .confirmOpen 0]

omit [CryptoLib] in
/-- A data packet within the announced limits whose length the other end does
    not accept. -/
theorem Setup.data_not_receivable : ¬∀ (lib : CryptoLib) (setup : Setup) (rng : Rng)
    (calls : List Call) (c : Conn), @Setup.run lib setup rng calls = .ok () c →
    ∀ b owner p wire, Obs.queued b owner p wire ∈ c.log → IsMsg .channelData p →
      1 + p.length + b.padFor p ≤ Ssproxy.maxPacket := by
  intro hclaim
  let _ := Toy.lib
  have hpass : (Setup.run (.server Toy.server) Toy.rng wideClient).passes (fun c =>
      ((c.now.channels.get? 0).any fun ch => decide (ch.remoteId = some 0)) &&
        decide (c.now.kexBlocksApp = false ∧ Ssproxy.maxPacket ≤ c.now.outboundAllowance 0 ∧
          c.now.writeSoft ≤ c.now.writeHard)) = true := by
    decide +kernel
  obtain ⟨_, c, hpre, hc⟩ := Outcome.exists_of_passes hpass
  rw [Bool.and_eq_true, Option.any_eq_true] at hc
  obtain ⟨⟨ch, hch, hr⟩, hrest⟩ := hc
  obtain ⟨hgate, hallow, hlimits⟩ := of_decide_eq_true hrest
  obtain ⟨data, hlen⟩ : ∃ data : Bytes, data.length = Ssproxy.maxPacket :=
    ⟨List.replicate Ssproxy.maxPacket 0, List.length_replicate⟩
  obtain ⟨c1, b, w, hsend, hmem⟩ := sendData_once hch hgate (of_decide_eq_true hr)
    (List.length_pos_iff.mp (by rw [hlen]; decide)) (by rw [hlen]; exact hallow) hlimits
  obtain ⟨c2, hrun⟩ := Setup.exists_run (.server Toy.server) Toy.rng
    (wideClient ++ [.sendData 0 data])
  obtain ⟨c3, hpre', hend⟩ := Setup.run_snoc hrun
  cases hpre.symm.trans hpre'
  have hcall : (Call.sendData 0 data).run c
      = .ok () ⟨c1.now, c1.log ++ [.accepted c.now 0 data data.length]⟩ := by
    show sendDataNoted _ _ c = _
    unfold sendDataNoted
    rw [Proc.bind_of_ok (Traced.read_apply c), Proc.bind_of_ok hsend]
    rfl
  rw [hcall] at hend
  cases hend
  have hfits := hclaim _ _ _ _ _ hrun b _ _ w (List.mem_append_left _ hmem) rfl
  rw [length_channelData, hlen] at hfits
  omega

end Ssproxy
