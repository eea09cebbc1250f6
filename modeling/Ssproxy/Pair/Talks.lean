/-
  Ssproxy.Pair.Talks

  A connection as its peer has to do with it.  The endpoint of a connection is
  where it stands in the key exchange, its receiving side, its send key and the
  bytes that wait for the socket.  A move, seen from there, is made of

  - `rest`: the endpoint stays as it is;
  - `say`: a message is sealed that is none of a key exchange;

  or it is a move of a key exchange, or it takes a packet.
-/

import Ssproxy.Backlog
import Ssproxy.Nonce
import Ssproxy.Rounds

namespace Ssproxy

open Lib Wire Connection Relation

-- ============================================================================
-- The endpoint
-- ============================================================================

/-- Where a connection stands in the key exchange with its peer. -/
structure Party where
  settings : Settings
  strict : Bool
  sessionId : Option Bytes
  kex : Option KexState
  pending : Option PendingKeys

/-- What the peer of a connection has to do with. -/
structure Endpoint where
  party : Party
  ident : Ident
  inbound : Inbound
  line : Nat × (DirectionKeys × UInt32)
  held : Bytes

namespace Connection

def party (c : Connection) : Party :=
  ⟨c.settings, c.strictKex, c.sessionId, c.kex, c.pendingKeys⟩

def endpoint (c : Connection) : Endpoint := ⟨c.party, c.ident, c.inbound, c.sendLine, c.held⟩

end Connection

/-- A packet was sealed or handled. -/
def Obs.isTraffic : Obs → Bool
  | queued _ _ _ _ | handled _ _ => true
  | _ => false

variable [CryptoLib]

/-- An elementary move that is none of a key exchange. -/
inductive Talk (c : Conn) : Conn → Prop where
  | rest {c' : Conn} {new : List Obs} (he : c'.now.endpoint = c.now.endpoint)
      (hlog : c'.log = c.log ++ new) (hnew : ∀ o ∈ new, o.isTraffic = false) : Talk c c'
  | say {c' : Conn} {owner : Option UInt32} {payload : Bytes} (hq : Queues owner payload c c')
      (hp : kexMsg payload = none) : Talk c c'

/-- Sequences of such moves. -/
def Talks (c c' : Conn) : Prop := ReflTransGen Talk c c'

variable {c c' c1 : Conn} {p payload : Bytes} {owner : Option UInt32} {new : List Obs} {k : Cause}

namespace Talks

theorem refl (c : Conn) : Talks c c := ReflTransGen.refl

theorem trans (h : Talks c c1) (h' : Talks c1 c') : Talks c c' := ReflTransGen.trans h h'

theorem one (h : Talk c c') : Talks c c' := ReflTransGen.single h

theorem still (he : c'.now.endpoint = c.now.endpoint) (hlog : c'.log = c.log) : Talks c c' :=
  one (.rest he (by rw [hlog, List.append_nil]) (List.forall_mem_nil _))

/-- One observation that is no packet. -/
theorem note {o : Obs} (he : c'.now.endpoint = c.now.endpoint) (hlog : c'.log = c.log ++ [o])
    (ho : o.isTraffic = false) : Talks c c' :=
  one (.rest he hlog fun o' h => by rwa [List.mem_singleton.mp h])

/-- The endpoint stays as it is, and more follows. -/
theorem since (h : Talks c1 c') (he : c1.now.endpoint = c.now.endpoint)
    (hlog : c1.log = c.log ++ new) (hnew : ∀ o ∈ new, o.isTraffic = false) : Talks c c' :=
  (one (.rest he hlog hnew)).trans h

theorem event (c : Conn) (ev : Event) : Talks c (withEvent c ev) := note rfl rfl rfl

theorem channel (c : Conn) (id : UInt32) (ch : Channel) : Talks c (withChannel c id ch) :=
  still rfl rfl

theorem freed (c : Conn) (id : UInt32) : Talks c (withoutChannel c id) := by
  unfold withoutChannel
  split
  · exact note rfl rfl rfl
  · exact still rfl (List.append_nil _)

end Talks

-- ============================================================================
-- The effects
-- ============================================================================

/-- A message that is none of a key exchange. -/
theorem Queues.talks (h : Queues owner payload c c') (hp : kexMsg payload = none) : Talks c c' :=
  .one (.say h hp)

theorem Draws.talks (h : Draws c c') : Talks c c' := by
  cases h
  exact .still rfl rfl

theorem Sends.talks (h : Sends owner payload c c') (hp : kexMsg payload = none) : Talks c c' := by
  rcases h with h | ⟨-, h⟩
  · exact h.talks hp
  · exact h.talks

theorem HangsUp.talks {reason : UInt32} {msg : String} (h : HangsUp reason msg c c') :
    Talks c c' := by
  cases h with
  | again hc => exact .refl c
  | first hc hs => exact (hs.talks (kexMsg_code _ _)).trans (.note rfl rfl rfl)

theorem Denies.talks {cfg : ServerConfig} (h : Denies cfg c c') : Talks c c' := by
  cases h with
  | soft hlt hq => exact hq.talks (kexMsg_code _ _)
  | hard hge hh => exact hh.talks

theorem Greets.talks (h : Greets c c') : Talks c c' := by
  cases h with
  | silent hr he => exact .refl c
  | extInfo hr he hq => exact hq.talks (kexMsg_code _ _)
  | service hr hq => exact hq.talks (kexMsg_code _ _)

theorem Allocates.talks {ch : Channel} {id : UInt32} (h : Allocates ch c id c') : Talks c c' := by
  cases h
  exact .note rfl rfl rfl

theorem SendsData.talks {id : UInt32} {chunks : List Bytes} (h : SendsData id c chunks c') :
    Talks c c' := by
  induction h with
  | done c => exact .refl c
  | defer hch hne hallow hgate htail ih => exact (Talks.channel _ _ _).trans ih
  | wire hch hne hallow hgate hr hq htail ih =>
    exact ((Talks.channel _ _ _).trans (hq.talks (kexMsg_code _ _))).trans ih

theorem Talks.pull (c : Conn) : Talks c ⟨c.now.pullCurrentOut, c.log⟩ := by
  have hheld := (pulls_pullCurrentOut c.now).held
  obtain ⟨_, _, _, _, hpull⟩ := c.now.pullCurrentOut_eq
  have he : c.now.pullCurrentOut.endpoint = c.now.endpoint := by
    show Endpoint.mk _ _ _ _ c.now.pullCurrentOut.held = _
    rw [hheld, hpull]
    rfl
  exact .still he rfl

/-- Every step but `consume_out`: it says something, or it starts an exchange. -/
theorem Step.talks (h : Step k c c') (hk : ∀ n, k ≠ .call (.consumeOut n)) :
    Talks c c' ∨ c.now.kex = none ∧ Starts c c' := by
  cases h with
  | pull => exact .inl (.pull c)
  | drain hb hm => exact absurd rfl (hk _)
  | draw h => exact .inl h.talks
  | startKex hk hs h => exact .inr ⟨hk, h⟩
  | hangUp h => exact .inl h.talks
  | grant hgate hch hadd hpos hr hq =>
    exact .inl ((Talks.channel _ _ _).trans (hq.talks (kexMsg_code _ _)))
  | sendData h hn hdata => exact .inl (h.talks.trans (.note rfl rfl rfl))
  | sendLost h hch hgate hr hsoft hhard => exact .inl (h.talks.trans (.still rfl rfl))
  | flush hch hcan hp hne hq =>
    exact .inl ((Talks.channel _ _ _).trans (hq.talks (kexMsg_code _ _)))
  | askEof hch he hc => exact .inl (.note rfl rfl rfl)
  | askClose hgate hch hc => exact .inl (.note rfl rfl rfl)
  | closeAgain hch hc hw => exact .inl (.note rfl rfl rfl)
  | closeSilent hgate hch hc hw hr => exact .inl (.note rfl rfl rfl)
  | closeNow hgate hch hc hw hr hq =>
    refine .inl (Talks.trans ?_ (hq.talks (kexMsg_code _ _)))
    exact .note rfl rfl rfl
  | emitEof hgate hch he hw hr hq =>
    exact .inl ((Talks.channel _ _ _).trans (hq.talks (kexMsg_code _ _)))
  | emitClose hgate hch hc hw hr hq =>
    exact .inl ((Talks.channel _ _ _).trans (hq.talks (kexMsg_code _ _)))
  | freeClosed hch hg hw => exact .inl (.freed _ _)
  | closeEvent id => exact .inl (.event _ _)
  | confirm hch hr hq =>
    exact .inl ((Talks.channel _ _ _).trans (hq.talks (kexMsg_code _ _)))
  | failOpen hch hr hs =>
    exact .inl ((Talks.freed _ _).trans (hs.talks (kexMsg_code _ _)))
  | openLocal hrole hauth ha hs => exact .inl (ha.talks.trans (hs.talks (kexMsg_code _ _)))
  | _ => exact .inl (.still rfl rfl)

-- ============================================================================
-- Taking a packet
-- ============================================================================

theorem Receives.party (h : Receives p c c1) : c1.now.party = c.now.party := by
  obtain ⟨cipher, rest, total, -, -, rfl⟩ := h.opens
  unfold resetRecv
  split <;> rfl

theorem Receives.outward (h : Receives p c c1) :
    c1.now.sendLine = c.now.sendLine ∧ c1.now.held = c.now.held := by
  obtain ⟨cipher, rest, total, -, -, rfl⟩ := h.opens
  unfold resetRecv
  split <;> exact ⟨rfl, rfl⟩

/-- A packet taken and handled: nothing of a key exchange, or one of its
    messages. -/
inductive Serves (p : Bytes) (c : Conn) : Conn → Prop where
  | talk {c1 c' : Conn} (hr : Receives p c c1) (hp : kexMsg p = none) (ht : Talks c1 c') :
      Serves p c c'
  | kexinitServer {c1 c2 : Conn} {q : Parser} {theirs : KexInit} {k : KexState} {c2s s2c : String}
      (hr : Receives p c c1) (hm : IsMsg .kexinit p) (hrole : c1.now.role = .server)
      (hp : KexInit.parseBody p (.new p) = .ok theirs q) (hj : Joins c1 c2)
      (hk : c2.now.kex = some k) (hn : Negotiates theirs c2s s2c) :
      Serves p c ⟨c2.now.recorded k theirs c2s s2c, c2.log⟩
  | kexinitClient {c1 c2 c' : Conn} {q : Parser} {theirs : KexInit} {k : KexState}
      {c2s s2c : String} {pub : Block 32}
      (hr : Receives p c c1) (hm : IsMsg .kexinit p) (hrole : c1.now.role = .client)
      (hp : KexInit.parseBody p (.new p) = .ok theirs q) (hj : Joins c1 c2)
      (hk : c2.now.kex = some k) (hn : Negotiates theirs c2s s2c) (hpub : k.localPub = some pub)
      (hq : Queues none (Msg.ecdhInit pub) ⟨c2.now.recorded k theirs c2s s2c, c2.log⟩ c') :
      Serves p c c'
  | ecdhInit {c1 c2 c' : Conn} {x : Exchange} {cfg : ServerConfig} {qC secret : Block 32}
      {sig : Bytes} {pk : PendingKeys} {rng : Rng} (hr : Receives p c c1)
      (hrole : c1.now.role = .server) (hm : Msg.ecdhInit qC <+: p) (hx : c1.now.InExchange x)
      (hcfg : c1.now.server = some cfg)
      (hq : Queues none
        (Msg.ecdhReply cfg.hostKey.publicBlob (CryptoLib.x25519Base secret) sig)
        ⟨({ c1.now with rng := rng, peerKs := some cfg.hostKey.publicBlob } : Connection).finished x
            cfg.hostKey.publicBlob qC (CryptoLib.x25519Base secret) (CryptoLib.x25519 secret qC),
          c1.log⟩ c2)
      (hs : Switches pk c2 c') : Serves p c c'
  | ecdhReply {c1 c' : Conn} {x : Exchange} {ks sig : Bytes} {qS pub secret : Block 32}
      {pk : PendingKeys} (hr : Receives p c c1) (hrole : c1.now.role = .client)
      (hm : Msg.ecdhReply ks qS sig <+: p) (hpub : x.kex.localPub = some pub)
      (hsec : x.kex.secret = some secret) (hx : c1.now.InExchange x)
      (hks : ks.length < 2 ^ 32) (hsig : sig.length < 2 ^ 32)
      (hs : Switches pk
        ⟨({ c1.now with
            kex := some { x.kex with secret := none }
            peerKs := some ks } : Connection).finished x ks pub qS
            (CryptoLib.x25519 secret qS), c1.log⟩ c') :
      Serves p c c'
  | newkeys {c1 c' : Conn} {pk : PendingKeys} (hr : Receives p c c1) (hm : IsMsg .newkeys p)
      (hpk : c1.now.pendingKeys = some pk)
      (ht : Talks ⟨(c1.now.installRecv pk).completed, c1.log⟩ c') : Serves p c c'

omit [CryptoLib] in
theorem kexMsg_of_begins {m : MsgType} {b : Bytes} (h : m.code :: b <+: p) :
    kexMsg p = if m ∈ MsgType.keyExchange then some m else none :=
  kexMsg_of_isMsg (IsMsg.of_prefix h)

omit [CryptoLib] in
theorem Ignores.kexMsg {c : Connection} (h : Ignores c p) : Ssproxy.kexMsg p = none := by
  cases h with
  | @passive m hm hmem =>
    rw [kexMsg_of_isMsg hm, if_neg]
    intro hkex
    revert hmem hkex
    cases m <;> decide
  | notServer hr hm hmem =>
    rcases hmem with rfl | rfl
    · exact kexMsg_of_isMsg hm
    · exact kexMsg_of_isMsg hm
  | notClient hr hm => exact kexMsg_of_isMsg hm
  | closeUnknown hm hch => exact kexMsg_of_begins hm

omit [CryptoLib] in
/-- What is answered by one message is none of a key exchange either. -/
theorem Answers.kexMsg_request {c : Connection} (h : Answers c p owner payload) :
    Ssproxy.kexMsg p = none := by
  cases h with
  | service hr hm hn => exact kexMsg_of_begins hm
  | credentials hr hc hm => exact kexMsg_of_isMsg hm
  | «global» hm hw hr => exact kexMsg_of_isMsg hm
  | unknownType ha hm ht => exact kexMsg_of_begins hm
  | request hm hw hch hr ht => exact kexMsg_of_begins hm
  | ping hm => exact kexMsg_of_isMsg hm
  | @unknown t hm ht =>
    unfold Ssproxy.kexMsg
    rw [List.find?_eq_none]
    intro m hmem hdec
    have hcode : m.code = t := Option.some.inj ((of_decide_eq_true hdec : IsMsg m p).symm.trans hm)
    subst hcode
    revert ht
    cases m <;> decide

theorem Handles.serves (h : Handles p c c') : Serves p c c' := by
  cases h with
  | skip hr h => exact .talk hr h.kexMsg (.refl _)
  | answer hr h hq => exact .talk hr h.kexMsg_request (hq.talks h.kexMsg)
  | kexinitServer hr hm hrole hp hj hk hn => exact .kexinitServer hr hm hrole hp hj hk hn
  | kexinitClient hr hm hrole hp hj hk hn hpub hq =>
    exact .kexinitClient hr hm hrole hp hj hk hn hpub hq
  | ecdhInit hr hrole hm hcfg hx hz hq hs => exact .ecdhInit hr hrole hm hx hcfg hq hs
  | ecdhReply hr hrole hm hpub hsec hx hks hsig hz hs =>
    exact .ecdhReply hr hrole hm hpub hsec hx hks hsig hs
  | newkeysFirst hr hm hpk hf hg =>
    exact .newkeys hr hm hpk (hg.talks.since rfl rfl (by simp [Obs.isTraffic]))
  | newkeysAgain hr hm hpk hf => exact .newkeys hr hm hpk (.note rfl rfl rfl)
  | userauthSuccess hr hm =>
    exact .talk hr (kexMsg_of_isMsg hm)
      ((Talks.event _ _).since rfl rfl (by simp [Obs.isTraffic]))
  | authAccept hr hrole hcfg hm hok hq =>
    have hsaid := hq.talks (kexMsg_code _ _)
    apply Serves.talk hr (kexMsg_of_begins hm)
    apply Talks.trans _ (.event _ _)
    exact hsaid.since rfl (List.append_assoc _ _ _) (by simp [Obs.isTraffic])
  | authReject hr hrole hcfg hm hbad hd =>
    exact .talk hr (kexMsg_of_begins hm) (hd.talks.since rfl rfl (by simp [Obs.isTraffic]))
  | authOther hr hrole hcfg hm hd => exact .talk hr (kexMsg_of_isMsg hm) hd.talks
  | @disconnect c1 reason msg hr hm =>
    have hclosed : Talks c1 ⟨{ c1.now with closed := true }, c1.log⟩ := .still rfl rfl
    exact .talk hr (kexMsg_of_isMsg hm) (hclosed.trans (.event _ _))
  | openSession hr hm hauth ha =>
    exact .talk hr (kexMsg_of_begins hm) (ha.talks.trans (.event _ _))
  | openDirect hr hm hauth ha =>
    exact .talk hr (kexMsg_of_begins hm) (ha.talks.trans (.event _ _))
  | openConfirm hr hm hch =>
    exact .talk hr (kexMsg_of_begins hm) ((Talks.channel _ _ _).trans (.event _ _))
  | openFail hr hm =>
    exact .talk hr (kexMsg_of_begins hm) ((Talks.freed _ _).trans (.event _ _))
  | windowAdjust hr hm hch => exact .talk hr (kexMsg_of_begins hm) (.channel _ _ _)
  | deliver hr hm hch hw =>
    have hnone : kexMsg p = none := by
      rcases hm with hm | ⟨code, hm⟩
      · exact kexMsg_of_begins hm
      · exact kexMsg_of_begins hm
    exact .talk hr hnone ((Talks.channel _ _ _).trans (.event _ _))
  | peerEof hr hm hch =>
    exact .talk hr (kexMsg_of_begins hm) ((Talks.channel _ _ _).trans (.event _ _))
  | peerEofUnknown hr hm hch => exact .talk hr (kexMsg_of_begins hm) (.event _ _)
  | peerClose hr hm hch => exact .talk hr (kexMsg_of_begins hm) (.channel _ _ _)

end Ssproxy
