/-
  Ssproxy.Rounds

  Our own messages of the key exchanges, in order: KEXINIT, the ECDH message of
  our role, NEWKEYS, and again from the start.  The state of the connection
  tells how far the round has got.  What breaks the order is an ECDH_INIT that
  a server accepts after its NEWKEYS, and a KEXINIT that a client accepts after
  another one.
-/

import Ssproxy.Lib.Rounds
import Ssproxy.Machine.Emits
import Ssproxy.Laws

namespace Ssproxy

open Lib Wire Connection Relation

-- ============================================================================
-- The messages of a key exchange
-- ============================================================================

/-- The messages of a key exchange. -/
def MsgType.keyExchange : List MsgType := [.kexinit, .kexEcdhInit, .kexEcdhReply, .newkeys]

/-- The message of a key exchange that a payload is. -/
def kexMsg (payload : Bytes) : Option MsgType :=
  MsgType.keyExchange.find? fun m => decide (IsMsg m payload)

/-- The message of a key exchange that was queued. -/
def Obs.kexSent : Obs → Option MsgType
  | queued _ _ payload _ => kexMsg payload
  | _ => none

/-- The queued messages of key exchanges, in order. -/
def kexSent (log : List Obs) : List MsgType := log.filterMap Obs.kexSent

/-- The messages of one key exchange that a connection sends. -/
def Role.kexRound : Role → List MsgType
  | .server => [.kexinit, .kexEcdhReply, .newkeys]
  | .client => [.kexinit, .kexEcdhInit, .newkeys]

/-- How many messages of the running exchange are out. -/
def Connection.kexSteps (c : Connection) : Nat :=
  match c.kex with
  | none => 0
  | some k =>
      if c.sentNewkeys then 3 else if c.role = .client ∧ k.theirs.isSome then 2 else 1

/-- The messages sent so far are whole rounds and those of the running exchange.
    After our NEWKEYS the peer's KEXINIT is recorded and a client's secret is
    used up. -/
structure KexOrdered (c : Conn) : Prop where
  rounds : InRounds c.now.role.kexRound c.now.kexSteps (kexSent c.log)
  switched : ∀ k, c.now.kex = some k → c.now.sentNewkeys = true →
    k.theirs.isSome = true ∧ (c.now.role = .client → k.secret = none)

theorem kexMsg_of_isMsg {m : MsgType} {payload : Bytes} (h : IsMsg m payload) :
    kexMsg payload = if m ∈ MsgType.keyExchange then some m else none := by
  have hdec : ∀ m' : MsgType, decide (IsMsg m' payload) = decide (m' = m) := by
    intro m'
    refine decide_eq_decide.mpr ⟨fun h' => h'.unique h, ?_⟩
    rintro rfl
    exact h
  unfold kexMsg
  simp only [hdec]
  cases m <;> rfl

theorem kexMsg_code (m : MsgType) (r : Bytes) :
    kexMsg (m.code :: r) = if m ∈ MsgType.keyExchange then some m else none :=
  kexMsg_of_isMsg rfl

theorem kexSent_append (l l' : List Obs) : kexSent (l ++ l') = kexSent l ++ kexSent l' :=
  List.filterMap_append

-- ============================================================================
-- Moves that send none of them
-- ============================================================================

/-- No message of a key exchange was sent, and the exchange is where it was. -/
structure KexStill (c c' : Conn) : Prop where
  role : c'.now.role = c.now.role
  kex : c'.now.kex = c.now.kex
  sentNewkeys : c'.now.sentNewkeys = c.now.sentNewkeys
  strict : c'.now.strictKex = c.now.strictKex
  first : c'.now.firstKexDone = c.now.firstKexDone
  sent : kexSent c'.log = kexSent c.log

variable {c c' c1 : Conn} {p payload : Bytes} {owner : Option UInt32} {k : Cause}

namespace KexStill

theorem refl (c : Conn) : KexStill c c := ⟨rfl, rfl, rfl, rfl, rfl, rfl⟩

theorem trans (h : KexStill c c1) (h' : KexStill c1 c') : KexStill c c' :=
  ⟨h'.role.trans h.role, h'.kex.trans h.kex, h'.sentNewkeys.trans h.sentNewkeys,
    h'.strict.trans h.strict, h'.first.trans h.first, h'.sent.trans h.sent⟩

theorem steps (h : KexStill c c') : c'.now.kexSteps = c.now.kexSteps := by
  unfold kexSteps
  rw [h.role, h.kex, h.sentNewkeys]

theorem kexOrdered (h : KexStill c c') (ho : KexOrdered c) : KexOrdered c' := by
  refine ⟨?_, ?_⟩
  · rw [h.role, h.steps, h.sent]
    exact ho.rounds
  · rw [h.role, h.kex, h.sentNewkeys]
    exact ho.switched

theorem of_control (hc : c'.now.control = c.now.control) (hlog : kexSent c'.log = kexSent c.log) :
    KexStill c c' :=
  ⟨congrArg (·.conn.role) hc, congrArg (·.conn.kex) hc, congrArg (·.conn.sentNewkeys) hc,
    congrArg (·.conn.strictKex) hc, congrArg (·.conn.firstKexDone) hc, hlog⟩

/-- One observation that is no message of a key exchange. -/
theorem note {o : Obs} (hc : c'.now.control = c.now.control) (hlog : c'.log = c.log ++ [o])
    (ho : o.kexSent = none) : KexStill c c' := by
  refine of_control hc ?_
  have hnil : kexSent [o] = [] := List.filterMap_cons_none ho
  rw [hlog, kexSent_append, hnil, List.append_nil]

/-- A move that begins in a state with the same control part. -/
theorem since (h : KexStill c1 c') (hc : c1.now.control = c.now.control)
    (hlog : kexSent c1.log = kexSent c.log) : KexStill c c' :=
  (of_control hc hlog).trans h

theorem event (c : Conn) (ev : Event) : KexStill c (withEvent c ev) := note rfl rfl rfl

theorem channel (c : Conn) (id : UInt32) (ch : Channel) : KexStill c (withChannel c id ch) :=
  of_control rfl rfl

theorem freed (c : Conn) (id : UInt32) : KexStill c (withoutChannel c id) := by
  unfold withoutChannel
  split
  · exact note rfl rfl rfl
  · exact of_control rfl (by rw [List.append_nil])

end KexStill

variable [CryptoLib]

theorem Queues.kexStill (h : Queues owner payload c c') (hp : kexMsg payload = none) :
    KexStill c c' := by
  obtain ⟨wire, hlog⟩ := h.log
  exact .note h.control hlog hp

omit [CryptoLib] in
theorem Draws.kexStill (h : Draws c c') : KexStill c c' := .of_control h.control (by rw [h.log])

theorem Sends.kexStill (h : Sends owner payload c c') (hp : kexMsg payload = none) :
    KexStill c c' := by
  rcases h with h | ⟨-, h⟩
  · exact h.kexStill hp
  · exact h.kexStill

theorem Receives.kexStill (h : Receives p c c1) : KexStill c c1 := .note h.control h.log rfl

theorem HangsUp.kexStill {reason : UInt32} {msg : String} (h : HangsUp reason msg c c') :
    KexStill c c' := by
  cases h with
  | again hc => exact .refl c
  | @first c1 hc hs =>
    refine (hs.kexStill (kexMsg_code _ _)).trans ⟨rfl, rfl, rfl, rfl, rfl, ?_⟩
    rw [kexSent_append]
    exact List.append_nil _

theorem Denies.kexStill {cfg : ServerConfig} (h : Denies cfg c c') : KexStill c c' := by
  cases h with
  | soft hlt hq => exact hq.kexStill (kexMsg_code _ _)
  | hard hge hh => exact hh.kexStill

theorem Greets.kexStill (h : Greets c c') : KexStill c c' := by
  cases h with
  | silent hr he => exact .refl c
  | extInfo hr he hq => exact hq.kexStill (kexMsg_code _ _)
  | service hr hq => exact hq.kexStill (kexMsg_code _ _)

omit [CryptoLib] in
theorem Allocates.kexStill {ch : Channel} {id : UInt32} (h : Allocates ch c id c') :
    KexStill c c' := by
  cases h
  exact .note rfl rfl rfl

theorem SendsData.kexStill {id : UInt32} {chunks : List Bytes} (h : SendsData id c chunks c') :
    KexStill c c' := by
  induction h with
  | done c => exact .refl c
  | defer hch hne hallow hgate htail ih => exact ih.since rfl rfl
  | wire hch hne hallow hgate hr hq htail ih =>
    exact ((KexStill.channel _ _ _).trans (hq.kexStill (kexMsg_code _ _))).trans ih

omit [CryptoLib] in
theorem Answers.kexMsg {c : Connection} (h : Answers c p owner payload) :
    kexMsg payload = none := by
  cases h with
  | «global» hm hw hr =>
    rcases hr with rfl | rfl
    · exact kexMsg_code _ _
    · exact kexMsg_code _ _
  | request hm hw hch hr ht =>
    rcases ht with rfl | rfl
    · exact kexMsg_code _ _
    · exact kexMsg_code _ _
  | service | credentials | unknownType | ping | unknown => exact kexMsg_code _ _

/-- A step sends none of them, or it starts an exchange. -/
theorem Step.kexStill (h : Step k c c') :
    KexStill c c' ∨ c.now.kex = none ∧ Starts c c' := by
  cases h with
  | pull =>
    obtain ⟨_, _, _, _, h⟩ := c.now.pullCurrentOut_eq
    rw [h]
    exact .inl (.of_control rfl rfl)
  | @drain _ b m hb hm =>
    obtain ⟨_, _, _, _, _, h⟩ := c.now.pullDrained_eq b (min m b.length)
    rw [h]
    exact .inl (.of_control rfl rfl)
  | draw h => exact .inl h.kexStill
  | startKex hk hs h => exact .inr ⟨hk, h⟩
  | hangUp h => exact .inl h.kexStill
  | grant hgate hch hadd hpos hr hq =>
    exact .inl ((KexStill.channel _ _ _).trans (hq.kexStill (kexMsg_code _ _)))
  | sendData h hn hdata =>
    refine .inl (h.kexStill.trans ?_)
    exact .note rfl rfl rfl
  | sendLost h hch hgate hr hsoft hhard => exact .inl (h.kexStill.trans (.of_control rfl rfl))
  | flush hch hcan hp hne hq =>
    exact .inl ((KexStill.channel _ _ _).trans (hq.kexStill (kexMsg_code _ _)))
  | askEof hch he hc => exact .inl (.note rfl rfl rfl)
  | askClose hgate hch hc => exact .inl (.note rfl rfl rfl)
  | closeAgain hch hc hw => exact .inl (.note rfl rfl rfl)
  | closeSilent hgate hch hc hw hr => exact .inl (.note rfl rfl rfl)
  | closeNow hgate hch hc hw hr hq =>
    have hclosed := hq.kexStill (kexMsg_code _ _)
    refine .inl (KexStill.trans ?_ hclosed)
    exact .note rfl rfl rfl
  | emitEof hgate hch he hw hr hq =>
    exact .inl ((KexStill.channel _ _ _).trans (hq.kexStill (kexMsg_code _ _)))
  | emitClose hgate hch hc hw hr hq =>
    exact .inl ((KexStill.channel _ _ _).trans (hq.kexStill (kexMsg_code _ _)))
  | freeClosed hch hg hw => exact .inl (.freed _ _)
  | closeEvent id => exact .inl (.event _ _)
  | confirm hch hr hq =>
    exact .inl ((KexStill.channel _ _ _).trans (hq.kexStill (kexMsg_code _ _)))
  | failOpen hch hr hs =>
    exact .inl ((KexStill.freed _ _).trans (hs.kexStill (kexMsg_code _ _)))
  | openLocal hrole hauth ha hs =>
    exact .inl (ha.kexStill.trans (hs.kexStill (kexMsg_code _ _)))
  | _ => exact .inl (.of_control rfl rfl)

-- ============================================================================
-- The moves of an exchange
-- ============================================================================

/-- A KEXINIT or an ECDH_INIT that the connection answers although it has
    answered one of the same exchange. -/
inductive RepeatsKex (c : Connection) (p : Bytes) : Prop where
  | ecdhInit {q : Block 32} (hrole : c.role = .server) (hk : c.kex.isSome = true)
      (hsent : c.sentNewkeys = true) (hm : Msg.ecdhInit q <+: p)
      (hz : isZero (CryptoLib.x25519 (c.rng.next 32) q).val = false) : RepeatsKex c p
  | kexinit {k : KexState} {theirs : KexInit} {q : Parser} {c2s s2c : String}
      (hrole : c.role = .client) (hk : c.kex = some k) (ht : k.theirs.isSome = true)
      (hm : IsMsg .kexinit p) (hp : KexInit.parseBody p (.new p) = .ok theirs q)
      (hn : Negotiates theirs c2s s2c) : RepeatsKex c p

/-- A message of a key exchange was sent: the next one of the round. -/
theorem Queues.inRounds {w : List MsgType} {i : Nat} {m : MsgType}
    (hq : Queues owner payload c c') (h : InRounds w i (kexSent c.log))
    (hm : kexMsg payload = some m) (hnext : w[i]? = some m) :
    InRounds w (i + 1) (kexSent c'.log) := by
  obtain ⟨wire, hlog⟩ := hq.log
  have hone : kexSent [.queued c.now owner payload wire] = [m] := List.filterMap_cons_some hm
  rw [hlog, kexSent_append, hone]
  exact h.next hnext

omit [CryptoLib] in
theorem Role.kexRound_zero (r : Role) : r.kexRound[0]? = some .kexinit := by
  cases r <;> rfl

omit [CryptoLib] in
theorem Role.kexRound_two (r : Role) : r.kexRound[2]? = some .newkeys := by
  cases r <;> rfl

theorem Starts.role (h : Starts c c') : c'.now.role = c.now.role := by
  cases h with
  | mk hq => exact congrArg (·.conn.role) hq.control

theorem Starts.kexSteps (h : Starts c c') : c'.now.kexSteps = 1 := by
  cases h with
  | mk hq => simp [Connection.kexSteps, started]

theorem Starts.kexOrdered (h : Starts c c') (hk : c.now.kex = none) (ho : KexOrdered c) :
    KexOrdered c' := by
  have hzero : c.now.kexSteps = 0 := by
    rw [Connection.kexSteps, hk]
  have hrounds := ho.rounds
  rw [hzero] at hrounds
  refine ⟨?_, ?_⟩
  · rw [h.kexSteps, h.role]
    cases h with
    | mk hq =>
      exact hq.inRounds hrounds (kexMsg_of_isMsg (isMsg_ownKexInit _)) (Role.kexRound_zero _)
  · cases h with
    | mk hq => exact fun k _ hsent => absurd hsent Bool.false_ne_true

theorem Joins.kexOrdered (h : Joins c c') (ho : KexOrdered c) : KexOrdered c' := by
  cases h with
  | running hk => exact ho
  | started hk hs => exact hs.kexOrdered hk ho

/-- Our NEWKEYS ends our part of the round. -/
theorem Switches.kexOrdered {pk : PendingKeys} {k : KexState} (h : Switches pk c c')
    (hrounds : InRounds c.now.role.kexRound 2 (kexSent c.log)) (hk : c.now.kex = some k)
    (hswitched : k.theirs.isSome = true ∧ (c.now.role = .client → k.secret = none)) :
    KexOrdered c' := by
  cases h with
  | @mk c1 hpk hq =>
    have hk1 : c1.now.kex = some k := (congrArg (·.conn.kex) hq.control).trans hk
    have hrole : c1.now.role = c.now.role := congrArg (·.conn.role) hq.control
    have hsteps : (c1.now.installSend pk).kexSteps = 3 := by
      simp [Connection.kexSteps, installSend, hk1]
    refine ⟨?_, ?_⟩
    · show InRounds c1.now.role.kexRound (c1.now.installSend pk).kexSteps (kexSent c1.log)
      rw [hsteps, hrole]
      exact hq.inRounds hrounds rfl (Role.kexRound_two _)
    · intro k' hk' _
      cases hk1.symm.trans hk'
      rw [show (c1.now.installSend pk).role = c.now.role from hrole]
      exact hswitched

omit [CryptoLib] in
/-- The exchange is complete. -/
theorem KexOrdered.completed {pk : PendingKeys} {c1 : Connection} (ho : KexOrdered c)
    (hwf : WellFormed c) (hpk : c.now.pendingKeys = some pk) (hrole : c1.role = c.now.role)
    (hk : c1.kex = none) : KexOrdered ⟨c1, c.log ++ [.kexCompleted (c.now.installRecv pk)]⟩ := by
  obtain ⟨hkex, hsent, -⟩ := hwf.kex.pending pk hpk
  obtain ⟨k, hkex⟩ := Option.isSome_iff_exists.mp hkex
  have hthree : c.now.kexSteps = c.now.role.kexRound.length := by
    have hsent' : c.now.sentNewkeys = true := hsent
    have hkex' : c.now.kex = some k := hkex
    rw [Connection.kexSteps, hkex']
    dsimp only
    rw [if_pos hsent']
    cases c.now.role <;> rfl
  have hrounds := ho.rounds
  rw [hthree] at hrounds
  refine ⟨?_, fun k hk' => ?_⟩
  · show InRounds c1.role.kexRound c1.kexSteps _
    rw [Connection.kexSteps, hk, hrole, kexSent_append]
    show InRounds c.now.role.kexRound 0 (kexSent c.log ++ [])
    rw [List.append_nil]
    exact hrounds.wrap
  · cases hk.symm.trans hk'

omit [CryptoLib] in
/-- The peer's KEXINIT is recorded. -/
theorem KexOrdered.recorded {k : KexState} {theirs : KexInit} {c2s s2c : String}
    (ho : KexOrdered c) (hrole : c.now.role = .server) (hk : c.now.kex = some k) :
    KexOrdered ⟨c.now.recorded k theirs c2s s2c, c.log⟩ := by
  have hserver : ¬c.now.role = .client := by
    rw [hrole]
    decide
  have hsteps : (c.now.recorded k theirs c2s s2c).kexSteps = c.now.kexSteps := by
    simp [Connection.kexSteps, Connection.recorded, hk, hserver]
  refine ⟨?_, fun k' hk' hsent => ⟨?_, fun hclient => absurd hclient hserver⟩⟩
  · show InRounds c.now.role.kexRound (c.now.recorded k theirs c2s s2c).kexSteps (kexSent c.log)
    rw [hsteps]
    exact ho.rounds
  · cases hk'
    rfl

/-- What the handling of `p` does to the key exchange: nothing, or as a message of
    one. -/
inductive Exchanges (p : Bytes) (c : Conn) : Conn → Prop where
  | still {c1 c' : Conn} (hr : Receives p c c1) (hs : KexStill c1 c') : Exchanges p c c'
  | kexinitServer {c1 c2 : Conn} {q : Parser} {theirs : KexInit} {k : KexState} {c2s s2c : String}
      (hr : Receives p c c1) (hm : IsMsg .kexinit p) (hrole : c1.now.role = .server)
      (hp : KexInit.parseBody p (.new p) = .ok theirs q) (hj : Joins c1 c2)
      (hk : c2.now.kex = some k) (hn : Negotiates theirs c2s s2c) :
      Exchanges p c ⟨c2.now.recorded k theirs c2s s2c, c2.log⟩
  | kexinitClient {c1 c2 c' : Conn} {q : Parser} {theirs : KexInit} {k : KexState}
      {c2s s2c : String} {pub : Block 32}
      (hr : Receives p c c1) (hm : IsMsg .kexinit p) (hrole : c1.now.role = .client)
      (hp : KexInit.parseBody p (.new p) = .ok theirs q) (hj : Joins c1 c2)
      (hk : c2.now.kex = some k) (hn : Negotiates theirs c2s s2c)
      (hq : Queues none (Msg.ecdhInit pub) ⟨c2.now.recorded k theirs c2s s2c, c2.log⟩ c') :
      Exchanges p c c'
  | ecdhInit {c1 c2 c3 c' : Conn} {x : Exchange} {ks sig : Bytes} {qC qS : Block 32}
      {pk : PendingKeys} (hr : Receives p c c1) (hrole : c1.now.role = .server)
      (hm : Msg.ecdhInit qC <+: p) (hx : c1.now.InExchange x)
      (hz : isZero (CryptoLib.x25519 (c1.now.rng.next 32) qC).val = false)
      (hfin : KexStill c1 c2) (hlog : c2.log = c1.log)
      (hq : Queues none (Msg.ecdhReply ks qS sig) c2 c3) (hs : Switches pk c3 c') :
      Exchanges p c c'
  | ecdhReply {c1 c2 c' : Conn} {x : Exchange} {secret : Block 32} {pk : PendingKeys}
      (hr : Receives p c c1) (hrole : c1.now.role = .client) (hm : IsMsg .kexEcdhReply p)
      (hsec : x.kex.secret = some secret) (hx : c1.now.InExchange x)
      (hrest : KexStill ⟨{ c1.now with kex := some { x.kex with secret := none } }, c1.log⟩ c2)
      (hlog : c2.log = c1.log) (hs : Switches pk c2 c') : Exchanges p c c'
  | newkeys {c1 c2 c' : Conn} {pk : PendingKeys} (hr : Receives p c c1) (hm : IsMsg .newkeys p)
      (hpk : c1.now.pendingKeys = some pk) (hrole : c2.now.role = c1.now.role)
      (hkex : c2.now.kex = none) (hstrict : c2.now.strictKex = c1.now.strictKex)
      (hlog : c2.log = c1.log ++ [.kexCompleted (c1.now.installRecv pk)])
      (hs : KexStill c2 c') : Exchanges p c c'

theorem Handles.exchanges (h : Handles p c c') : Exchanges p c c' := by
  cases h with
  | skip hr h => exact .still hr (.refl _)
  | answer hr h hq => exact .still hr (hq.kexStill h.kexMsg)
  | kexinitServer hr hm hrole hp hj hk hn => exact .kexinitServer hr hm hrole hp hj hk hn
  | kexinitClient hr hm hrole hp hj hk hn hpub hq => exact .kexinitClient hr hm hrole hp hj hk hn hq
  | ecdhInit hr hrole hm hcfg hx hz hq hs =>
    refine .ecdhInit hr hrole hm hx hz ?_ ?_ hq hs
    · exact ⟨rfl, rfl, rfl, rfl, rfl, rfl⟩
    · rfl
  | ecdhReply hr hrole hm hpub hsec hx hks hsig hz hs =>
    refine .ecdhReply hr hrole (IsMsg.of_prefix hm) hsec hx ?_ ?_ hs
    · exact ⟨rfl, rfl, rfl, rfl, rfl, rfl⟩
    · rfl
  | newkeysFirst hr hm hpk hf hg =>
    refine .newkeys hr hm hpk ?_ ?_ ?_ ?_ hg.kexStill
    all_goals rfl
  | newkeysAgain hr hm hpk hf =>
    refine .newkeys hr hm hpk ?_ ?_ ?_ ?_ (.refl _)
    all_goals rfl
  | userauthSuccess hr hm =>
    refine .still hr (KexStill.trans ?_ (KexStill.event _ _))
    exact ⟨rfl, rfl, rfl, rfl, rfl, (kexSent_append _ _).trans (List.append_nil _)⟩
  | authAccept hr hrole hcfg hm hok hq =>
    have haccepted := hq.kexStill (kexMsg_code _ _)
    refine .still hr ((KexStill.trans ?_ haccepted).trans (.event _ _))
    refine ⟨rfl, rfl, rfl, rfl, rfl, ?_⟩
    rw [kexSent_append, kexSent_append]
    exact (List.append_nil _).trans (List.append_nil _)
  | authReject hr hrole hcfg hm hbad hd =>
    refine .still hr (KexStill.trans ?_ hd.kexStill)
    exact ⟨rfl, rfl, rfl, rfl, rfl, (kexSent_append _ _).trans (List.append_nil _)⟩
  | authOther hr hrole hcfg hm hd => exact .still hr hd.kexStill
  | disconnect hr hm =>
    refine .still hr (KexStill.trans ?_ (KexStill.event _ _))
    exact ⟨rfl, rfl, rfl, rfl, rfl, rfl⟩
  | openSession hr hm hauth ha => exact .still hr (ha.kexStill.trans (.event _ _))
  | openDirect hr hm hauth ha => exact .still hr (ha.kexStill.trans (.event _ _))
  | openConfirm hr hm hch => exact .still hr ((KexStill.channel _ _ _).trans (.event _ _))
  | openFail hr hm => exact .still hr ((KexStill.freed _ _).trans (.event _ _))
  | windowAdjust hr hm hch => exact .still hr (.channel _ _ _)
  | deliver hr hm hch hw => exact .still hr ((KexStill.channel _ _ _).trans (.event _ _))
  | peerEof hr hm hch => exact .still hr ((KexStill.channel _ _ _).trans (.event _ _))
  | peerEofUnknown hr hm hch => exact .still hr (.event _ _)
  | peerClose hr hm hch => exact .still hr (.channel _ _ _)

theorem Exchanges.kexOrdered (h : Exchanges p c c') (ho : KexOrdered c) (hwf : WellFormed c)
    (hno : ¬RepeatsKex c.now p) : KexOrdered c' := by
  have hrecv : ∀ {c1 : Conn}, Receives p c c1 → KexOrdered c1 := fun hr => hr.kexStill.kexOrdered ho
  cases h with
  | still hr hs => exact hs.kexOrdered (hrecv hr)
  | kexinitServer hr hm hrole hp hj hk hn =>
    exact (hj.kexOrdered (hrecv hr)).recorded (hj.role.trans hrole) hk
  | @kexinitClient c1 c2 c' q theirs k c2s s2c pub hr hm hrole hp hj hk hn hq =>
    have ho2 := hj.kexOrdered (hrecv hr)
    have hrole2 : c2.now.role = .client := hj.role.trans hrole
    -- the exchange has no KEXINIT of the peer yet
    have hnone : k.theirs.isSome = false := by
      cases hj with
      | running hk1 =>
        refine Bool.eq_false_iff.mpr fun ht => hno (.kexinit ?_ ?_ ht hm hp hn)
        · exact (congrArg (·.conn.role) hr.control).symm.trans hrole
        · exact (congrArg (·.conn.kex) hr.control).symm.trans hk
      | started hk1 hs =>
        cases hs with
        | mk hq =>
          cases hk
          rfl
    have hsent : c2.now.sentNewkeys = false := by
      refine Bool.eq_false_iff.mpr fun hsent => ?_
      rw [(ho2.switched k hk hsent).1] at hnone
      cases hnone
    have hone : c2.now.kexSteps = 1 := by
      simp [Connection.kexSteps, hk, hsent, hnone]
    have htwo : (c2.now.recorded k theirs c2s s2c).kexSteps = 2 := by
      simp [Connection.kexSteps, Connection.recorded, hsent, hrole2]
    have hrounds := ho2.rounds
    rw [hone, hrole2] at hrounds
    have hkex : c'.now.kex = (c2.now.recorded k theirs c2s s2c).kex :=
      congrArg (·.conn.kex) hq.control
    have hnew : c'.now.sentNewkeys = false := (congrArg (·.conn.sentNewkeys) hq.control).trans hsent
    have hrole' : c'.now.role = .client := (congrArg (·.conn.role) hq.control).trans hrole2
    refine ⟨?_, fun k' _ hsent' => absurd (hnew.symm.trans hsent') Bool.false_ne_true⟩
    rw [show c'.now.kexSteps = 2 from (congrArg (·.conn.kexSteps) hq.control).trans htwo, hrole']
    exact hq.inRounds hrounds (kexMsg_code _ _) rfl
  | @ecdhInit c1 c2 c3 c' x ks sig qC qS pk hr hrole hm hx hz hfin hlog hq hs =>
    have ho1 := hrecv hr
    have hsent : c1.now.sentNewkeys = false := by
      refine Bool.eq_false_iff.mpr fun hsent => hno (.ecdhInit (q := qC) ?_ ?_ ?_ hm ?_)
      · exact (congrArg (·.conn.role) hr.control).symm.trans hrole
      · rw [show c.now.kex = c1.now.kex from (congrArg (·.conn.kex) hr.control).symm, hx.kex]
        rfl
      · exact (congrArg (·.conn.sentNewkeys) hr.control).symm.trans hsent
      · rw [← hr.rng]
        exact hz
    have hone : c2.now.kexSteps = 1 := by
      rw [hfin.steps]
      simp [Connection.kexSteps, hx.kex, hsent, hrole]
    have hrole2 : c2.now.role = .server := hfin.role.trans hrole
    have hrounds := (hfin.kexOrdered ho1).rounds
    rw [hone, hrole2] at hrounds
    have hrole3 : c3.now.role = .server := (congrArg (·.conn.role) hq.control).trans hrole2
    have hkex3 : c3.now.kex = some x.kex :=
      (congrArg (·.conn.kex) hq.control).trans (hfin.kex.trans hx.kex)
    refine hs.kexOrdered (k := x.kex) ?_ hkex3 ⟨by rw [hx.theirs]; rfl, fun hclient => ?_⟩
    · rw [hrole3]
      exact hq.inRounds hrounds (kexMsg_code _ _) rfl
    · cases hrole3.symm.trans hclient
  | @ecdhReply c1 c2 c' x secret pk hr hrole hm hsec hx hrest hlog hs =>
    have ho1 := hrecv hr
    have hsent : c1.now.sentNewkeys = false := by
      refine Bool.eq_false_iff.mpr fun hsent => ?_
      cases hsec.symm.trans ((ho1.switched x.kex hx.kex hsent).2 hrole)
    have htwo : c1.now.kexSteps = 2 := by
      simp [Connection.kexSteps, hx.kex, hsent, hrole, hx.theirs]
    have hrounds := ho1.rounds
    rw [htwo] at hrounds
    have hrounds2 : InRounds c2.now.role.kexRound 2 (kexSent c2.log) := by
      rw [hrest.role, hrest.sent]
      exact hrounds
    exact hs.kexOrdered (k := { x.kex with secret := none }) hrounds2 hrest.kex
      ⟨by rw [hx.theirs]; rfl, fun _ => rfl⟩
  | @newkeys c1 c2 c' pk hr hm hpk hrole hkex hstrict hlog hs =>
    have hdone := (hrecv hr).completed (hr.wellFormed hwf) hpk hrole hkex
    rw [← hlog] at hdone
    exact hs.kexOrdered hdone

theorem Faults.kexOrdered (h : Faults c c') (ho : KexOrdered c) : KexOrdered c' := by
  cases h with
  | reject h => exact h.kexStill.kexOrdered ho
  | @spoil c1 p ks k h hm hrole hk hsec =>
    have ho1 := h.kexStill.kexOrdered ho
    have hsteps : ({ c1.now with
        kex := c1.now.kex.map fun k => { k with secret := none }
        peerKs := ks } : Connection).kexSteps = c1.now.kexSteps := by
      simp [Connection.kexSteps, hk]
    refine ⟨?_, ?_⟩
    · show InRounds c1.now.role.kexRound (Connection.kexSteps _) (kexSent c1.log)
      rw [hsteps]
      exact ho1.rounds
    · intro k' hk' hsent
      rw [hk] at hk'
      cases hk'
      exact ⟨(ho1.switched k hk hsent).1, fun _ => rfl⟩
  | drop hkind => exact ⟨ho.rounds, ho.switched⟩
  | identBad h => exact ⟨ho.rounds, ho.switched⟩

theorem Move.kexOrdered (h : Move c c') (ho : KexOrdered c) (hwf : WellFormed c)
    (hno : ∀ before p, Obs.handled before p ∈ c'.log → ¬RepeatsKex before p) : KexOrdered c' := by
  have hstep : ∀ {k : Cause}, Step k c c' → KexOrdered c' := by
    intro k h
    rcases h.kexStill with hs | ⟨hk, hs⟩
    · exact hs.kexOrdered ho
    · exact hs.kexOrdered hk ho
  cases h with
  | quiet h =>
    cases h with
    | step h => exact hstep h
    | handle h =>
      refine h.exchanges.kexOrdered ho hwf (hno _ _ (h.log.subset ?_))
      exact List.mem_append_right _ (List.mem_singleton.mpr rfl)
    | identWait h hno => exact ⟨ho.rounds, ho.switched⟩
    | identDone h hs => exact ⟨ho.rounds, ho.switched⟩
  | fault h => exact h.kexOrdered ho
  | recv bytes => exact ⟨ho.rounds, ho.switched⟩
  | own h => exact hstep h

-- ============================================================================
-- Whole runs
-- ============================================================================

namespace Setup

/-- As long as no KEXINIT and no ECDH_INIT is answered a second time within one
    exchange, the key-exchange messages we send are a prefix of our rounds. -/
theorem run_rounds {setup : Setup} {rng : Rng} {calls : List Call} {c : Conn}
    (hrun : setup.run rng calls = .ok () c)
    (hno : ∀ x ∈ handledPackets c.log, ¬RepeatsKex x.1 x.2) :
    ∃ n, kexSent c.log <+: (List.replicate n setup.role.kexRound).flatten := by
  have hinv : KexOrdered c := by
    refine run_invariant (G := fun o => ∀ before p, o = .handled before p → ¬RepeatsKex before p)
      ?_ ?_ hrun ?_
    · intro c0 h0
      refine h0.kexOrdered (by cases setup <;> rfl) ⟨?_, fun k hk => ?_⟩
      · cases setup <;> exact .nil _
      · cases setup <;> cases hk
    · intro c c' hwf ho hm hG
      exact hm.kexOrdered ho hwf fun before p hp => hG _ hp before p rfl
    · rintro _ ho before p rfl
      exact hno (before, p) (mem_handledPackets.mpr ho)
  have hrole : c.now.role = setup.role := (Reaches.of_run hrun).role
  rw [← hrole]
  exact hinv.rounds.isPrefix

/-- A peer that makes one key exchange, with `more` behind its ECDH_INIT. -/
def oneExchange (more : List Bytes) : List Call :=
  [.recv (Toy.identLine ++ Toy.clearPacket (Toy.kexinit ["curve25519-sha256"] serverCiphers)
      ++ Toy.clearPacket (Msg.ecdhInit Toy.point)
      ++ (more.map Toy.clearPacket).flatten), .processIn]

omit [CryptoLib] in
theorem run_rounds_oneExchange : ∃ c,
    @Setup.run Toy.lib (.server Toy.server) Toy.rng (oneExchange [Msg.newkeys]) = .ok () c ∧
      kexSent c.log = [.kexinit, .kexEcdhReply, .newkeys] ∧
      ∃ n, kexSent c.log <+: (List.replicate n Role.server.kexRound).flatten := by
  have hpass : (@Setup.run Toy.lib (.server Toy.server) Toy.rng (oneExchange [Msg.newkeys])).passes
      (fun c => decide (kexSent c.log = [.kexinit, .kexEcdhReply, .newkeys]) &&
        decide (∀ x ∈ handledPackets c.log, x.1.role = .server ∧
          (x.1.kex.isSome = true → x.1.sentNewkeys = true → ¬IsMsg .kexEcdhInit x.2))) = true := by
    decide +kernel
  obtain ⟨_, c, hrun, hc⟩ := Outcome.exists_of_passes hpass
  rw [Bool.and_eq_true, decide_eq_true_iff, decide_eq_true_iff] at hc
  refine ⟨c, hrun, hc.1, @run_rounds Toy.lib _ _ _ c hrun fun x hx hrep => ?_⟩
  obtain ⟨hserver, hfresh⟩ := hc.2 x hx
  cases hrep with
  | ecdhInit hrole hk hsent hm hz => exact hfresh hk hsent (IsMsg.of_prefix hm)
  | kexinit hrole hk ht hm hp hn => cases hserver.symm.trans hrole

omit [CryptoLib] in
/-- A second ECDH_INIT of the same exchange is answered like the first. -/
theorem second_ecdhInit : ¬∀ (lib : CryptoLib) (setup : Setup) (rng : Rng) (calls : List Call)
    (c : Conn), @Setup.run lib setup rng calls = .ok () c →
    ∃ n, kexSent c.log <+: (List.replicate n setup.role.kexRound).flatten := by
  intro hclaim
  have hpass : (@Setup.run Toy.lib (.server Toy.server) Toy.rng
      (oneExchange [Msg.ecdhInit Toy.point])).passes (fun c =>
        decide ((kexSent c.log)[3]? = some .kexEcdhReply)) = true := by
    decide +kernel
  obtain ⟨_, c, hrun, hc⟩ := Outcome.exists_of_passes hpass
  have hfourth := of_decide_eq_true hc
  obtain ⟨n, rest, hrest⟩ := hclaim _ _ _ _ c hrun
  have hround : (List.replicate n Role.server.kexRound).flatten[3]? = some .kexEcdhReply := by
    rw [show Role.server = (Setup.server Toy.server).role from rfl, ← hrest,
      List.getElem?_append_left (List.getElem?_eq_some_iff.mp hfourth).1]
    exact hfourth
  match n with
  | 0 => cases hround
  | 1 => cases hround
  | n + 2 => cases hround

end Setup

end Ssproxy
